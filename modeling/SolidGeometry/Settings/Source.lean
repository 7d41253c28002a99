import SolidGeometry.Files
import SolidGeometry.Settings.Basic
import SolidGeometry.Text.Quoted
import SolidGeometry.Yaml.Datum

namespace SolidGeometry

/-- Why a text gives no settings. -/
inductive SettingsError where
  | missing (path : String)
  | unreadable (cause : Yaml.Failure)
  | notTable
  /-- A key of the table is no text. -/
  | unnamedField
  | invalid (issues : List Issue)
  deriving DecidableEq, Repr

def SettingsError.message : SettingsError → String
  | .missing path =>
    "Cannot read config file: [Errno 2] No such file or directory: " ++ Text.quoted path
  | .unreadable cause => cause.message
  | .notTable => "Top-level YAML value must be a mapping"
  | .unnamedField => "keywords must be strings"
  | .invalid _ => "Config validation failed"

/-- Whether an error is told to the user. A table without names ends the program, and so does a text
that is YAML but stands for no data. -/
def SettingsError.isReported : SettingsError → Bool
  | .unnamedField => false
  | .unreadable cause => cause = .malformed
  | _ => true

def Settings.ofDatum : Datum → Except SettingsError Settings
  | .null => .ok Settings.default
  | .table entries =>
    match textEntries? entries with
    | none => .error .unnamedField
    | some fields => (Settings.ofEntries fields).mapError .invalid
  | _ => .error .notTable

def Settings.ofYaml (text : String) : Except SettingsError Settings := do
  Settings.ofDatum (← (Yaml.datumOfText text).mapError .unreadable)

def Settings.ofFile (files : Files) (path : String) : Except SettingsError Settings :=
  match files.text? path with
  | none => .error (.missing (normalPath path))
  | some text => Settings.ofYaml text

end SolidGeometry
