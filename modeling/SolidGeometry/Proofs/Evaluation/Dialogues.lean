import SolidGeometry.Dialogue
import SolidGeometry.Proofs.Evaluation.Failures
import SolidGeometry.Proofs.Evaluation.Rendering

namespace SolidGeometry

namespace Session

variable (s : Session)

/-- The notes to show with the value of a question, unless a warning is taken for an error. -/
def notes (question : String) : Except Warning (List String) :=
  Policy.apply s.policy? ((evaluate question).warnings.map .degenerate)

/-- What a question breaks a dialogue off with. -/
inductive Breaks (question : String) : SessionError → Prop where
  /-- An integer of too many digits stands in the question or would stand in a warning. -/
  | digits {construct : Grammar.Construct} {cause : DigitFault}
    (evaluated : (evaluate question).result = .error (.refused construct (.digits cause))) :
    Breaks question (.evaluation (.refused construct (.digits cause)))
  /-- The value of the question has a number that cannot be written. -/
  | rendering {value : Value} {shown : List String} {fault : Fault}
    (evaluated : (evaluate question).result = .ok value) (accepted : s.notes question = .ok shown)
    (unwritable : ¬value.Writable) (failed : value.render s.settings.style = .error fault) :
    Breaks question (.rendering fault)

theorem result_answer (question : String) :
    (s.answer question).result =
      match (evaluate question).result with
      | .error e => .error (.evaluation e)
      | .ok value =>
        match s.notes question with
        | .error w => .error (.promoted w)
        | .ok shown =>
          match value.render s.settings.style with
          | .error fault => .error (.rendering fault)
          | .ok text => .ok ⟨text, shown⟩ := by
  unfold answer
  dsimp only
  cases evaluated : (evaluate question).result with
  | error e =>
    have failed : ((evaluate question).mapError SessionError.evaluation).result =
        .error (.evaluation e) := by
      rw [Noted.mapError, evaluated]
      rfl
    rw [Noted.bind_error _ failed]
  | ok value =>
    have done : ((evaluate question).mapError SessionError.evaluation).result = .ok value := by
      rw [Noted.mapError, evaluated]
      rfl
    rw [Noted.bind_ok _ done]
    have warned : Policy.apply s.policy? ((((evaluate question).mapError
        SessionError.evaluation).warnings).map .degenerate) = s.notes question := rfl
    rw [warned]
    dsimp only
    cases s.notes question with
    | error w => rfl
    | ok shown =>
      dsimp only
      cases value.render s.settings.style with
      | error fault => rfl
      | ok text => rfl

/-- An evaluation that is not reported as wrong input has met an integer of too many digits. -/
theorem digits_of_not_reported {question : String} {e : EvaluationError}
    (failed : (evaluate question).result = .error e)
    (silent : (SessionError.evaluation e).isReported = false) :
    ∃ construct cause, e = .refused construct (.digits cause) := by
  cases found : Grammar.read question with
  | error cause =>
    unfold evaluate at failed
    rw [found] at failed
    cases failed
    cases silent
  | ok tree =>
    have given := gives_value found
    unfold Gives at given
    rw [← result_evaluate found, failed] at given
    cases given with
    | arithmetic cause => cases silent
    | digits construct cause => exact ⟨construct, cause, rfl⟩
    | noMethod known kinds => cases silent

/-- The errors of a question that are not reported as wrong input are those that break a dialogue
off. -/
theorem breaks_iff (question : String) (e : SessionError) :
    s.Breaks question e ↔ (s.answer question).result = .error e ∧ e.isReported = false := by
  rw [result_answer]
  constructor
  · rintro (⟨evaluated⟩ | ⟨evaluated, accepted, _, failed⟩)
    · rw [evaluated]
      exact ⟨rfl, rfl⟩
    · simp only [evaluated, accepted, failed]
      exact ⟨trivial, rfl⟩
  · rintro ⟨failed, silent⟩
    cases evaluated : (evaluate question).result with
    | error cause =>
      rw [evaluated] at failed
      cases failed
      obtain ⟨construct, digits, rfl⟩ := digits_of_not_reported evaluated silent
      exact .digits evaluated
    | ok value =>
      cases accepted : s.notes question with
      | error w =>
        simp only [evaluated, accepted] at failed
        cases failed
        cases silent
      | ok shown =>
        cases written : value.render s.settings.style with
        | ok text => simp [evaluated, accepted, written] at failed
        | error fault =>
          simp only [evaluated, accepted, written] at failed
          cases failed
          refine .rendering evaluated accepted ?_ written
          rw [← Value.succeeds_render s.settings.places_style]
          rintro ⟨text, succeeded⟩
          rw [written] at succeeded
          cases succeeded

/-- The lines of a dialogue in front of the first exit word. -/
def asked (lines : List String) : List String :=
  lines.takeWhile fun line => !decide (Text.strip line ∈ s.settings.exitWords)

/-- What is shown for a question: its value or one message about wrong input. -/
def shown (question : String) : String :=
  match (s.answer question).result with
  | .ok answer => answer.text ++ "\n"
  | .error e => "Wrong input: " ++ e.message ++ "\n"

/-- What is shown for a line behind the prompt. Nothing is said about a blank line. -/
def shownFor (line : String) : String :=
  s.settings.prompt ++ if Text.strip line = "" then "" else s.shown (Text.strip line)

/-- A line that breaks a dialogue off. -/
def BreaksOff (line : String) (e : SessionError) : Prop :=
  Text.strip line ≠ "" ∧ s.Breaks (Text.strip line) e

variable (stamp : String)

@[simp] theorem output_append (a b : Transcript) : (a ++ b).output = a.output ++ b.output := rfl

@[simp] theorem output_shown (text : String) : (Transcript.shown text).output = text := rfl

theorem output_join {parts : List Transcript} (silent : ∀ part ∈ parts, part.output = "") :
    (Transcript.join parts).output = "" := by
  have folded : ∀ front : Transcript, front.output = "" →
      (parts.foldl (· ++ ·) front).output = "" := by
    induction parts with
    | nil => exact fun front quiet => quiet
    | cons part rest ih =>
      intro front quiet
      refine ih (fun other member => silent other (List.mem_cons_of_mem _ member)) _ ?_
      rw [output_append, quiet, silent part (List.mem_cons_self ..)]
      rfl
  exact folded .empty rfl

theorem output_record (records : List LogRecord) : (s.record stamp records).output = "" := by
  unfold record
  split
  · refine output_join fun part member => ?_
    obtain ⟨record, _, rfl⟩ := List.mem_map.mp member
    rfl
  · rfl

/-- A line that is no exit word is answered, or breaks the dialogue off with nothing said. -/
theorem reply_cases {line : String} (asked : Text.strip line ∉ s.settings.exitWords) :
    (∀ e, ¬s.BreaksOff line e) ∧ (s.reply stamp line).2 = none ∧
        s.settings.prompt ++ (s.reply stamp line).1.output = s.shownFor line ∨
      ∃ e, s.BreaksOff line e ∧ (s.reply stamp line).2 = some (.broken (.session e)) ∧
        (s.reply stamp line).1.output = "" := by
  unfold reply shownFor BreaksOff
  dsimp only
  rw [if_neg asked]
  by_cases blank : Text.strip line = ""
  · rw [if_pos blank, if_pos blank]
    exact .inl ⟨fun e broken => broken.1 blank, rfl, rfl⟩
  rw [if_neg blank, if_neg blank]
  unfold respond shown
  dsimp only
  cases answered : (s.answer (Text.strip line)).result with
  | ok answer =>
    refine .inl ⟨?_, rfl, ?_⟩
    · rintro e ⟨_, broken⟩
      rw [breaks_iff, answered] at broken
      cases broken.1
    · have notes : (Transcript.join (answer.notes.map fun note =>
          .told ("Warning: " ++ note ++ "\n"))).output = "" := by
        refine output_join fun part member => ?_
        obtain ⟨note, _, rfl⟩ := List.mem_map.mp member
        rfl
      simp [output_record, notes]
  | error e =>
    dsimp only
    cases reported : e.isReported with
    | true =>
      refine .inl ⟨?_, rfl, ?_⟩
      · rintro other ⟨_, broken⟩
        rw [breaks_iff, answered] at broken
        cases broken.1
        rw [reported] at broken
        cases broken.2
      · simp [output_record]
    | false =>
      refine .inr ⟨e, ⟨blank, ?_⟩, rfl, output_record s stamp _⟩
      rw [breaks_iff]
      exact ⟨answered, reported⟩

/-- Every line in front of the first exit word is answered with one result or one message about
wrong input, and the dialogue ends there; or it is broken off at the first line that breaks it.
Limits of the machine are not modelled: neither how deep calls may be nested nor how much memory
there is. -/
theorem converse_cases (lines : List String) :
    (∀ line ∈ s.asked lines, ∀ e, ¬s.BreaksOff line e) ∧ (s.converse stamp lines).2 = .done ∧
        (s.converse stamp lines).1.output = String.join ((s.asked lines).map s.shownFor) ++
          s.settings.prompt ++ (if s.asked lines = lines then "\n" else "") ∨
      ∃ front line back e, s.asked lines = front ++ line :: back ∧
        (∀ other ∈ front, ∀ e, ¬s.BreaksOff other e) ∧ s.BreaksOff line e ∧
          (s.converse stamp lines).2 = .broken (.session e) ∧
            (s.converse stamp lines).1.output =
              String.join (front.map s.shownFor) ++ s.settings.prompt := by
  induction lines with
  | nil =>
    refine .inl ⟨fun line member => absurd member List.not_mem_nil, rfl, ?_⟩
    simp [converse, turns, asked, prompt, farewell]
  | cons line rest ih =>
    by_cases leaving : Text.strip line ∈ s.settings.exitWords
    · have none : s.asked (line :: rest) = [] := by simp [asked, leaving]
      have left : s.reply stamp line = (.empty, some .done) := by
        unfold reply
        dsimp only
        rw [if_pos leaving]
      rw [none]
      refine .inl ⟨fun other member => absurd member List.not_mem_nil, ?_, ?_⟩
      · simp [converse, turns, turn, left]
      · simp [converse, turns, turn, left, prompt, Transcript.empty]
    · have more : s.asked (line :: rest) = line :: s.asked rest := by simp [asked, leaving]
      rw [more]
      rcases s.reply_cases stamp leaving with ⟨whole, goes, said⟩ | ⟨e, broken, ends, said⟩
      · have ending : (s.converse stamp (line :: rest)).2 = (s.converse stamp rest).2 := by
          simp [converse, turns, turn, goes]
        have output : (s.converse stamp (line :: rest)).1.output =
            s.shownFor line ++ (s.converse stamp rest).1.output := by
          simp [converse, turns, turn, goes, ← said, prompt, String.append_assoc]
        rw [ending, output]
        rcases ih with ⟨all, done, transcript⟩ | ⟨front, other, back, e, split, clear, broken, ends,
          transcript⟩
        · refine .inl ⟨?_, done, ?_⟩
          · intro other member
            rcases List.mem_cons.mp member with rfl | behind
            · exact whole
            · exact all other behind
          · simp [transcript, String.join_cons, String.append_assoc]
        · refine .inr ⟨line :: front, other, back, e, by rw [split]; rfl, ?_, broken, ends, ?_⟩
          · intro another member
            rcases List.mem_cons.mp member with rfl | behind
            · exact whole
            · exact clear another behind
          · simp [transcript, String.join_cons, String.append_assoc]
      · refine .inr ⟨[], line, s.asked rest, e, rfl, fun _ member => absurd member List.not_mem_nil,
          broken, ?_, ?_⟩
        · simp [converse, turns, turn, ends]
        · simp [converse, turns, turn, ends, said, prompt]

end Session

end SolidGeometry
