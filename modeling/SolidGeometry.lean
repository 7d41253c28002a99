import SolidGeometry.Main
import SolidGeometry.Proofs.Grammar.Derivation
import SolidGeometry.Proofs.Grammar.Agenda
import SolidGeometry.Proofs.Grammar.Closure
import SolidGeometry.Proofs.Grammar.Provenance
import SolidGeometry.Proofs.Grammar.Arrival
import SolidGeometry.Proofs.Grammar.Completeness
import SolidGeometry.Proofs.Grammar.Exactness
import SolidGeometry.Proofs.Grammar.Canonical
import SolidGeometry.Proofs.Grammar.CanonicalSpelling
import SolidGeometry.Proofs.Grammar.Readings
import SolidGeometry.Proofs.Grammar.PlaneReading
import SolidGeometry.Proofs.Grammar.LiteralReading
import SolidGeometry.Proofs.Grammar.CallReading
import SolidGeometry.Proofs.Grammar.Unambiguous
import SolidGeometry.Proofs.Number.Unpacked
import SolidGeometry.Proofs.Number.Nearest
import SolidGeometry.Proofs.Number.Rounded
import SolidGeometry.Proofs.Number.Quotient
import SolidGeometry.Proofs.Number.Root
import SolidGeometry.Proofs.Number.Signs
import SolidGeometry.Proofs.Number.Undefined
import SolidGeometry.Proofs.Number.Defined
import SolidGeometry.Proofs.Number.Spellings
import SolidGeometry.Proofs.Number.Integers
import SolidGeometry.Proofs.Number.Decimals
import SolidGeometry.Proofs.Number.LiteralValues
import SolidGeometry.Proofs.Number.Displayed
import SolidGeometry.Proofs.Grammar.Balance
import SolidGeometry.Proofs.Grammar.FlatReading
import SolidGeometry.Proofs.Grammar.Bracketing
import SolidGeometry.Proofs.Geometry.Exact
import SolidGeometry.Proofs.Geometry.Conversion
import SolidGeometry.Proofs.Geometry.ExactElements
import SolidGeometry.Proofs.Geometry.Domains
import SolidGeometry.Proofs.Geometry.Measured
import SolidGeometry.Proofs.Geometry.Angles
import SolidGeometry.Proofs.Geometry.Figure
import SolidGeometry.Proofs.Geometry.Depiction
import SolidGeometry.Proofs.Geometry.Contact
import SolidGeometry.Proofs.Geometry.Meeting
import SolidGeometry.Proofs.Geometry.Touching
import SolidGeometry.Proofs.Geometry.Faults
import SolidGeometry.Proofs.Geometry.Reports
import SolidGeometry.Proofs.Geometry.Degeneracies
import SolidGeometry.Proofs.Geometry.Directions
import SolidGeometry.Proofs.Geometry.Skewness
import SolidGeometry.Proofs.Geometry.Crossings
import SolidGeometry.Proofs.Geometry.Projecting
import SolidGeometry.Proofs.Geometry.Representations
import SolidGeometry.Proofs.Geometry.Symmetry
import SolidGeometry.Proofs.Geometry.Seams
import SolidGeometry.Proofs.Geometry.Piercings
import SolidGeometry.Proofs.Geometry.Shadows
import SolidGeometry.Proofs.Geometry.Orientation
import SolidGeometry.Proofs.Geometry.Concurrence
import SolidGeometry.Proofs.Geometry.RelativePosition
import SolidGeometry.Proofs.Grammar.Tokens
import SolidGeometry.Proofs.Grammar.Separation
import SolidGeometry.Proofs.Grammar.Crossing
import SolidGeometry.Proofs.Grammar.Relocation
import SolidGeometry.Proofs.Grammar.Sliding
import SolidGeometry.Proofs.Grammar.Respacing
import SolidGeometry.Proofs.Grammar.Interchange
import SolidGeometry.Proofs.Grammar.Prefixes
import SolidGeometry.Proofs.Grammar.Viability
import SolidGeometry.Proofs.Grammar.FurthestFailure
import SolidGeometry.Proofs.Evaluation.Failures
import SolidGeometry.Proofs.Evaluation.Rendering
import SolidGeometry.Proofs.Geometry.Coincidence
import SolidGeometry.Proofs.Geometry.Orthogonality
import SolidGeometry.Proofs.Geometry.ZeroDivisors
import SolidGeometry.Proofs.Evaluation.ReadingBack
import SolidGeometry.Proofs.Geometry.Propagation
import SolidGeometry.Proofs.Geometry.Unmeasured
import SolidGeometry.Proofs.Geometry.Undefinedness
import SolidGeometry.Proofs.Evaluation.ExactConstructs
import SolidGeometry.Proofs.Evaluation.Exactness
import SolidGeometry.Proofs.Evaluation.Silence
import SolidGeometry.Proofs.Evaluation.Dialogues
import SolidGeometry.Proofs.Evaluation.Outcomes
import SolidGeometry.Proofs.Evaluation.Numerals
import SolidGeometry.Proofs.Evaluation.LiteralOutcomes
import SolidGeometry.Proofs.Evaluation.Rivals
import SolidGeometry.Proofs.Evaluation.Competition
import SolidGeometry.Proofs.Evaluation.Ambiguity
import SolidGeometry.Proofs.Evaluation.Runs
import SolidGeometry.Proofs.Evaluation.Policies
