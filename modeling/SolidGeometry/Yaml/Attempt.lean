import SolidGeometry.Yaml.Failure

/-! Results on the way to which something may fail. Lists and tables are filled level by level: a
failure among the parts of one is met before all failures inside these parts. So the way does not
end at the first failure in the text, and of all failures the one on the outermost level counts; on
one level it is the first. -/
namespace SolidGeometry.Yaml

/-- A result, and the failure that counts with its level, if any. With a failure, the result means
nothing. -/
structure Attempt (α : Type) where
  value : α
  failure? : Option (Nat × Failure)

namespace Attempt

variable {α : Type}

/-- Of two failures the one that counts. -/
def firstFailure (a? b? : Option (Nat × Failure)) : Option (Nat × Failure) :=
  match a?, b? with
  | some a, some b => if b.1 < a.1 then some b else some a
  | some a, none => some a
  | none, b? => b?

instance : Monad Attempt where
  pure value := ⟨value, none⟩
  bind attempt next :=
    let result := next attempt.value
    ⟨result.value, firstFailure attempt.failure? result.failure?⟩

/-- A failure on the present level, with a stand-in for the result. -/
def fail (cause : Failure) (value : α) : Attempt α := ⟨value, some (0, cause)⟩

/-- Passes by if there is no cause to fail. -/
def check (cause? : Option Failure) : Attempt Unit := ⟨(), cause?.map (0, ·)⟩

def ofExcept [Inhabited α] : Except Failure α → Attempt α
  | .ok value => pure value
  | .error cause => fail cause default

/-- Moves a failure one level inwards, unless everything is done at once. -/
def inside (atOnce : Bool) (attempt : Attempt α) : Attempt α :=
  if atOnce then attempt
  else { attempt with failure? := attempt.failure?.map fun failure => (failure.1 + 1, failure.2) }

def toExcept (attempt : Attempt α) : Except Failure α :=
  match attempt.failure? with
  | some failure => .error failure.2
  | none => .ok attempt.value

end Attempt

end SolidGeometry.Yaml
