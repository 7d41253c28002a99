import SolidGeometry.Operation.Intersection
import SolidGeometry.Proofs.Number.Signs

namespace SolidGeometry
open Number

section

variable {ε α β : Type} {c : Scalar}

theorem Noted.result_bind {m : Noted ε α} {f : α → Noted ε β} {b : β} :
    (m >>= f).result = .ok b ↔ ∃ a, m.result = .ok a ∧ (f a).result = .ok b := by
  cases done : m.result with
  | ok a => simp [Noted.bind_ok f done]
  | error e => simp [Noted.bind_error f done]

theorem Noted.warnings_bind {m : Noted ε α} {f : α → Noted ε β} {a : α} (done : m.result = .ok a) :
    (m >>= f).warnings = m.warnings ++ (f a).warnings := by
  rw [Noted.bind_ok f done]
  exact List.filterMap_append

@[simp] theorem Noted.result_lift (r : Except ε α) : (liftM r : Noted ε α).result = r := rfl

theorem Checked.bind_eq_ok {m : Checked α} {f : α → Checked β} {b : β} :
    m >>= f = .ok b ↔ ∃ a, m = .ok a ∧ f a = .ok b := by
  cases m with
  | ok a => simp [bind, Except.bind]
  | error e => simp [bind, Except.bind]

theorem Checked.add_eq_ok {m n : Checked Scalar} :
    m + n = .ok c ↔ ∃ a, m = .ok a ∧ ∃ b, n = .ok b ∧ a.add b = .ok c := by
  change (m >>= fun a => n >>= fun b => a.add b) = .ok c ↔ _
  simp only [bind_eq_ok]

/-- A computation with a result and without a warning. -/
structure Noted.Quiet (m : Noted ε α) (a : α) : Prop where
  result : m.result = .ok a
  warnings : m.warnings = []

namespace Noted.Quiet

theorem pure (a : α) : (pure a : Noted ε α).Quiet a := ⟨rfl, rfl⟩

theorem log (source : LogSource) (message : String) :
    (Noted.log source message : Noted ε Unit).Quiet () := ⟨rfl, rfl⟩

theorem bind {m : Noted ε α} {a : α} {f : α → Noted ε β} {b : β} (first : m.Quiet a)
    (next : (f a).Quiet b) : (m >>= f).Quiet b := by
  refine ⟨Noted.result_bind.mpr ⟨a, first.result, next.result⟩, ?_⟩
  rw [Noted.warnings_bind first.result, first.warnings, next.warnings]
  rfl

theorem of_eq {m : Noted ε α} {a : α} (done : m = ⟨[], .ok a⟩) : m.Quiet a := by
  rw [done]
  exact .pure a

/-- What is made of a result without a further step leaves no warning. -/
theorem map {m : Noted ε α} {a : α} (quiet : m.Quiet a) (g : α → β) :
    (m >>= fun a => Pure.pure (g a)).Quiet (g a) :=
  quiet.bind (.pure _)

end Noted.Quiet

end

/-- A number that is not below zero has a square root. -/
theorem Scalar.sqrt_eq {a : Scalar} (proper : a.NotNegative) :
    a.sqrt = a.toFloat >>= fun x => .ok x.sqrt := by
  unfold sqrt
  cases converts : a.toFloat with
  | error e => rfl
  | ok x => exact if_neg (proper.toFloat converts)

theorem Vector.notNegative_dot_self {v : Vector} {d : Scalar} (squared : v.dot v = .ok d) :
    d.NotNegative := by
  obtain ⟨s, sum, z, z_square, last⟩ := Checked.add_eq_ok.mp squared
  obtain ⟨x, x_square, y, y_square, first⟩ := Checked.add_eq_ok.mp sum
  have x_proper := Scalar.notNegative_square x_square
  have y_proper := Scalar.notNegative_square y_square
  have z_proper := Scalar.notNegative_square z_square
  exact (x_proper.add y_proper first).add z_proper last

theorem clampCosine_cases (c : Float) :
    (clampCosine c = -1.0 ∨ clampCosine c = 1.0) ∨ -1.0 < clampCosine c ∧ clampCosine c < 1.0 := by
  unfold clampCosine
  dsimp only
  by_cases upper : c < 1.0
  · rw [if_pos upper]
    by_cases lower : -1.0 < c
    · rw [if_pos lower]
      exact .inr ⟨lower, upper⟩
    · rw [if_neg lower]
      exact .inl (.inl rfl)
  · rw [if_neg upper, if_pos (by decide)]
    exact .inl (.inr rfl)

/-- What is moved into the range of the cosine has an arc cosine. -/
theorem arcCosine_clampCosine (c : Float) :
    arcCosine (clampCosine c) = .ok (clampCosine c).acos := by
  have inside : ¬(clampCosine c < -1.0 ∨ 1.0 < clampCosine c) := by
    rcases clampCosine_cases c with (least | greatest) | ⟨lower, upper⟩
    · rw [least]
      decide
    · rw [greatest]
      decide
    · exact not_or.mpr ⟨float_lt_asymm lower, float_lt_asymm upper⟩
  exact if_neg inside

/-- A vector that is not zero has a first axis with a component. -/
theorem Vector.exists_pivot {v : Vector} (proper : v.isZero = false) :
    ∃ axis, v.pivot = .ok axis ∧ (v.at axis).isZero = false := by
  unfold pivot
  cases found : Axis.all.find? fun i => !(v.at i).isZero with
  | none =>
    simp only [Axis.all, List.find?_eq_none, List.mem_cons, List.not_mem_nil, or_false,
      forall_eq_or_imp, forall_eq, Bool.not_eq_true, Bool.not_eq_false'] at found
    obtain ⟨x, y, z⟩ := found
    have zero : v.isZero = true := by simp_all [isZero, Vector.at]
    rw [zero] at proper
    cases proper
  | some axis =>
    have some := List.find?_some found
    exact ⟨axis, rfl, by simpa using some⟩

end SolidGeometry
