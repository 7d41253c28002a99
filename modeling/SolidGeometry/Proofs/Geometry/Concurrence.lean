import SolidGeometry.Proofs.Geometry.Measured
import SolidGeometry.Proofs.Geometry.Reports

/-! Measurements of exact numbers and vectors depend on their values alone. An integer and a whole
fraction of the same value lead to the same result, with the same warnings, and to a fault in the
same cases. Only what is beyond the range of a double is named after the kind of the number. -/
namespace SolidGeometry
open Number

/-- Two results are the same, or both are arithmetic faults. -/
inductive Checked.Concur {α : Type} : Checked α → Checked α → Prop
  | same (r : Checked α) : Concur r r
  | faults (c d : ArithmeticFault) : Concur (.error (.arithmetic c)) (.error (.arithmetic d))

/-- Two computations leave the same warnings and have the same result, or both end in an arithmetic
fault. -/
structure Noted.Concur {α : Type} (m n : Computation α) : Prop where
  warnings : m.warnings = n.warnings
  result : Checked.Concur m.result n.result

section

variable {α β : Type} {r s : Checked α} {f g : α → Checked β}

theorem Checked.Concur.bind (first : Concur r s) (rest : ∀ a, Concur (f a) (g a)) :
    Concur (r >>= f) (s >>= g) := by
  cases first with
  | faults c d => exact .faults c d
  | same =>
    cases r with
    | ok a => exact rest a
    | error e => exact .same _

end

namespace Noted.Concur

variable {α β : Type} {m n k : Computation α} {f g : α → Computation β}

protected theorem refl (m : Computation α) : m.Concur m := ⟨rfl, .same _⟩

theorem lift {r s : Checked α} (concur : Checked.Concur r s) :
    (liftM r : Computation α).Concur (liftM s) :=
  ⟨rfl, concur⟩

theorem bind (first : m.Concur n) (rest : ∀ a, (f a).Concur (g a)) :
    (m >>= f).Concur (n >>= g) := by
  obtain ⟨events, result⟩ := m
  obtain ⟨others, ending⟩ := n
  obtain ⟨warnings, concur⟩ := first
  cases concur with
  | faults c d => exact ⟨warnings, .faults c d⟩
  | same =>
    cases result with
    | error e => exact ⟨warnings, .same _⟩
    | ok a =>
      refine ⟨?_, (rest a).result⟩
      rw [warnings_bind (m := ⟨events, .ok a⟩) rfl, warnings_bind (m := ⟨others, .ok a⟩) rfl,
        warnings, (rest a).warnings]

theorem of_alike {m' n' : Computation α} (concur : m'.Concur n') (here : m.Alike m')
    (there : n.Alike n') : m.Concur n := by
  constructor
  · rw [here.warnings, there.warnings, concur.warnings]
  · rw [here.result, there.result]
    exact concur.result

end Noted.Concur

namespace Scalar

variable {a b : Scalar} {q : Rat}

theorem toFloat_concur (first : a.rational? = some q) (second : b.rational? = some q) :
    Checked.Concur a.toFloat b.toFloat := by
  have faulty (c : Scalar) (value : c.rational? = some q) (none : nearest? q = none) :
      ∃ d, c.toFloat = .error (.arithmetic d) := by
    cases c <;> cases value <;> exact ⟨_, by rw [toFloat, none]; rfl⟩
  cases found : nearest? q with
  | some x =>
    rw [(toFloat_eq_ok first).mpr found, (toFloat_eq_ok second).mpr found]
    exact .same _
  | none =>
    obtain ⟨c, fails⟩ := faulty a first found
    obtain ⟨d, breaks⟩ := faulty b second found
    rw [fails, breaks]
    exact .faults c d

theorem sqrt_concur (first : a.rational? = some q) (second : b.rational? = some q) :
    Checked.Concur a.sqrt b.sqrt :=
  (toFloat_concur first second).bind fun _ => .same _

theorem floatQuotient_concur (first : a.rational? = some q) (second : b.rational? = some q)
    (c : Scalar) : Checked.Concur (a.floatQuotient c) (b.floatQuotient c) :=
  (toFloat_concur first second).bind fun _ => .same _

/-- Exact numbers of one value are written alike. -/
theorem text_eq (first : a.rational? = some q) (second : b.rational? = some q) :
    a.text = b.text := by
  have written (c : Scalar) (value : c.rational? = some q) : c.text = (ratio q).text := by
    cases c with
    | int n =>
      cases value
      rw [text, text, if_pos (Rat.den_intCast n), Rat.num_intCast]
    | ratio r =>
      cases value
      rfl
    | float x => cases value
    | undefined => cases value
  rw [written a first, written b second]

theorem divide_concur (first : a.rational? = some q) (second : b.rational? = some q) (y : Float) :
    (a.divide (.float y)).Concur (b.divide (.float y)) := by
  have inexact (c : Scalar) (proper : ¬(Scalar.float y).isZero = true) :
      c.divide (.float y) = do return .float (← c.floatQuotient (.float y)) := by
    rw [divide, if_neg proper]
    cases c <;> rfl
  by_cases zero : (Scalar.float y).isZero = true
  · rw [divide, divide, if_pos zero, if_pos zero, text_eq first second]
    exact .refl _
  · rw [inexact a zero, inexact b zero]
    exact (Noted.Concur.lift (floatQuotient_concur first second _)).bind fun _ => .refl _

end Scalar

namespace Vector

variable {u v w z : Vector} {p q r s : Point}

/-- The length depends on the square of the vector. -/
theorem length_concur (first : u.value? = some p) (second : v.value? = some q)
    (squares : p.dot p = q.dot q) : Checked.Concur u.length v.length := by
  obtain ⟨a, square, a_value⟩ := dot_exact first first
  obtain ⟨b, other, b_value⟩ := dot_exact second second
  rw [length, length, square, other]
  exact Scalar.sqrt_concur a_value (squares ▸ b_value)

/-- The area depends on the cross product. -/
theorem area_concur (first : u.value? = some p) (second : v.value? = some q)
    (third : w.value? = some r) (fourth : z.value? = some s) (products : p.cross q = r.cross s) :
    Checked.Concur (u.area v) (w.area z) := by
  obtain ⟨n, crossed, n_value⟩ := cross_exact first second
  obtain ⟨k, others, k_value⟩ := cross_exact third fourth
  rw [area, area, crossed, others]
  exact length_concur n_value k_value (by rw [products])

/-- The angle depends on the values of the vectors. -/
theorem angle_concur (first : u.value? = some p) (second : v.value? = some q)
    (third : w.value? = some p) (fourth : z.value? = some q) :
    Checked.Concur (u.angle v) (w.angle z) := by
  obtain ⟨d, product, d_value⟩ := dot_exact first second
  obtain ⟨l, left, l_value⟩ := dot_exact first first
  obtain ⟨r, right, r_value⟩ := dot_exact second second
  obtain ⟨s, squares, s_value⟩ := Scalar.mul_exact l_value r_value
  obtain ⟨e, square, e_value⟩ := Scalar.mul_exact d_value d_value
  obtain ⟨d', product', d'_value⟩ := dot_exact third fourth
  obtain ⟨l', left', l'_value⟩ := dot_exact third third
  obtain ⟨r', right', r'_value⟩ := dot_exact fourth fourth
  obtain ⟨s', squares', s'_value⟩ := Scalar.mul_exact l'_value r'_value
  obtain ⟨e', square', e'_value⟩ := Scalar.mul_exact d'_value d'_value
  have zero : (0 : Scalar).rational? = some 0 := rfl
  unfold angle
  simp only [product, left, right, squares, square, product', left', right', squares', square',
    bind, Except.bind, Scalar.isZero_of_exact s_value, Scalar.isZero_of_exact s'_value,
    Scalar.isZero_of_exact d_value, Scalar.isZero_of_exact d'_value,
    Scalar.eqv_of_exact e_value s_value, Scalar.eqv_of_exact e'_value s'_value,
    Scalar.less_of_exact zero d_value, Scalar.less_of_exact zero d'_value, decide_eq_true_iff]
  split
  · exact .same _
  split
  · exact .same _
  split
  · exact .same _
  refine .bind (Scalar.sqrt_concur s_value s'_value) fun root => ?_
  exact .bind (Scalar.floatQuotient_concur d_value d'_value _) fun _ => .same _

end Vector

end SolidGeometry
