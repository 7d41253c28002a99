import Mathlib.Algebra.Order.Field.Basic
import Mathlib.Data.Rat.Cast.Order
import Mathlib.Tactic.FieldSimp
import Mathlib.Tactic.LinearCombination
import Mathlib.Tactic.Linarith
import Mathlib.Tactic.Ring

namespace SolidGeometry

/-- The position of an exact point, or an exact vector. -/
@[ext] structure Point where
  x : Rat
  y : Rat
  z : Rat
  deriving DecidableEq

namespace Point

instance : Zero Point := ⟨⟨0, 0, 0⟩⟩

instance : Add Point := ⟨fun p q => ⟨p.x + q.x, p.y + q.y, p.z + q.z⟩⟩

instance : Sub Point := ⟨fun p q => ⟨p.x - q.x, p.y - q.y, p.z - q.z⟩⟩

def scale (p : Point) (factor : Rat) : Point := ⟨p.x * factor, p.y * factor, p.z * factor⟩

def dot (p q : Point) : Rat := p.x * q.x + p.y * q.y + p.z * q.z

def cross (p q : Point) : Point :=
  ⟨p.y * q.z - p.z * q.y, p.z * q.x - p.x * q.z, p.x * q.y - p.y * q.x⟩

@[simp] theorem zero_x : (0 : Point).x = 0 := rfl

@[simp] theorem zero_y : (0 : Point).y = 0 := rfl

@[simp] theorem zero_z : (0 : Point).z = 0 := rfl

@[simp] theorem add_x (p q : Point) : (p + q).x = p.x + q.x := rfl

@[simp] theorem add_y (p q : Point) : (p + q).y = p.y + q.y := rfl

@[simp] theorem add_z (p q : Point) : (p + q).z = p.z + q.z := rfl

@[simp] theorem sub_x (p q : Point) : (p - q).x = p.x - q.x := rfl

@[simp] theorem sub_y (p q : Point) : (p - q).y = p.y - q.y := rfl

@[simp] theorem sub_z (p q : Point) : (p - q).z = p.z - q.z := rfl

theorem dot_add (n p q : Point) : n.dot (p + q) = n.dot p + n.dot q := by
  simp only [dot, add_x, add_y, add_z]
  ring

theorem dot_sub (n p q : Point) : n.dot (p - q) = n.dot p - n.dot q := by
  simp only [dot, sub_x, sub_y, sub_z]
  ring

theorem sub_eq_iff {p q r : Point} : p - q = r ↔ p = q + r := by
  simp only [Point.ext_iff, add_x, add_y, add_z, sub_x, sub_y, sub_z, sub_eq_iff_eq_add']

theorem dot_scale (n p : Point) (factor : Rat) : n.dot (p.scale factor) = n.dot p * factor := by
  simp only [dot, scale]
  ring

theorem scale_dot (n p : Point) (factor : Rat) : (n.scale factor).dot p = n.dot p * factor := by
  simp only [dot, scale]
  ring

theorem dot_comm (p q : Point) : p.dot q = q.dot p := by
  simp only [dot]
  ring

theorem cross_dot_left (p q : Point) : (p.cross q).dot p = 0 := by
  simp only [dot, cross]
  ring

theorem cross_dot_right (p q : Point) : (p.cross q).dot q = 0 := by
  simp only [dot, cross]
  ring

theorem cross_scale (p q : Point) (factor : Rat) :
    p.cross (q.scale factor) = (p.cross q).scale factor := by
  ext <;> simp only [cross, scale] <;> ring

/-- The cross product of two vectors with the first of them, by the rule of Grassmann. -/
theorem cross_cross (p q r : Point) :
    p.cross (q.cross r) = q.scale (p.dot r) - r.scale (p.dot q) := by
  ext <;> simp only [cross, dot, scale, sub_x, sub_y, sub_z] <;> ring

theorem dot_self_eq_zero {p : Point} : p.dot p = 0 ↔ p = 0 := by
  constructor
  · intro vanishes
    have squares : p.x * p.x + p.y * p.y + p.z * p.z = 0 := vanishes
    have x_nonneg := mul_self_nonneg p.x
    have y_nonneg := mul_self_nonneg p.y
    have z_nonneg := mul_self_nonneg p.z
    ext
    · exact mul_self_eq_zero.mp (by linarith)
    · exact mul_self_eq_zero.mp (by linarith)
    · exact mul_self_eq_zero.mp (by linarith)
  · rintro rfl
    simp [dot]

theorem dot_self_ne_zero {p : Point} (nonzero : p ≠ 0) : p.dot p ≠ 0 :=
  fun vanishes => nonzero (dot_self_eq_zero.mp vanishes)

theorem dot_self_nonneg (p : Point) : 0 ≤ p.dot p :=
  add_nonneg (add_nonneg (mul_self_nonneg p.x) (mul_self_nonneg p.y)) (mul_self_nonneg p.z)

theorem dot_self_pos {p : Point} (nonzero : p ≠ 0) : 0 < p.dot p :=
  lt_of_le_of_ne (dot_self_nonneg p) (dot_self_ne_zero nonzero).symm

/-- The combination of two directions. -/
def combine (f g : Point) (s t : Rat) : Point := f.scale s + g.scale t

theorem add_combine (p f g : Point) (s t : Rat) :
    p + combine f g s t = p + f.scale s + g.scale t := by
  ext <;> simp only [combine, scale, add_x, add_y, add_z] <;> ring

variable {f g q : Point} {s t : Rat}

/-- Every vector is a combination of two directions and their cross product. -/
theorem expand (f g q : Point) :
    q.scale ((f.cross g).dot (f.cross g)) =
      combine f g ((q.cross g).dot (f.cross g)) ((f.cross q).dot (f.cross g)) +
        (f.cross g).scale ((f.cross g).dot q) := by
  ext <;> simp only [combine, cross, dot, scale, add_x, add_y, add_z] <;> ring

theorem combine_cross_right (f g : Point) (s t : Rat) :
    (combine f g s t).cross g = (f.cross g).scale s := by
  ext <;> simp only [combine, cross, scale, add_x, add_y, add_z] <;> ring

theorem cross_combine (f g : Point) (s t : Rat) :
    f.cross (combine f g s t) = (f.cross g).scale t := by
  ext <;> simp only [combine, cross, scale, add_x, add_y, add_z] <;> ring

theorem cross_dot_combine (f g : Point) (s t : Rat) : (f.cross g).dot (combine f g s t) = 0 := by
  rw [combine, dot_add, dot_scale, dot_scale, cross_dot_left, cross_dot_right]
  ring

/-- The parameters of a combination can be read off it. -/
theorem parameters_of_combine (independent : f.cross g ≠ 0) (combined : q = combine f g s t) :
    s = (q.cross g).dot (f.cross g) / (f.cross g).dot (f.cross g) ∧
      t = (f.cross q).dot (f.cross g) / (f.cross g).dot (f.cross g) := by
  have positive := dot_self_ne_zero independent
  subst combined
  rw [combine_cross_right, cross_combine, scale_dot, scale_dot]
  constructor
  · field_simp
  · field_simp

theorem combine_of_dot_eq_zero (independent : f.cross g ≠ 0) (flat : (f.cross g).dot q = 0) :
    q = combine f g ((q.cross g).dot (f.cross g) / (f.cross g).dot (f.cross g))
      ((f.cross q).dot (f.cross g) / (f.cross g).dot (f.cross g)) := by
  have positive := dot_self_ne_zero independent
  have expanded := expand f g q
  rw [flat] at expanded
  have coordinates := Point.ext_iff.mp expanded
  simp only [combine, scale, add_x, add_y, add_z, mul_zero, add_zero] at coordinates
  obtain ⟨x, y, z⟩ := coordinates
  ext
  · simp only [combine, scale, add_x]
    field_simp
    linear_combination x
  · simp only [combine, scale, add_y]
    field_simp
    linear_combination y
  · simp only [combine, scale, add_z]
    field_simp
    linear_combination z

/-- Two directions with a cross product span the plane perpendicular to it, every vector in exactly
one way. -/
theorem existsUnique_combine (independent : f.cross g ≠ 0) (flat : (f.cross g).dot q = 0) :
    ∃! parameters : Rat × Rat, q = combine f g parameters.1 parameters.2 := by
  refine ⟨(_, _), combine_of_dot_eq_zero independent flat, ?_⟩
  rintro ⟨s, t⟩ combined
  obtain ⟨first, second⟩ := parameters_of_combine independent combined
  exact Prod.ext first second

end Point

end SolidGeometry
