import SolidGeometry.Operation.Methods
import SolidGeometry.Proofs.Geometry.Domains
import SolidGeometry.Proofs.Geometry.Exact

namespace SolidGeometry

/-- Two computations end alike and leave the same warnings. Their log records may differ. -/
structure Noted.Alike {ε α : Type} (m n : Noted ε α) : Prop where
  result : m.result = n.result
  warnings : m.warnings = n.warnings

namespace Noted

variable {ε α β : Type} {m n k : Noted ε α}

theorem result_bind_of_ok {a : α} (f : α → Noted ε β) (done : m.result = .ok a) :
    (m >>= f).result = (f a).result := by
  rw [bind_ok f done]

theorem Alike.symm (alike : m.Alike n) : n.Alike m := ⟨alike.result.symm, alike.warnings.symm⟩

theorem Alike.trans (first : m.Alike n) (second : n.Alike k) : m.Alike k :=
  ⟨first.result.trans second.result, first.warnings.trans second.warnings⟩

theorem Alike.quiet {a : α} (alike : m.Alike n) (quiet : n.Quiet a) : m.Quiet a :=
  ⟨alike.result.trans quiet.result, alike.warnings.trans quiet.warnings⟩

/-- What is done quietly makes no difference to what comes after it. -/
theorem Quiet.alike_bind {a : α} {f : α → Noted ε β} (quiet : m.Quiet a) :
    (m >>= f).Alike (f a) := by
  refine ⟨result_bind_of_ok f quiet.result, ?_⟩
  rw [warnings_bind quiet.result, quiet.warnings, List.nil_append]

end Noted

/-- An operation on two elements has a value and leaves no warning. -/
def Operation.Answers (o : Operation) (a b : Element) (value : Value) : Prop :=
  (operate o.label a b).Quiet value

/-- An operation on two elements has a value and warns of nothing but operands without a direction. -/
structure Operation.Returns (o : Operation) (a b : Element) (value : Value) : Prop where
  result : (operate o.label a b).result = .ok value
  reported : ∀ w ∈ (operate o.label a b).warnings, w.code = .operand

theorem Element.code_of_degeneracy {e : Element} {w : Warning} (reported : e.degeneracy? = some w) :
    w.code = .operand := by
  unfold degeneracy? at reported
  split at reported
  · split at reported <;> cases reported
    rfl
  · split at reported <;> cases reported
    rfl
  · cases reported

theorem Element.result_check (e : Element) : e.check.result = .ok () := by
  unfold check
  cases e.degeneracy? <;> rfl

theorem Element.warnings_check (e : Element) : e.check.warnings = e.degeneracy?.toList := by
  unfold check
  cases e.degeneracy? <;> rfl

section

variable {o : Operation} {a b f g : Element} {m : Computation Value} {value : Value}

theorem method?_label (o : Operation) (a b : Element) : method? o.label a b = o.method? a b := by
  simp [method?, Operation.ofLabel?_label]

/-- A method ends as it would by itself, behind the reports on its operands. -/
theorem runMethod_of_method (supported : o.method? a b = some m) :
    (runMethod o.label a b).result = m.result ∧
      (runMethod o.label a b).warnings =
        a.degeneracy?.toList ++ (b.degeneracy?.toList ++ m.warnings) := by
  have logged : Noted.Quiet (Noted.log .methods
      s!"Dispatching {o.label} on ({a.kind.label}, {b.kind.label})" : Computation Unit) () :=
    .log _ _
  have run : (runMethod o.label a b).Alike (a.check >>= fun _ => b.check >>= fun _ => m) := by
    rw [runMethod, method?_label, supported]
    exact logged.alike_bind
  rw [run.result, run.warnings, Noted.result_bind_of_ok _ a.result_check,
    Noted.result_bind_of_ok _ b.result_check, Noted.warnings_bind a.result_check,
    Noted.warnings_bind b.result_check, a.warnings_check, b.warnings_check]
  exact ⟨rfl, rfl⟩

theorem runMethod_eq_ok : (runMethod o.label a b).result = .ok value ↔
    ∃ m, o.method? a b = some m ∧ m.result = .ok value := by
  cases supported : o.method? a b with
  | none => simp [runMethod, method?_label, supported, Noted.fail]
  | some m =>
    rw [(runMethod_of_method supported).1]
    simp

/-- An operation runs its method on the equations of its operands in the order of their kinds. -/
theorem operate_alike (name : String) (first : a.toEquation = .ok f)
    (second : b.toEquation = .ok g) :
    (operate name a b).Alike
      (runMethod name (Operands.inOrder f g).first (Operands.inOrder f g).second) := by
  have brought : Operands.ofElements a b = .ok (Operands.inOrder f g) := by
    simp only [Operands.ofElements, first, second, bind, Except.bind, pure, Except.pure]
  unfold operate
  rw [brought]
  simp only [Noted.lift_ok, Noted.done_bind]
  split
  · exact (Noted.Quiet.log _ _).alike_bind
  · exact ⟨rfl, rfl⟩

/-- What an operation gives for elements that are brought to their equations and into order. -/
theorem operate_eq_ok (first : a.toEquation = .ok f) (second : b.toEquation = .ok g) :
    (operate o.label a b).result = .ok value ↔
      ∃ m, o.method? (Operands.inOrder f g).first (Operands.inOrder f g).second = some m ∧
        m.result = .ok value := by
  rw [(operate_alike _ first second).result, runMethod_eq_ok]

/-- A method that an operation finds ends as it would by itself, behind the reports on what it is
found for. -/
theorem operate_of_method (first : a.toEquation = .ok f) (second : b.toEquation = .ok g)
    (supported : o.method? (Operands.inOrder f g).first (Operands.inOrder f g).second = some m) :
    (operate o.label a b).result = m.result ∧
      (operate o.label a b).warnings = (Operands.inOrder f g).first.degeneracy?.toList ++
        ((Operands.inOrder f g).second.degeneracy?.toList ++ m.warnings) := by
  have alike := operate_alike o.label first second
  rw [alike.result, alike.warnings]
  exact runMethod_of_method supported

/-- A method without a warning is reported on for its operands only. -/
theorem Operation.returns_of_method (first : a.toEquation = .ok f) (second : b.toEquation = .ok g)
    (supported : o.method? (Operands.inOrder f g).first (Operands.inOrder f g).second = some m)
    (quiet : m.Quiet value) : o.Returns a b value := by
  obtain ⟨result, warnings⟩ := operate_of_method first second supported
  refine ⟨result.trans quiet.result, fun w listed => ?_⟩
  rw [warnings, quiet.warnings, List.append_nil, List.mem_append, Option.mem_toList,
    Option.mem_toList] at listed
  rcases listed with reported | reported
  · exact Element.code_of_degeneracy reported
  · exact Element.code_of_degeneracy reported

theorem Operands.inOrder_cases (f g : Element) :
    (inOrder f g).first = f ∧ (inOrder f g).second = g ∨
      (inOrder f g).first = g ∧ (inOrder f g).second = f := by
  unfold inOrder
  split
  · exact .inr ⟨rfl, rfl⟩
  · exact .inl ⟨rfl, rfl⟩

/-- A method without a warning answers for operands that have the directions they need. -/
theorem Operation.answers_of_method (first : a.toEquation = .ok f) (second : b.toEquation = .ok g)
    (f_proper : f.degeneracy? = none) (g_proper : g.degeneracy? = none)
    (supported : o.method? (Operands.inOrder f g).first (Operands.inOrder f g).second = some m)
    (quiet : m.Quiet value) : o.Answers a b value := by
  obtain ⟨result, warnings⟩ := operate_of_method first second supported
  refine ⟨result.trans quiet.result, ?_⟩
  rw [warnings, quiet.warnings]
  rcases Operands.inOrder_cases f g with ⟨here, there⟩ | ⟨here, there⟩
  · rw [here, there, f_proper, g_proper]
    rfl
  · rw [here, there, f_proper, g_proper]
    rfl

/-- Elements of different kinds are brought into one order. -/
theorem Operands.inOrder_comm (differ : f.kind ≠ g.kind) :
    (inOrder f g).first = (inOrder g f).first ∧ (inOrder f g).second = (inOrder g f).second := by
  have ranks : f.kind.rank ≠ g.kind.rank := by
    revert differ
    cases f.kind <;> cases g.kind <;> decide
  unfold inOrder
  rcases lt_or_gt_of_ne ranks with before | behind
  · rw [if_neg before.le.not_gt, if_pos before]
    exact ⟨rfl, rfl⟩
  · rw [if_pos behind, if_neg behind.le.not_gt]
    exact ⟨rfl, rfl⟩

/-- Elements of one kind keep the order in which they are given. -/
theorem Operands.inOrder_same (same : f.kind = g.kind) :
    (inOrder f g).first = f ∧ (inOrder f g).second = g := by
  rw [inOrder, if_neg (by simp [same])]
  exact ⟨rfl, rfl⟩

end

end SolidGeometry
