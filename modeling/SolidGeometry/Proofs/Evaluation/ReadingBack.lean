import SolidGeometry.Proofs.Evaluation.Failures
import SolidGeometry.Proofs.Evaluation.Rendering
import SolidGeometry.Proofs.Grammar.Unambiguous
import SolidGeometry.Proofs.Number.Integers

namespace SolidGeometry
open Grammar Number

theorem Noted.Quiet.mapError {ε δ α : Type} {m : Noted ε α} {a : α} (f : ε → δ)
    (quiet : m.Quiet a) : (m.mapError f).Quiet a := by
  refine ⟨?_, quiet.warnings⟩
  rw [Noted.mapError, quiet.result]
  rfl

theorem Grammar.Tree.quiet_values {trees : List Grammar.Tree} {values : List Value}
    (each : List.Forall₂ (fun tree v => tree.value.Quiet v) trees values) :
    (Grammar.Tree.values trees).Quiet values := by
  induction each with
  | nil => exact .pure []
  | cons first later ih => exact first.bind (ih.bind (.pure _))

theorem Grammar.Tree.quiet_node {c : Construct} {children : List Grammar.Tree}
    {values : List Value} {v : Value}
    (each : List.Forall₂ (fun tree v => tree.value.Quiet v) children values)
    (computed : c.computation? values = some (pure v)) :
    (Grammar.Tree.node c children).value.Quiet v := by
  rw [Grammar.Tree.value]
  refine (quiet_values each).bind ?_
  rw [computed]
  exact .mapError _ (.pure v)

theorem evaluate_quiet {text : String} {tree : Grammar.Tree} {v : Value}
    (found : read text = .ok tree) (quiet : tree.value.Quiet v) : (evaluate text).Quiet v := by
  unfold evaluate
  rw [found]
  exact (Noted.Quiet.log _ _).bind quiet

/-- An integer within the limit on digits. -/
def Scalar.Whole : Scalar → Prop
  | int n => n.natAbs < Nat.pow 10 digitLimit
  | _ => False

theorem Scalar.whole_int {n : Int} : (int n).Whole ↔ n.natAbs < 10 ^ digitLimit := by
  simp only [Whole, Nat.pow_eq]

theorem Scalar.render_whole (style : NumberStyle) {n : Int} (whole : (int n).Whole) :
    (int n).render style = .ok (toString n) := by
  change writeInt n = _
  exact if_pos whole

/-- Behind other terms an integer is its literal with a sign. -/
theorem signedTerm_toString (n : Int) :
    signedTerm (toString n) = String.ofList (Literal.ofInt .plus n).spelling := by
  rw [signedTerm, toString_eq_spelling]
  by_cases negative : n < 0
  · have minus : ∀ plain, (Literal.ofInt plain n).spelling =
        '-' :: (Nat.toDigits 10 n.natAbs ++ []) := by
      intro plain
      rw [Literal.ofInt, Sign.ofInt, if_pos negative]
      rfl
    rw [minus, minus, if_pos]
    simp [String.startsWith_string_iff]
  · have digits : (Literal.ofInt .absent n).spelling = Nat.toDigits 10 n.natAbs ++ [] := by
      rw [Literal.ofInt, Sign.ofInt, if_neg negative]
      rfl
    have plus : (Literal.ofInt .plus n).spelling = '+' :: (Nat.toDigits 10 n.natAbs ++ []) := by
      rw [Literal.ofInt, Sign.ofInt, if_neg negative]
      rfl
    obtain ⟨c, more, shape, digit⟩ := (areDigits_toDigits n.natAbs).exists_cons
    rw [digits, plus, if_neg]
    · exact (String.ofList_append : String.ofList (['+'] ++ _) = _).symm
    · rw [String.startsWith_string_iff, shape]
      rintro ⟨rest, same⟩
      have minus := List.head_eq_of_cons_eq (same.trans String.toList_ofList)
      subst minus
      cases digit

/-- The numeral of an integer, where those that are not negative have a given sign. -/
def Grammar.Numeral.ofInt (plain : Sign) (n : Int) : Numeral :=
  ⟨(Literal.ofInt plain n).spelling, _, Literal.scan?_ofNat _ _⟩

def Grammar.PlainNumeral.ofInt (n : Int) : PlainNumeral where
  toNumeral := Numeral.ofInt .absent n
  plain := by
    obtain ⟨c, more, shape, digit⟩ := (areDigits_toDigits n.natAbs).exists_cons
    have front : (Numeral.ofInt .absent n).text =
        (Sign.absent.ofInt n).spelling ++ Nat.toDigits 10 n.natAbs := Literal.spelling_ofNat _ _
    rw [front, shape]
    unfold Sign.ofInt
    split
    · nofun
    · intro same
      cases same
      cases digit

def Grammar.SignedNumeral.ofInt (n : Int) : SignedNumeral where
  toNumeral := Numeral.ofInt .plus n
  signed := by
    have front : (Numeral.ofInt .plus n).text =
        (Sign.plus.ofInt n).spelling ++ Nat.toDigits 10 n.natAbs := Literal.spelling_ofNat _ _
    rw [front]
    unfold Sign.ofInt
    split
    · exact .inr rfl
    · exact .inl rfl

/-- A number is written as a numeral and evaluates to itself. -/
structure Scalar.WrittenAs (a : Scalar) (w : PlainNumeral) : Prop where
  rendered : ∀ style, a.render style = .ok (String.ofList w.text)
  evaluated : (Canonical.numberTree w.toNumeral).value.Quiet (.number a)

/-- A number is written as a numeral behind other terms and evaluates to itself. -/
structure Scalar.AddedAs (a : Scalar) (w : SignedNumeral) : Prop where
  rendered : ∀ style, ∃ text, a.render style = .ok text ∧ signedTerm text = String.ofList w.text
  evaluated : (Canonical.numberTree w.toNumeral).value.Quiet (.number a)

theorem quiet_numberTree {plain : Sign} (proper : plain ≠ .minus) {n : Int}
    (small : (Scalar.int n).Whole) :
    (Canonical.numberTree (Numeral.ofInt plain n)).value.Quiet (.number (.int n)) := by
  have reads : Literal.ofText? (String.ofList (Numeral.ofInt plain n).text) =
      some (Literal.ofInt plain n) :=
    Literal.ofText?_eq_some.mpr (Literal.scan?_ofNat _ _)
  refine Grammar.Tree.quiet_node (.cons (.pure _) .nil) ?_
  change (Literal.ofText? _).map _ = _
  rw [reads, Option.map_some, Literal.value_ofInt proper small]
  rfl

theorem Scalar.exists_written {a : Scalar} (whole : a.Whole) : ∃ w, a.WrittenAs w := by
  cases a with
  | int n =>
    refine ⟨.ofInt n, fun style => ?_, quiet_numberTree Sign.noConfusion whole⟩
    rw [render_whole style whole, toString_eq_spelling]
    rfl
  | ratio q => cases whole
  | float x => cases whole
  | undefined => cases whole

theorem Scalar.exists_added {a : Scalar} (whole : a.Whole) : ∃ w, a.AddedAs w := by
  cases a with
  | int n =>
    exact ⟨.ofInt n, fun style => ⟨_, render_whole style whole, signedTerm_toString n⟩,
      quiet_numberTree Sign.noConfusion whole⟩
  | ratio q => cases whole
  | float x => cases whole
  | undefined => cases whole

/-- A vector is written as its coordinates in parentheses and evaluates to itself. -/
structure Vector.WrittenAs (v : Vector) (t : Canonical.Triple) : Prop where
  rendered : ∀ style, v.render style = .ok (String.ofList (t.write []))
  evaluated : t.tree.value.Quiet (.ofVector v)

theorem Grammar.Canonical.Triple.write_append (t : Canonical.Triple) (rest : List Char) :
    t.write rest = t.write [] ++ rest := by
  simp [Canonical.Triple.write]

theorem Vector.exists_written {v : Vector} (whole : ∀ n ∈ v.toList, n.Whole) :
    ∃ t, v.WrittenAs t := by
  obtain ⟨x, hx⟩ := Scalar.exists_written (whole v.x (by simp [toList]))
  obtain ⟨y, hy⟩ := Scalar.exists_written (whole v.y (by simp [toList]))
  obtain ⟨z, hz⟩ := Scalar.exists_written (whole v.z (by simp [toList]))
  refine ⟨⟨x, y, z⟩, fun style => ?_, ?_⟩
  · unfold Vector.render
    rw [hx.rendered, hy.rendered, hz.rendered]
    refine congrArg Except.ok (String.toList_inj.mp ?_)
    simp [Canonical.Triple.write]
  · exact Grammar.Tree.quiet_node
      (.cons hx.evaluated (.cons hy.evaluated (.cons hz.evaluated .nil))) rfl

/-- An element is written as a literal and evaluates to itself. -/
structure Element.WrittenAs (e : Element) (l : Canonical.Literal) : Prop where
  rendered : ∀ style, e.render style = .ok (String.ofList (l.write []))
  evaluated : l.tree.value.Quiet (.element e)

theorem Line.exists_written (l : Line) (baseWhole : ∀ n ∈ l.base.toList, n.Whole)
    (directionWhole : ∀ n ∈ l.direction.toList, n.Whole) :
    ∃ literal, (Element.line l).WrittenAs literal := by
  obtain ⟨base, hb⟩ := Vector.exists_written baseWhole
  obtain ⟨direction, hd⟩ := Vector.exists_written directionWhole
  refine ⟨.line base direction, fun style => ?_, ?_⟩
  · change Line.render style l = _
    unfold Line.render
    rw [hb.rendered, hd.rendered]
    refine congrArg Except.ok (String.toList_inj.mp ?_)
    simp [Canonical.Literal.write, Canonical.Triple.writeLinked, base.write_append (_ :: _)]
  · exact Grammar.Tree.quiet_node (.cons hb.evaluated (.cons hd.evaluated .nil)) rfl

theorem Span.exists_written (s : Span) (baseWhole : ∀ n ∈ s.base.toList, n.Whole)
    (firstWhole : ∀ n ∈ s.first.toList, n.Whole) (secondWhole : ∀ n ∈ s.second.toList, n.Whole) :
    ∃ literal, (Element.span s).WrittenAs literal := by
  obtain ⟨base, hb⟩ := Vector.exists_written baseWhole
  obtain ⟨first, hf⟩ := Vector.exists_written firstWhole
  obtain ⟨second, hs⟩ := Vector.exists_written secondWhole
  refine ⟨.span base first second, fun style => ?_, ?_⟩
  · change Span.render style s = _
    unfold Span.render
    rw [hb.rendered, hf.rendered, hs.rendered]
    refine congrArg Except.ok (String.toList_inj.mp ?_)
    simp [Canonical.Literal.write, Canonical.Triple.writeLinked, base.write_append (_ :: _),
      first.write_append (_ :: _)]
  · exact Grammar.Tree.quiet_node
      (.cons hb.evaluated (.cons hf.evaluated (.cons hs.evaluated .nil))) rfl

/-- The first term of an equation is written without a plus, those behind it with one. -/
theorem Plane.exists_written (p : Plane) (normalWhole : ∀ n ∈ p.normal.toList, n.Whole)
    (offsetWhole : p.offset.Whole) : ∃ literal, (Element.plane p).WrittenAs literal := by
  obtain ⟨a, ha⟩ := Scalar.exists_written (normalWhole p.normal.x (by simp [Vector.toList]))
  obtain ⟨b, hb⟩ := Scalar.exists_added (normalWhole p.normal.y (by simp [Vector.toList]))
  obtain ⟨c, hc⟩ := Scalar.exists_added (normalWhole p.normal.z (by simp [Vector.toList]))
  obtain ⟨d, hd⟩ := Scalar.exists_added offsetWhole
  refine ⟨.plane a b c d, fun style => ?_, ?_⟩
  · obtain ⟨bText, bRendered, bSigned⟩ := hb.rendered style
    obtain ⟨cText, cRendered, cSigned⟩ := hc.rendered style
    obtain ⟨dText, dRendered, dSigned⟩ := hd.rendered style
    change Plane.render style p = _
    unfold Plane.render
    rw [ha.rendered, bRendered, cRendered, dRendered]
    refine congrArg Except.ok (String.toList_inj.mp ?_)
    simp [Canonical.Literal.write, bSigned, cSigned, dSigned]
  · exact Grammar.Tree.quiet_node (.cons ha.evaluated (.cons hb.evaluated (.cons hc.evaluated
      (.cons hd.evaluated .nil)))) rfl

theorem Element.exists_written {e : Element} (whole : ∀ n ∈ e.numbers, n.Whole) :
    ∃ literal, e.WrittenAs literal := by
  cases e with
  | vector v =>
    obtain ⟨t, written⟩ := Vector.exists_written whole
    exact ⟨.vector t, written.rendered, written.evaluated⟩
  | line l =>
    simp only [numbers, List.forall_mem_append] at whole
    exact l.exists_written whole.1 whole.2
  | span s =>
    simp only [numbers, List.forall_mem_append] at whole
    exact s.exists_written whole.1.1 whole.1.2 whole.2
  | plane p =>
    simp only [numbers, List.forall_mem_append, List.forall_mem_singleton] at whole
    exact p.exists_written whole.1 whole.2

/-- An element of integers within the limit on digits is shown in one way in all styles, and what is
shown evaluates to the element again without a warning. -/
theorem evaluate_render (e : Element) (whole : ∀ n ∈ e.numbers, n.Whole) :
    ∃ text, (∀ style, (Value.element e).render style = .ok text) ∧
      (evaluate text).Quiet (.element e) := by
  obtain ⟨literal, written⟩ := Element.exists_written whole
  exact ⟨_, written.rendered,
    evaluate_quiet (Canonical.Expression.literal literal).read_text written.evaluated⟩

/-- The plane whose equation has a negative coefficient, a zero and one of all the digits that are
allowed. -/
theorem evaluate_render_plane :
    let e := Element.plane ⟨⟨.int (-2), .int 0, .int (10 ^ 4299)⟩, .int 7⟩
    (∀ n ∈ e.numbers, n.Whole) ∧ ∃ text, (∀ style, (Value.element e).render style = .ok text) ∧
      (evaluate text).Quiet (.element e) := by
  have long : (Scalar.int (10 ^ 4299)).Whole := by
    have ten : Int.natAbs 10 = 10 := rfl
    rw [Scalar.whole_int, Int.natAbs_pow, ten]
    exact Nat.pow_lt_pow_right (a := 10) (m := 4299) (n := digitLimit) (by decide) (by decide)
  have short : ∀ n : Int, n.natAbs < 10 → (Scalar.int n).Whole := by
    intro n small
    have ten : 10 ≤ 10 ^ digitLimit := Nat.le_self_pow (by decide : digitLimit ≠ 0) 10
    exact Scalar.whole_int.mpr (Nat.lt_of_lt_of_le small ten)
  have whole : ∀ n ∈ (Element.plane ⟨⟨.int (-2), .int 0, .int (10 ^ 4299)⟩, .int 7⟩).numbers,
      n.Whole := by
    simp only [Element.numbers, Vector.toList, List.cons_append, List.nil_append,
      List.forall_mem_cons]
    exact ⟨short _ (by decide), short _ (by decide), long, short _ (by decide),
      List.forall_mem_nil _⟩
  exact ⟨whole, evaluate_render _ whole⟩

end SolidGeometry
