import SolidGeometry.Proofs.Evaluation.Rivals

/-! Two readings of one call. Both begin with the same name, so their operands stand in the same
places as long as these agree. A plane through points alone may take two or three of them, and then
has no value that the call around it can use. -/
namespace SolidGeometry
open Grammar Grammar.Canonical

variable {row : List Symbol} {text other middle rest first second : List Char}
  {values others : List (Option Value)} {u v : Option Value} {j k : Nat}

def vectorRow (k : Nat) : List Symbol := List.replicate k (.nonterminal .vectorOperand)

theorem opens_vectorRow (leaves : Leaves (vectorRow (k + 1)) text values rest) : Opens text := by
  obtain ⟨front, _, middle, _, operand, _⟩ := leaves.cons_inv
  exact ⟨front, middle, operand⟩

/-- Where one reading is at the closing bracket of a call and another goes on, the other goes on
behind the bracket. -/
theorem Near.reopens (near : Near first second) (closes : Closes first) (opens : Opens second) :
    Reopens first := by
  rcases near with rfl | ⟨c, more, _, front, rfl⟩ | more
  · exact absurd closes.startless opens.solid
  · rcases closes with rfl | ⟨behind, rfl⟩
    · cases front
    · cases front
      obtain ⟨values, rest, leaves⟩ := opens
      exact ⟨more, rfl, values, rest, leaves.of_skip (skip_skip more)⟩
  · exact absurd more.startless opens.solid

/-- Two readings of rows of vectors in a call: their outcomes agree, or neither call has a value, or
one of them takes more vectors. -/
inductive RowRival (j k : Nat) (values others : List (Option Value)) (first second : List Char) :
    Prop where
  | agree (same : values = others) (near : Near first second)
  | failed {u v : Option Value} (left : u ∈ values) (no_left : u.bind Value.vector? = none)
      (right : v ∈ others) (no_right : v.bind Value.vector? = none)
  | uneven (differ : j ≠ k) (off : Reopens first ∨ Reopens second)

theorem RowRival.cons (rival : RowRival j k values others first second) (v : Option Value) :
    RowRival (j + 1) (k + 1) (v :: values) (v :: others) first second := by
  cases rival with
  | agree same near => exact .agree (congrArg _ same) near
  | failed left no_left right no_right =>
    exact .failed (List.mem_cons_of_mem _ left) no_left (List.mem_cons_of_mem _ right) no_right
  | uneven differ off => exact .uneven (fun same => differ (Nat.succ.inj same)) off

theorem vectors_rival (settled : SettledInside text)
    (near : Near text other) (left : Leaves (vectorRow j) text values first)
    (right : Leaves (vectorRow k) other others second)
    (leftSolid : skip text = text) (rightSolid : skip other = other)
    (closed : Closes first) (ended : Closes second) :
    RowRival j k values others first second := by
  induction j generalizing k text other values others with
  | zero =>
    obtain ⟨rfl, rfl⟩ := left.nil_inv
    rw [leftSolid] at closed ⊢
    cases k with
    | zero =>
      obtain ⟨rfl, rfl⟩ := right.nil_inv
      rw [rightSolid]
      exact .agree rfl near
    | succ k => exact .uneven nofun (.inl (near.reopens closed (opens_vectorRow right)))
  | succ j ih =>
    cases k with
    | zero =>
      obtain ⟨rfl, rfl⟩ := right.nil_inv
      rw [rightSolid] at ended ⊢
      exact .uneven nofun (.inr (near.symm.reopens ended (opens_vectorRow left)))
    | succ k =>
      cases near.eq_of_solid (opens_vectorRow left).solid (opens_vectorRow right).solid
      obtain ⟨_, back, middle, rfl, operand, behind⟩ := left.cons_inv
      obtain ⟨_, later, between, rfl, other, beside⟩ := right.cons_inv
      obtain ⟨u, v, rfl, rfl, rival⟩ :=
        operand_rival (k := .vector) (by decide) (by decide) settled operand other
      cases rival with
      | agree same near =>
        subst same
        exact (ih (settled.mono operand.length_le) near behind beside operand.skip_rest
          other.skip_rest).cons u
      | failed left right =>
        subst left right
        exact .failed List.mem_cons_self rfl List.mem_cons_self rfl
      | crooked left right _ =>
        exact .failed List.mem_cons_self left.vector List.mem_cons_self right.vector

/-- The names that calls begin with. -/
theorem exists_spelling {t : Terminal} (head : t ∈ heads) {n : Nat}
    (found : t.match? text = some n) :
    ∃ name ∈ t.spellings, ∃ behind, text = name.toList ++ behind ∧ text.drop n = behind := by
  have spelled := (Token.fits_of_match? found).spelled (pattern_of_head head)
  refine ⟨_, spelled, text.drop n, ?_, rfl⟩
  rw [String.toList_ofList, List.take_append_drop]

/-- The names of one kind of call begin none of another kind, but for one. -/
private theorem begins_name : ∀ s ∈ shapes, ∀ t ∈ shapes, s ≠ .generic → t ≠ .generic →
    s.head ≠ t.head → ∀ name ∈ s.head.spellings, ∀ other ∈ t.head.spellings,
      name.toList <+: other.toList →
        s = .planeFunction ∧ name = "normal" ∧ other = "normalize" := by decide

private theorem startless_normalize {behind later : List Char}
    (front : text = "normal".toList ++ behind) (longer : text = "normalize".toList ++ later) :
    Startless behind := by
  have split : "normalize".toList = "normal".toList ++ ['i', 'z', 'e'] := by decide
  rw [front, split, List.append_assoc] at longer
  rw [List.append_cancel_left longer]
  exact .of_begins rfl (by decide)

/-- One name of a function of vectors begins like one of a function of planes, but no plane stands
behind that; all other names tell the calls apart. -/
theorem head_unique {s t : Shape} (listed : s ∈ shapes) (member : t ∈ shapes)
    (plain : s ≠ .generic) (special : t ≠ .generic) {m n : Nat}
    (left : s.head.match? text = some m) (right : t.head.match? text = some n)
    (differ : s.head ≠ t.head) :
    (s = .planeFunction ∧ Startless (text.drop m)) ∨
      (t = .planeFunction ∧ Startless (text.drop n)) := by
  obtain ⟨name, spelled, behind, front, rest⟩ := exists_spelling (head_mem_heads listed) left
  obtain ⟨other, spelling, later, begins, more⟩ := exists_spelling (head_mem_heads member) right
  rcases List.prefix_or_prefix_of_prefix ⟨behind, front.symm⟩ ⟨later, begins.symm⟩ with
    shorter | longer
  · obtain ⟨plane, rfl, rfl⟩ :=
      begins_name s listed t member plain special differ name spelled other spelling shorter
    exact .inl ⟨plane, rest.symm ▸ startless_normalize front begins⟩
  · obtain ⟨plane, rfl, rfl⟩ :=
      begins_name t member s listed special plain differ.symm other spelling name spelled longer
    exact .inr ⟨plane, more.symm ▸ startless_normalize begins front⟩

theorem Grammar.Canonical.Startless.not_numbered (startless : Startless text) :
    ¬ Numbered text := by
  rintro ⟨n, found⟩
  rw [startless .number (by decide)] at found
  cases found

/-- A plane's equation does not go on with a number, unlike a chain of vectors. -/
theorem not_plane_and_chain {k : Kind} {after behind : List Char}
    (plane : LiteralAt .plane text u after) (trails : Trails .plane after rest)
    (closes : Closes rest) (chain : LiteralAt k text v behind) (longer : k = .line ∨ k = .span) :
    False := by
  have numbered : Numbered after := by
    obtain ⟨_, _, middle, _, base, next⟩ := chain.exists_vectors longer
    obtain ⟨d, offset⟩ := plane.fourth_number base
    cases next with
    | vector fourth adjoined _ _ _ =>
      cases offset.symm.trans fourth
      exact adjoined
  cases trails with
  | plain => exact closes.startless.not_numbered numbered.skip
  | closed linked _ _ => exact linked rfl
  | equated _ behind _ =>
    obtain ⟨n, found⟩ := numbered
    rw [behind, match?_of_not_begins _ rfl] at found
    cases found

/-- Two readings of a plane's equation that a call ends with leave the same. -/
theorem Trails.eq_of_closes {after : List Char} (left : Trails .plane after first)
    (right : Trails .plane after second) (closed : Closes first) (ended : Closes second) :
    first = second := by
  have open_end : ∀ {more : List Char}, skip after = '=' :: more → ¬ Closes (skip after) := by
    rintro more front (empty | ⟨others, bracket⟩)
    · cases front.symm.trans empty
    · cases front.symm.trans bracket
  cases left with
  | plain =>
    cases right with
    | plain => rfl
    | closed linked _ _ => exact absurd rfl linked
    | equated _ front _ => exact absurd closed (open_end front)
  | closed linked _ _ => exact absurd rfl linked
  | equated _ front zero =>
    cases right with
    | plain => exact absurd ended (open_end front)
    | closed linked _ _ => exact absurd rfl linked
    | equated _ same other =>
      cases front.symm.trans same
      cases zero.symm.trans other
      rfl

/-- Two literals that a call for a plane ends with are the same. -/
private theorem plane_literals {k l : Kind} {after behind : List Char}
    (listed : k ∈ [Kind.plane, .span]) (member : l ∈ [Kind.plane, .span])
    (left : LiteralAt k text u after) (right : LiteralAt l text v behind)
    (trails : Trails k after first) (trailing : Trails l behind second)
    (closed : Closes first) (ended : Closes second) : u = v ∧ Near first second := by
  simp only [List.mem_cons, List.not_mem_nil, or_false] at listed member
  rcases listed with rfl | rfl
  · rcases member with rfl | rfl
    · obtain ⟨rfl, rfl⟩ := left.unique right
      exact ⟨rfl, .inl (trails.eq_of_closes trailing closed ended)⟩
    · exact (not_plane_and_chain left trails closed right (.inr rfl)).elim
  · rcases member with rfl | rfl
    · exact (not_plane_and_chain right trailing ended left (.inr rfl)).elim
    · obtain ⟨rfl, rfl⟩ := left.unique right
      exact ⟨rfl, trails.near (by decide) trailing⟩

/-- Two readings of an operand that is a plane, where the call ends behind it. -/
theorem plane_rival (settled : SettledInside text)
    (left : Leaves [.nonterminal .planeOperand] text values first)
    (right : Leaves [.nonterminal .planeOperand] text others second)
    (closed : Closes first) (ended : Closes second) :
    ∃ u v, values = [u] ∧ others = [v] ∧ (u = v ∧ Near first second ∨ u = none ∧ v = none) := by
  rcases operand_inv [.plane, .span] (by decide) left with
    ⟨k, listed, u, after, rfl, front, literal, trails⟩ | nested
  · rcases operand_inv [.plane, .span] (by decide) right with
      ⟨l, member, v, behind, rfl, _, other, trailing⟩ | nested
    · exact ⟨u, v, rfl, rfl,
        .inl (plane_literals listed member literal other trails trailing closed ended)⟩
    · exact absurd front nested.nested_not_fronted
  · rcases operand_inv [.plane, .span] (by decide) right with ⟨_, _, _, _, _, front, _⟩ | other
    · exact absurd front nested.nested_not_fronted
    · obtain ⟨u, v, rfl, rfl, rival⟩ := nested_rival settled nested other
      cases rival with
      | agree same near => exact ⟨u, v, rfl, rfl, .inl ⟨same, near⟩⟩
      | failed left right => exact ⟨u, v, rfl, rfl, .inr ⟨left, right⟩⟩
      | crooked _ _ off =>
        rcases off with opens | opens
        · exact absurd closed.startless opens.solid
        · exact absurd ended.startless opens.solid

/-- Numbers are read in one way. -/
theorem numbers_unique (left : Leaves (List.replicate k (.nonterminal .number)) text values first)
    (right : Leaves (List.replicate k (.nonterminal .number)) text others second) :
    values = others ∧ first = second := by
  induction k generalizing text values others with
  | zero =>
    obtain ⟨rfl, rfl⟩ := left.nil_inv
    obtain ⟨rfl, rfl⟩ := right.nil_inv
    exact ⟨rfl, rfl⟩
  | succ k ih =>
    obtain ⟨v, after, back, rfl, _, value, behind⟩ := left.number_inv
    obtain ⟨w, middle, more, rfl, _, number, beside⟩ := right.number_inv
    cases value.symm.trans number
    obtain ⟨rfl, rfl⟩ := ih behind beside
    exact ⟨rfl, rfl⟩

theorem number_solid (leaves : Leaves (.nonterminal .number :: row) text values rest) :
    ¬ Startless text :=
  leaves.not_startless rfl (by decide)

theorem pointOnLine_rival (settled : SettledInside text)
    (left : Leaves [.nonterminal .lineOperand, .nonterminal .number] text values first)
    (right : Leaves [.nonterminal .lineOperand, .nonterminal .number] text others second) :
    Rival Reopens (Construct.pointOnLine.outcome values) (Construct.pointOnLine.outcome others)
      first second := by
  obtain ⟨_, _, middle, rfl, operand, parameter⟩ := left.cons_inv
  obtain ⟨_, _, between, rfl, other, another⟩ := right.cons_inv
  obtain ⟨u, v, rfl, rfl, rival⟩ :=
    operand_rival (k := .line) (by decide) (by decide) settled operand other
  cases rival with
  | agree same near =>
    cases near.eq_of_solid (number_solid parameter) (number_solid another)
    obtain ⟨rfl, rfl⟩ := numbers_unique (k := 1) parameter another
    exact .agree (by rw [same]) (.inl rfl)
  | failed left right =>
    exact .failed (outcome_pointOnLine (left ▸ rfl)) (outcome_pointOnLine (right ▸ rfl))
  | crooked left right _ =>
    exact .failed (outcome_pointOnLine left.line) (outcome_pointOnLine right.line)

/-- Two numbers that end a call are no vector. -/
theorem not_opens_numbers
    (leaves : Leaves [.nonterminal .number, .nonterminal .number] text values rest)
    (closes : Closes rest) : ¬ Opens text := by
  obtain ⟨a, first, _, rfl, front, x, inner⟩ := leaves.number_inv
  obtain ⟨b, second, _, rfl, _, y, inner⟩ := inner.number_inv
  obtain ⟨rfl, rfl⟩ := inner.nil_inv
  rintro ⟨values, rest, operand⟩
  rcases operand_inv [.vector] (by decide) operand with
    ⟨_, listed, v, after, _, _, literal, _⟩ | nested
  · cases List.mem_singleton.mp listed
    cases literal with
    | vector x' _ y' joined _ =>
      cases x.symm.trans x'
      cases y.symm.trans y'
      exact closes.startless.not_numbered joined.skip
  · exact nested.nested_not_fronted (.inl front)

theorem pointOnPlane_rival (settled : SettledInside text)
    (left : Leaves [.nonterminal .spanOperand, .nonterminal .number, .nonterminal .number] text
      values first)
    (right : Leaves [.nonterminal .spanOperand, .nonterminal .number, .nonterminal .number] text
      others second)
    (closed : Closes first) (ended : Closes second) :
    Rival Reopens (Construct.pointOnPlane.outcome values) (Construct.pointOnPlane.outcome others)
      first second := by
  obtain ⟨_, _, middle, rfl, operand, numbers⟩ := left.cons_inv
  obtain ⟨_, _, between, rfl, other, parameters⟩ := right.cons_inv
  obtain ⟨u, v, rfl, rfl, rival⟩ :=
    operand_rival (k := .span) (by decide) (by decide) settled operand other
  cases rival with
  | agree same near =>
    cases near.eq_of_solid (number_solid numbers) (number_solid parameters)
    obtain ⟨rfl, rfl⟩ := numbers_unique (k := 2) numbers parameters
    exact .agree (by rw [same]) (.inl rfl)
  | failed left right =>
    exact .failed (Construct.pointOnPlane.outcome_none (left ▸ List.mem_cons_self))
      (Construct.pointOnPlane.outcome_none (right ▸ List.mem_cons_self))
  | crooked _ _ off =>
    rcases off with opens | opens
    · exact absurd opens (not_opens_numbers numbers closed)
    · exact absurd opens (not_opens_numbers parameters ended)

/-- The constructs of calls whose operands are vectors. -/
theorem takesVectors {s : Shape} (listed : s ∈ shapes) (plain : s ≠ .generic)
    (vectors : s.operands = List.replicate s.operands.length .vectorOperand) (name : List Char) :
    s.construct.TakesVectors (s.head.leaves name) := by
  simp only [shapes, List.mem_cons, List.not_mem_nil, or_false] at listed
  rcases listed with rfl | rfl | rfl | rfl | rfl | rfl | rfl | rfl | rfl
  · exact .function _
  · exact .function _
  · exact absurd vectors (by decide)
  · exact absurd vectors (by decide)
  · exact absurd vectors (by decide)
  · exact .line
  · exact .plane
  · exact .plane
  · exact absurd rfl plain

/-- Two calls with the same kind of name are of one shape, or both take vectors alone. -/
theorem shape_cases : ∀ s ∈ shapes, ∀ t ∈ shapes, s.head = t.head → s ≠ .generic →
    (s = t ∧ s ∈ [.pointOnLine, .planeFunction, .pointOnPlane]) ∨
      (s.operands = List.replicate s.operands.length .vectorOperand ∧
        t.operands = List.replicate t.operands.length .vectorOperand ∧
        s.construct = t.construct ∧
        (s.operands.length = t.operands.length ∨ s.construct = .planeThroughPoints)) := by decide

theorem RowRival.rival {c : Construct} {kept : List (Option Value)} (takes : c.TakesVectors kept)
    (even : j = k ∨ c = .planeThroughPoints) (rival : RowRival j k values others first second) :
    Rival Reopens (c.outcome (kept ++ values)) (c.outcome (kept ++ others)) first second := by
  cases rival with
  | agree same near => exact .agree (by rw [same]) near
  | failed left no_left right no_right =>
    exact .failed (takes.outcome_none left no_left) (takes.outcome_none right no_right)
  | uneven differ off =>
    obtain rfl := even.resolve_left differ
    exact .crooked (crooked_planeThroughPoints _) (crooked_planeThroughPoints _) off

private theorem length_operands (text : List Char) (n : Nat) :
    (skip ((skip text).drop n)).length ≤ text.length :=
  calc (skip ((skip text).drop n)).length
    _ ≤ ((skip text).drop n).length := length_skip _
    _ ≤ (skip text).length := (List.drop_sublist n _).length_le
    _ ≤ text.length := length_skip text

/-- Two readings of a call are rivals, if those of all calls nested in it are. -/
theorem settled_of_nested (settled : SettledInside text) :
    Settled text := by
  intro values others first second left right closed ended
  obtain ⟨s, listed, plain, m, parts, found, rfl, operands⟩ := left.call_inv
  obtain ⟨t, member, special, n, pieces, taken, rfl, others⟩ := right.call_inv
  refine ⟨_, _, rfl, rfl, ?_⟩
  by_cases same : s.head = t.head
  · rw [same] at found
    cases found.symm.trans taken
    have settled := settled.mono (length_operands text m)
    have operands := operands.of_skip (skip_skip _).symm
    have others := others.of_skip (skip_skip _).symm
    rcases shape_cases s listed t member same plain with
      ⟨rfl, alone⟩ | ⟨row, other, construct, even⟩
    · simp only [List.mem_cons, List.not_mem_nil, or_false] at alone
      rcases alone with rfl | rfl | rfl
      · exact pointOnLine_rival settled operands others
      · obtain ⟨u, v, rfl, rfl, ⟨rfl, near⟩ | ⟨rfl, rfl⟩⟩ :=
          plane_rival settled operands others closed ended
        · exact .agree rfl near
        · exact .failed (Construct.outcome_none _ (List.mem_append_right _ List.mem_cons_self))
            (Construct.outcome_none _ (List.mem_append_right _ List.mem_cons_self))
      · exact pointOnPlane_rival settled operands others closed ended
    · rw [row, List.map_replicate] at operands
      rw [other, List.map_replicate] at others
      have rival := vectors_rival settled (.inl rfl) operands others (skip_skip _) (skip_skip _)
        closed ended
      rw [← construct, ← same]
      exact rival.rival (takesVectors listed plain row _) even
  · rcases head_unique listed member plain special found taken same with
      ⟨rfl, startless⟩ | ⟨rfl, startless⟩
    · exact absurd startless (operands.not_startless rfl (by decide))
    · exact absurd startless (others.not_startless rfl (by decide))

/-- Two readings of a call whose bracket closes behind it, or that ends the text, are rivals. -/
theorem settled (text : List Char) : Settled text := by
  induction size : text.length using Nat.strong_induction_on generalizing text with
  | h size ih =>
    subst size
    exact settled_of_nested fun inside shorter => ih _ shorter inside rfl

end SolidGeometry
