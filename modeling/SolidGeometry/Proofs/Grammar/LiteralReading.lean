import SolidGeometry.Proofs.Grammar.FlatReading

namespace SolidGeometry.Grammar.Canonical

variable {row : List Symbol} {text rest out : List Char}

/-- A derivation cuts its tokens off a text, and all its vectors have their brackets. -/
structure Takes (d : Derivation row) (text out : List Char) : Prop where
  cut : Cut text d.tokens out
  whole : unclosed d = 0

namespace Takes

variable {d : Derivation row}

theorem of_skip {other : List Char} (same : skip text = skip other) (takes : Takes d text out) :
    Takes d other out :=
  ⟨takes.cut.of_skip same, takes.whole⟩

theorem past_blank (takes : Takes d (' ' :: text) out) : Takes d text out :=
  ⟨takes.cut.past_blank, takes.whole⟩

theorem split {n : Nonterminal} {r : Rule} {member : r ∈ n.rules} {parts : Derivation r.symbols}
    {later : Derivation row} (takes : Takes (.rule r member parts later) text out) :
    ∃ middle, Takes parts text middle ∧ Takes later middle out := by
  obtain ⟨middle, inner, outer⟩ := takes.cut.split
  have whole := takes.whole
  rw [unclosed] at whole
  exact ⟨middle, ⟨inner, by omega⟩, outer, by omega⟩

theorem token {t : Terminal} {w : List Char} {d : Derivation (.terminal t :: row)}
    (takes : Takes d text out) (ahead : skip text = w ++ rest)
    (found : t.match? (w ++ rest) = some w.length) :
    ∃ later, d = .token t w later ∧ Takes later rest out := by
  obtain ⟨later, rfl, behind⟩ := read_token ahead found takes.cut
  exact ⟨later, rfl, behind, takes.whole⟩

theorem numeral {d : Derivation (.nonterminal .number :: row)} (takes : Takes d text out)
    (w : Numeral) (ahead : skip text = w.text ++ rest) (ends : Ends rest = true) :
    ∃ later, d = Numeral.derive w later ∧ Takes later rest out := by
  obtain ⟨later, rfl, behind⟩ := read_numeral w ahead ends takes.cut
  exact ⟨later, rfl, behind, (unclosed_numeral w later).symm.trans takes.whole⟩

theorem vector {d : Derivation (.nonterminal .vector :: row)} (takes : Takes d text out)
    (v : Triple) (ahead : skip text = v.write rest) :
    ∃ later, d = v.derive later ∧ Takes later rest out := by
  rcases v.reads ahead takes.cut with ⟨later, rfl, behind⟩ | ⟨later, short, _⟩
  · exact ⟨later, rfl, behind, (v.unclosed_derive later).symm.trans takes.whole⟩
  · exact absurd (short.symm.trans takes.whole) (Nat.succ_ne_zero _)

theorem linked {d : Derivation (.nonterminal .link :: .nonterminal .vector :: row)}
    (takes : Takes d text out) (v : Triple) {parameter : Char}
    (letter : parameter = 's' ∨ parameter = 't')
    (ahead : skip text = skip (v.writeLinked parameter rest)) :
    ∃ later, d = v.deriveLinked parameter later ∧ Takes later rest out := by
  rcases v.reads_linked letter ahead takes.cut with ⟨later, rfl, behind⟩ | ⟨later, short, _⟩
  · exact ⟨later, rfl, behind, (v.unclosed_deriveLinked parameter later).symm.trans takes.whole⟩
  · exact absurd (short.symm.trans takes.whole) (Nat.succ_ne_zero _)

end Takes

/-- A derivation reads canonical text the canonical way, up to `rest`, or astray; then come the
derivation of a row and the end of the reading. -/
inductive Reads {row full : List Symbol} (canon : Derivation row → Derivation full)
    (rest : List Char) (stray : List Char → Prop) (d : Derivation full) (out : List Char) :
    Prop where
  | exact (later : Derivation row) (same : d = canon later) (takes : Takes later rest out)
  | astray (later : Derivation row) {middle : List Char} (off : stray middle)
      (takes : Takes later middle out)

section

variable {full : List Symbol} {d : Derivation full} {stray : List Char → Prop}

/-- Where something solid must follow, a reading is canonical. -/
theorem Reads.of_solid {s : Symbol} {canon : Derivation (s :: row) → Derivation full}
    (reads : Reads canon rest stray d out) (solid : isSolid s = true)
    (startless : ∀ middle, stray middle → Startless middle) :
    ∃ later, d = canon later ∧ Takes later rest out := by
  cases reads with
  | exact later same takes => exact ⟨later, same, takes⟩
  | astray later off takes =>
    exact absurd (startless _ off) (not_startless later rfl solid takes.cut)

/-- At the end of a row a reading is canonical up to the rest, or leaves something else. -/
theorem Reads.at_end {canon : Derivation [] → Derivation full}
    (reads : Reads canon rest stray d out) :
    (d = canon .nil ∧ out = skip rest) ∨ ∃ middle, stray middle ∧ out = skip middle := by
  cases reads with
  | exact later same takes =>
    cases later
    cases takes.cut
    exact .inl ⟨same, rfl⟩
  | astray later off takes =>
    cases later
    cases takes.cut
    exact .inr ⟨_, off, rfl⟩

end

def writeChain (rest : List Char) : List (Char × Triple) → List Char
  | [] => rest
  | (parameter, v) :: more => v.writeLinked parameter (writeChain rest more)

def deriveChain : (links : List (Char × Triple)) → Derivation (chainRow links.length)
  | [] => .nil
  | (parameter, v) :: more => v.deriveLinked parameter (deriveChain more)

/-- Further vectors than a chain has are read in what follows it. -/
def Further (rest out : List Char) : Prop :=
  ∃ m, ∃ d : Derivation (chainRow (m + 1)), Takes d rest out

theorem not_further (closes : Closes rest) : ¬ Further rest out := by
  rintro ⟨m, d, takes⟩
  obtain ⟨vector, _, behind⟩ := read_no_link closes.linkless takes.cut
  exact not_startless vector rfl (by decide) behind closes.startless

/-- What a reading that is not canonical leaves of the text behind: something with which nothing
goes on, or what follows further vectors. -/
def Stray (further : Prop) (rest middle : List Char) : Prop :=
  Dead middle ∨ further ∧ Further rest middle

theorem Stray.imp {further other : Prop} (implies : further → other)
    (stray : Stray further rest out) : Stray other rest out :=
  Or.imp id (fun later => ⟨implies later.1, later.2⟩) stray

theorem Stray.dead {further : Prop} (stray : Stray further rest out) (only : ¬ further) :
    Dead out :=
  stray.resolve_right fun later => only later.1

variable {links : List (Char × Triple)}

/-- A chain is read as one of its own length, or one of another, which leaves a link or goes on. -/
theorem reads_chain (letters : ∀ link ∈ links, link.1 = 's' ∨ link.1 = 't') {m : Nat}
    {d : Derivation (chainRow m)} (ahead : skip text = skip (writeChain rest links))
    (takes : Takes d text out) :
    (m = links.length ∧ HEq d (deriveChain links) ∧ out = skip rest) ∨
      Stray (links.length < m) rest out := by
  induction links generalizing m text with
  | nil =>
    cases m with
    | zero =>
      cases d
      cases takes.cut
      exact .inl ⟨rfl, HEq.rfl, ahead⟩
    | succ m => exact .inr (.inr ⟨Nat.succ_pos m, m, d, takes.of_skip ahead⟩)
  | cons link more ih =>
    obtain ⟨parameter, v⟩ := link
    have letter : parameter = 's' ∨ parameter = 't' := letters (parameter, v) (by simp)
    have others : ∀ link ∈ more, link.1 = 's' ∨ link.1 = 't' := fun link member =>
      letters link (List.mem_cons_of_mem _ member)
    cases m with
    | zero =>
      cases d
      cases takes.cut
      rw [ahead]
      exact .inr (.inl ⟨startless_linked letter _, '+', _, rfl, by decide⟩)
    | succ m =>
      obtain ⟨later, same, behind⟩ := takes.linked v letter ahead
      rcases ih others rfl behind with ⟨count, whole, ended⟩ | stray
      · subst count
        cases whole
        exact .inl ⟨rfl, heq_of_eq same, ended⟩
      · exact .inr (stray.imp Nat.succ_lt_succ)

/-- A chain with its first vector. -/
theorem reads_vectors (v : Triple) (letters : ∀ link ∈ links, link.1 = 's' ∨ link.1 = 't')
    {m : Nat} {d : Derivation (.nonterminal .vector :: chainRow m)}
    (ahead : skip text = v.write (writeChain rest links)) (takes : Takes d text out) :
    (m = links.length ∧ HEq d (v.derive (deriveChain links)) ∧ out = skip rest) ∨
      Stray (links.length < m) rest out := by
  obtain ⟨later, rfl, behind⟩ := takes.vector v ahead
  rcases reads_chain letters rfl behind with ⟨count, whole, ended⟩ | stray
  · subst count
    cases whole
    exact .inl ⟨rfl, HEq.rfl, ended⟩
  · exact .inr stray

/-- The number of links in a literal of a kind. -/
def Kind.count : Kind → Nat
  | .line => 1
  | .span => 2
  | _ => 0

/-- A literal of linked vectors, from the derivation of these. -/
def Kind.fold : (kind : Kind) → kind ≠ .plane →
    Derivation (.nonterminal .vector :: chainRow kind.count) → Derivation row →
    Derivation (kind.symbol :: row)
  | .vector, _, parts, later => parts.append later
  | .line, _, parts, later => .rule lineRule lineRule_mem parts later
  | .span, _, parts, later => .rule spanRule spanRule_mem parts later
  | .plane, linked, _, _ => absurd rfl linked

theorem exists_fold {kind : Kind} (linked : kind ≠ .plane) {d : Derivation (kind.symbol :: row)}
    (takes : Takes d text out) :
    ∃ parts later middle, d = kind.fold linked parts later ∧ Takes parts text middle ∧
      Takes later middle out := by
  cases kind with
  | plane => exact absurd rfl linked
  | vector =>
    cases d with
    | rule r member parts later =>
      obtain ⟨middle, inner, outer⟩ := takes.split
      refine ⟨.rule r member parts .nil, later, middle, rfl, ⟨?_, ?_⟩, outer⟩
      · simpa [Derivation.tokens] using inner.cut
      · have whole := takes.whole
        simp only [unclosed] at whole ⊢
        omega
  | line =>
    cases d with
    | rule r member parts later =>
      obtain ⟨middle, inner, outer⟩ := takes.split
      have only : ∀ r ∈ Nonterminal.line.rules, r = lineRule := by decide
      cases only r member
      exact ⟨parts, later, middle, rfl, inner, outer⟩
  | span =>
    cases d with
    | rule r member parts later =>
      obtain ⟨middle, inner, outer⟩ := takes.split
      have only : ∀ r ∈ Nonterminal.span.rules, r = spanRule := by decide
      cases only r member
      exact ⟨parts, later, middle, rfl, inner, outer⟩

/-- Whether a kind takes more vectors than another. -/
def Kind.exceeds (kind other : Kind) : Prop :=
  kind ≠ .plane ∧ other ≠ .plane ∧ other.count < kind.count

/-- What becomes of a literal that is read as one of some kind. -/
inductive ReadsLiteral (rest : List Char) (l : Literal) {kind : Kind} {row : List Symbol}
    (d : Derivation (kind.symbol :: row)) (out : List Char) : Prop where
  | exact (later : Derivation row) (same : kind = l.kind)
      (canonical : HEq d (Literal.derive later l))
      (takes : Takes later rest out)
  | astray (later : Derivation row) {middle : List Char}
      (off : Stray (kind.exceeds l.kind) rest middle) (takes : Takes later middle out)

private theorem eq_of_count {kind other : Kind} (linked : kind ≠ .plane)
    (otherLinked : other ≠ .plane)
    (same : kind.count = other.count) : kind = other := by
  cases kind <;> cases other <;> simp_all [Kind.count]

private theorem reads_linked_literal (l : Literal) (v : Triple) (links : List (Char × Triple))
    (letters : ∀ link ∈ links, link.1 = 's' ∨ link.1 = 't') (linked : l.kind ≠ .plane)
    (count : l.kind.count = links.length) (writes : l.write rest = v.write (writeChain rest links))
    (folds : ∀ (parts : Derivation (.nonterminal .vector :: chainRow l.kind.count))
      (later : Derivation row), HEq parts (v.derive (deriveChain links)) →
        l.kind.fold linked parts later = Literal.derive later l)
    {kind : Kind} {d : Derivation (kind.symbol :: row)} (ahead : skip text = l.write rest)
    (takes : Takes d text out) : ReadsLiteral rest l d out := by
  rw [writes] at ahead
  by_cases plane : kind = .plane
  · subst plane
    exact absurd takes.cut (not_read_plane ahead)
  · obtain ⟨parts, later, middle, rfl, inner, outer⟩ := exists_fold plane takes
    rcases reads_vectors v letters ahead inner with ⟨same, canonical, rfl⟩ | stray
    · obtain rfl := eq_of_count plane linked (same.trans count.symm)
      exact .exact later rfl (heq_of_eq (folds parts later canonical)) (outer.of_skip (skip_skip _))
    · exact .astray later (stray.imp fun more => ⟨plane, linked, count ▸ more⟩) outer

/-- A literal is read canonically as one of its kind, or astray. -/
theorem reads_literal (l : Literal) {kind : Kind} {d : Derivation (kind.symbol :: row)}
    (ahead : skip text = l.write rest) (takes : Takes d text out) : ReadsLiteral rest l d out := by
  cases l with
  | vector v =>
    refine reads_linked_literal (.vector v) v [] (by simp) nofun rfl rfl ?_ ahead takes
    intro parts later same
    cases eq_of_heq same
    rfl
  | line base direction =>
    refine reads_linked_literal (.line base direction) base [('t', direction)] (by simp) nofun rfl
      rfl ?_ ahead takes
    intro parts later same
    cases eq_of_heq same
    rfl
  | span base first second =>
    refine reads_linked_literal (.span base first second) base [('s', first), ('t', second)]
      (by simp) nofun rfl rfl ?_ ahead takes
    intro parts later same
    cases eq_of_heq same
    rfl
  | plane a b c e =>
    by_cases plane : kind = .plane
    · subst plane
      rcases reads_plane a b c e ahead takes.cut with
        ⟨later, same, behind⟩ | ⟨middle, later, count, dead, behind⟩
      · have whole : unclosed later = 0 := by
          rw [← Literal.unclosed_derive (.plane a b c e) later]
          exact (congrArg unclosed same).symm.trans takes.whole
        exact .exact later rfl (heq_of_eq same) ⟨behind, whole⟩
      · exact .astray later (.inl dead) ⟨behind, Nat.le_zero.mp (takes.whole ▸ count)⟩
    · obtain ⟨parts, later, middle, _, inner, _⟩ := exists_fold plane takes
      exact absurd inner.cut (not_read_vector ahead)

end SolidGeometry.Grammar.Canonical
