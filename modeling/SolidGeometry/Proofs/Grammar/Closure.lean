import SolidGeometry.Proofs.Grammar.Agenda

namespace SolidGeometry.Grammar.Work

variable {earlier : Array (List Entry)} {offset : Nat} {w v u : Work}

/-- What follows from an entry has been noted, unless it concerns entries still on the agenda. -/
structure Done (earlier : Array (List Entry)) (offset : Nat) (w : Work) (e : Entry) : Prop where
  predicted : ∀ n, e.item.next? = some (.nonterminal n) → ∀ r ∈ n.rules, w.Has ⟨offset, 0, r⟩
  held : e.item.next? = none → e.item.start = offset → (w.held.lookup e.item.rule.origin).isSome
  moved : e.item.next? = none → e.item.start ≠ offset → ∀ o ∈ earlier[e.item.start]?.getD [],
    o.item.next? = some (.nonterminal e.item.rule.origin) → w.Has o.item.advance
  movedHere : e.item.next? = none → e.item.start = offset → ∀ o ∈ w.column,
    o.item.next? = some (.nonterminal e.item.rule.origin) → o ∈ w.agenda ∨ w.Has o.item.advance

/-- Every entry of the column waits or is done with. -/
def Settled (earlier : Array (List Entry)) (offset : Nat) (w : Work) : Prop :=
  ∀ e ∈ w.column, e ∈ w.agenda ∨ w.Done earlier offset e

private theorem has_foldl_add (rules : List Rule) {r : Rule} (member : r ∈ rules) :
    (rules.foldl (fun w r => w.add ⟨⟨offset, 0, r⟩, none⟩) w).Has ⟨offset, 0, r⟩ := by
  have kept : ∀ (rules : List Rule) (w : Work),
      Extends w (rules.foldl (fun w r => w.add ⟨⟨offset, 0, r⟩, none⟩) w) := by
    intro rules
    induction rules with
    | nil => exact fun w => Extends.refl w
    | cons r rest ih => exact fun w => (extends_add w _).trans (ih _)
  induction rules generalizing w with
  | nil => cases member
  | cons s rest ih =>
    rcases List.mem_cons.mp member with rfl | later
    · exact (kept rest _).has (has_add w ⟨⟨offset, 0, r⟩, none⟩)
    · exact ih later

private theorem has_foldl_addOver (os : List Entry) (m : Node) {o : Entry} (member : o ∈ os) :
    (os.foldl (fun w o => w.addOver o m offset) w).Has o.item.advance := by
  have kept : ∀ (os : List Entry) (w : Work),
      Extends w (os.foldl (fun w o => w.addOver o m offset) w) := by
    intro os
    induction os with
    | nil => exact fun w => Extends.refl w
    | cons o rest ih => exact fun w => (extends_addOver w _ _ _).trans (ih _)
  induction os generalizing w with
  | nil => cases member
  | cons p rest ih =>
    rcases List.mem_cons.mp member with rfl | later
    · exact (kept rest _).has (has_addOver w o m offset)
    · exact ih later

private theorem has_predict {e : Entry} {n : Nonterminal} {r : Rule} (member : r ∈ n.predictions) :
    (w.predict offset e n).Has ⟨offset, 0, r⟩ := by
  have noted : Has (n.predictions.foldl (fun w r => w.add ⟨⟨offset, 0, r⟩, none⟩) w)
      ⟨offset, 0, r⟩ := has_foldl_add n.predictions member
  unfold predict
  dsimp only
  split
  · exact (extends_addOver _ _ _ _).has noted
  · exact noted

private theorem held_foldl_add (rules : List Rule) :
    (rules.foldl (fun w r => w.add ⟨⟨offset, 0, r⟩, none⟩) w).held = w.held := by
  induction rules generalizing w with
  | nil => rfl
  | cons r rest ih =>
    rw [List.foldl_cons, ih]
    unfold add
    split
    · rfl
    · split <;> rfl

/-- An entry that expects what is held moves on at once. -/
private theorem has_advance_predict {e : Entry} {n : Nonterminal}
    (held : (w.held.lookup n).isSome) : (w.predict offset e n).Has e.item.advance := by
  unfold predict
  dsimp only
  rw [held_foldl_add]
  split
  · exact has_addOver _ _ _ _
  · rename_i absent
    rw [absent] at held
    cases held

private theorem has_complete {e o : Entry}
    (waiting : o ∈ entriesAt earlier offset w e.item.start)
    (expects : o.item.next? = some (.nonterminal e.item.rule.origin)) :
    (w.complete earlier offset e).Has o.item.advance := by
  rw [complete_eq]
  refine has_foldl_addOver _ _ (mem_expecting.mpr ⟨?_, expects⟩)
  unfold entriesAt at waiting ⊢
  rw [column_holding, column_recorded]
  exact waiting

private theorem held_complete {e : Entry} (here : e.item.start = offset) :
    ((w.complete earlier offset e).held.lookup e.item.rule.origin).isSome := by
  have kept : ∀ (os : List Entry) (w : Work),
      (os.foldl (fun w o => w.addOver o (e.nodeAt offset) offset) w).held = w.held := by
    intro os
    induction os with
    | nil => exact fun _ => rfl
    | cons o rest ih =>
      intro w
      rw [List.foldl_cons, ih]
      unfold addOver
      dsimp only
      unfold add
      split
      · rfl
      · split <;> rfl
  rw [complete_eq, kept]
  simp [holding, here]

/-- A step is done with the entry it takes. -/
private theorem done_step {e : Entry} (known : e ∈ w.column) :
    (w.step earlier offset e).Done earlier offset e := by
  have grown : Extends w (w.step earlier offset e) := (changes_step known).extends
  refine ⟨?_, ?_, ?_, ?_⟩
  · intro n expects r member
    unfold step
    rw [expects]
    exact has_predict (mem_predictions member)
  · intro finished here
    unfold step
    rw [finished]
    exact held_complete here
  · intro finished away o waiting expects
    unfold step
    rw [finished]
    refine has_complete ?_ expects
    unfold entriesAt
    rw [if_neg away]
    exact waiting
  · intro finished here o member expects
    rcases grown.fresh o member with old | new
    · right
      unfold step
      rw [finished]
      refine has_complete ?_ expects
      unfold entriesAt
      rw [if_pos here]
      exact old
    · exact .inl new

/-- What was done with stays so over a step. The entry taken may be one that still had to move on:
what it expects is held by then. -/
private theorem Done.step {e o : Entry} {rest : List Entry} (done : w.Done earlier offset o)
    (known : e ∈ w.column) (first : w.agenda = e :: rest) :
    (Work.step earlier offset { w with agenda := rest } e).Done earlier offset o := by
  have grown : Extends { w with agenda := rest }
      (Work.step earlier offset { w with agenda := rest } e) :=
    (changes_step (w := { w with agenda := rest }) known).extends
  refine ⟨fun n expects r member => grown.has (done.predicted n expects r member),
    fun finished here => grown.held _ (done.held finished here),
    fun finished away p member expects => grown.has (done.moved finished away p member expects), ?_⟩
  intro finished here p member expects
  rcases grown.fresh p member with old | waiting
  · rcases done.movedHere finished here p old expects with waiting | moved
    · rw [first] at waiting
      rcases List.mem_cons.mp waiting with rfl | later
      · right
        unfold Work.step
        rw [expects]
        exact has_advance_predict (w := { w with agenda := rest }) (done.held finished here)
      · exact .inl (grown.agenda p later)
    · exact .inr (grown.has moved)
  · exact .inl waiting

theorem Settled.step {e : Entry} {rest : List Entry} (settled : w.Settled earlier offset)
    (known : e ∈ w.column) (first : w.agenda = e :: rest) :
    (Work.step earlier offset { w with agenda := rest } e).Settled earlier offset := by
  intro o member
  have grown : Extends { w with agenda := rest }
      (Work.step earlier offset { w with agenda := rest } e) :=
    (changes_step (w := { w with agenda := rest }) known).extends
  rcases grown.fresh o member with old | waiting
  · rcases settled o old with waiting | done
    · rw [first] at waiting
      rcases List.mem_cons.mp waiting with rfl | later
      · exact .inr (done_step (w := { w with agenda := rest }) known)
      · exact .inl (grown.agenda o later)
    · exact .inr (done.step known first)
  · exact .inl waiting

/-- The agenda holds entries of the column, and the items of the column differ. -/
structure Orderly (w : Work) : Prop where
  waiting : ∀ e ∈ w.agenda, e ∈ w.column
  distinct : (w.column.map Entry.item).Nodup

/-- An entry is new to the column exactly when it joins the agenda. -/
private theorem orderly_add (e : Entry) (orderly : w.Orderly) : (w.add e).Orderly ∧
    (w.add e).agenda.length + w.column.length = w.agenda.length + (w.add e).column.length := by
  have distinct := nodup_addEntry e orderly.distinct
  unfold addEntry at distinct
  unfold add
  split
  · exact ⟨⟨orderly.waiting, orderly.distinct⟩, rfl⟩
  · split
    · exact ⟨orderly, rfl⟩
    · rename_i absent
      rw [if_neg absent] at distinct
      refine ⟨⟨?_, distinct⟩, ?_⟩
      · intro d member
        rcases List.mem_cons.mp member with rfl | older
        · simp
        · exact List.mem_append_left _ (orderly.waiting d older)
      · simp only [List.length_cons, List.length_append, List.length_nil]
        omega

private theorem orderly_changes (changes : Changes earlier offset w v) (orderly : w.Orderly) :
    v.Orderly ∧ v.agenda.length + w.column.length = w.agenda.length + v.column.length := by
  induction changes with
  | refl => exact ⟨orderly, rfl⟩
  | @next v u _ last ih =>
    obtain ⟨before, counted⟩ := ih
    have after : u.Orderly ∧
        u.agenda.length + v.column.length = v.agenda.length + u.column.length := by
      cases last with
      | predict => exact orderly_add _ before
      | empty => exact ⟨⟨before.waiting, before.distinct⟩, rfl⟩
      | hold => exact ⟨⟨before.waiting, before.distinct⟩, rfl⟩
      | complete => exact orderly_add _ ⟨before.waiting, before.distinct⟩
      | resume => exact orderly_add _ ⟨before.waiting, before.distinct⟩
    exact ⟨after.1, by omega⟩

/-- A property of the work that taking entries and making changes keep. -/
structure Kept (earlier : Array (List Entry)) (offset : Nat) (property : Work → Prop) : Prop where
  take : ∀ w agenda, (∀ e ∈ agenda, e ∈ w.agenda) → property w →
    property { w with agenda := agenda }
  change : ∀ w v, Change earlier offset w v → property w → property v

theorem Kept.changes {property : Work → Prop} (kept : Kept earlier offset property)
    (changes : Changes earlier offset w v) (holds : property w) : property v := by
  induction changes with
  | refl => exact holds
  | next _ last ih => exact kept.change _ _ last ih

theorem Kept.run {property : Work → Prop} (kept : Kept earlier offset property) (bound : Nat)
    (orderly : w.Orderly) (holds : property w) : property (w.run earlier offset bound) := by
  induction bound generalizing w with
  | zero => exact holds
  | succ bound ih =>
    unfold Work.run
    split
    · exact holds
    · rename_i e rest first
      have known : e ∈ w.column := orderly.waiting e (by simp [first])
      have fewer : ∀ d ∈ rest, d ∈ w.agenda := fun d member => by simp [first, member]
      have changes : Changes earlier offset { w with agenda := rest }
          (Work.step earlier offset { w with agenda := rest } e) :=
        changes_step (w := { w with agenda := rest }) known
      have taken : ({ w with agenda := rest } : Work).Orderly :=
        ⟨fun d member => orderly.waiting d (fewer d member), orderly.distinct⟩
      exact ih (orderly_changes changes taken).1 (kept.changes changes (kept.take w rest fewer holds))

/-- The run of the work at an offset: a property that all changes keep holds at the end. If it
limits the column, the bound suffices for the agenda to run empty, and all entries are done with. -/
theorem run_spec {property : Work → Prop} (kept : Kept earlier offset property) {limit : Nat}
    (limited : ∀ w, property w → w.Orderly → w.column.length ≤ limit) (bound : Nat)
    (orderly : w.Orderly) (holds : property w) (settled : w.Settled earlier offset)
    (enough : w.agenda.length + limit ≤ bound + w.column.length) :
    (w.run earlier offset bound).agenda = [] ∧ property (w.run earlier offset bound) ∧
      (w.run earlier offset bound).Settled earlier offset := by
  induction bound generalizing w with
  | zero =>
    have room := limited w holds orderly
    have none : w.agenda = [] := List.length_eq_zero_iff.mp (by omega)
    exact ⟨none, holds, settled⟩
  | succ bound ih =>
    unfold run
    split
    · rename_i none
      exact ⟨none, holds, settled⟩
    · rename_i e rest first
      have known : e ∈ w.column := orderly.waiting e (by simp [first])
      have fewer : ∀ d ∈ rest, d ∈ w.agenda := fun d member => by simp [first, member]
      have changes : Changes earlier offset { w with agenda := rest }
          (Work.step earlier offset { w with agenda := rest } e) :=
        changes_step (w := { w with agenda := rest }) known
      have taken : ({ w with agenda := rest } : Work).Orderly :=
        ⟨fun d member => orderly.waiting d (fewer d member), orderly.distinct⟩
      obtain ⟨after, counted⟩ := orderly_changes changes taken
      have held := kept.changes changes (kept.take w rest fewer holds)
      have length : w.agenda.length = rest.length + 1 := by simp [first]
      exact ih after held (settled.step known first) (by dsimp only at counted; omega)

end SolidGeometry.Grammar.Work
