import Mathlib.Data.List.Perm.Basic
import SolidGeometry.Policy

namespace SolidGeometry

/-- The warning about a degenerate computation that was recorded. -/
def Recorded.warning? : Recorded → Option Warning
  | .degenerate w => some w
  | .foreign _ => none

namespace Policy

variable (policy? : Option Policy)

/-- Warnings of the code are dropped. -/
def Suppresses (c : Code) : Prop := ∃ policy ∈ policy?, c ∈ policy.suppressed

/-- Warnings of the code are taken for errors. -/
def Promotes (c : Code) : Prop :=
  ∃ policy ∈ policy?, c ∈ policy.promoted ∧ c ∉ policy.suppressed

instance (c : Code) : Decidable (Suppresses policy? c) :=
  inferInstanceAs (Decidable (∃ policy ∈ policy?, c ∈ policy.suppressed))

instance (c : Code) : Decidable (Promotes policy? c) :=
  inferInstanceAs (Decidable (∃ policy ∈ policy?, c ∈ policy.promoted ∧ c ∉ policy.suppressed))

theorem suppresses_iff {c : Code} :
    Suppresses policy? c ↔ c ∈ (policy?.getD .showAll).suppressed := by
  cases policy? <;> simp [Suppresses, showAll]

theorem promotes_iff {c : Code} :
    Promotes policy? c ↔
      c ∈ (policy?.getD .showAll).promoted ∧ c ∉ (policy?.getD .showAll).suppressed := by
  cases policy? <;> simp [Promotes, showAll]

/-- The texts of the warnings that are not suppressed, as they were recorded. -/
def texts (recorded : List Recorded) : List String :=
  ((recorded.filterMap Recorded.warning?).filter fun w => ¬Suppresses policy? w.code).map
    Warning.message

theorem texts_of_suppresses {w : Warning} (suppresses : Suppresses policy? w.code)
    (recorded : List Recorded) :
    texts policy? (.degenerate w :: recorded) = texts policy? recorded := by
  simp [texts, Recorded.warning?, suppresses]

theorem texts_of_not_suppresses {w : Warning} (kept : ¬Suppresses policy? w.code)
    (recorded : List Recorded) :
    texts policy? (.degenerate w :: recorded) = w.message :: texts policy? recorded := by
  simp [texts, Recorded.warning?, kept]

theorem mem_texts {recorded : List Recorded} {text : String} :
    text ∈ texts policy? recorded ↔
      ∃ w, .degenerate w ∈ recorded ∧ ¬Suppresses policy? w.code ∧ w.message = text := by
  have warned (w : Warning) : (∃ r ∈ recorded, r.warning? = some w) ↔ .degenerate w ∈ recorded := by
    constructor
    · rintro ⟨r, member, found⟩
      cases r with
      | degenerate v =>
        cases found
        exact member
      | foreign message => cases found
    · exact fun member => ⟨_, member, rfl⟩
  simp [texts, warned, and_assoc]

/-- A list has the entries of another one, each once and in the order of first appearance. -/
structure Lists (shown all : List String) : Prop where
  nodup : shown.Nodup
  mem_iff : ∀ text, text ∈ shown ↔ text ∈ all
  ordered : shown.Pairwise fun a b => all.idxOf a < all.idxOf b

namespace Lists

variable {shown other all : List String}

theorem nil : Lists [] [] := ⟨List.nodup_nil, fun _ => Iff.rfl, List.Pairwise.nil⟩

/-- What first appears at different places is different. -/
theorem of_ordered (mem_iff : ∀ text, text ∈ shown ↔ text ∈ all)
    (ordered : shown.Pairwise fun a b => all.idxOf a < all.idxOf b) : Lists shown all := by
  refine ⟨ordered.imp ?_, mem_iff, ordered⟩
  rintro a b before rfl
  exact Nat.lt_irrefl _ before

/-- Nothing changes where the entries first appear when there is one more behind them. -/
private theorem ordered_append (lists : Lists shown all) (text : String) :
    shown.Pairwise fun a b => (all ++ [text]).idxOf a < (all ++ [text]).idxOf b := by
  refine lists.ordered.imp_of_mem fun first second before => ?_
  rw [List.idxOf_append, List.idxOf_append, if_pos ((lists.mem_iff _).mp first),
    if_pos ((lists.mem_iff _).mp second)]
  exact before

theorem repeated (lists : Lists shown all) {text : String} (listed : text ∈ shown) :
    Lists shown (all ++ [text]) := by
  refine of_ordered (fun other => ?_) (lists.ordered_append text)
  rw [List.mem_append, List.mem_singleton, ← lists.mem_iff]
  constructor
  · exact .inl
  · rintro (member | rfl)
    · exact member
    · exact listed

theorem fresh (lists : Lists shown all) {text : String} (unlisted : text ∉ shown) :
    Lists (shown ++ [text]) (all ++ [text]) := by
  have unseen : text ∉ all := fun member => unlisted ((lists.mem_iff text).mpr member)
  refine of_ordered (fun other => ?_) ?_
  · rw [List.mem_append, List.mem_append, lists.mem_iff]
  · refine List.pairwise_append.mpr ⟨lists.ordered_append text, List.pairwise_singleton _ _, ?_⟩
    intro a member b last
    obtain rfl := List.mem_singleton.mp last
    have seen := (lists.mem_iff a).mp member
    rw [List.idxOf_append, List.idxOf_append, if_pos seen, if_neg unseen]
    exact Nat.lt_of_lt_of_le (List.idxOf_lt_length_iff.mpr seen) (Nat.le_add_left _ _)

/-- Entries and order determine the list. -/
theorem unique (lists : Lists shown all) (others : Lists other all) : shown = other := by
  have same : shown.Perm other := (List.perm_ext_iff_of_nodup lists.nodup others.nodup).mpr
    fun text => (lists.mem_iff text).trans (others.mem_iff text).symm
  exact same.eq_of_pairwise (fun _ _ _ _ before after => absurd before (Nat.lt_asymm after))
    lists.ordered others.ordered

end Lists

variable {policy : Policy} {shown messages : List String} {recorded front back : List Recorded}
  {w : Warning}

/-- A selection from two parts goes on in the second with what it has from the first. -/
theorem select_append (front back : List Recorded) :
    policy.select shown (front ++ back) =
      policy.select shown front >>= fun found => policy.select found back := by
  fun_induction select policy shown front with
  | case1 => rfl
  | case2 shown message rest ih => simpa only [List.cons_append, select] using ih
  | case3 shown v rest dropped ih => simpa only [List.cons_append, select, if_pos dropped] using ih
  | case4 shown v rest kept promoted =>
    simp only [List.cons_append, select, if_neg kept, if_pos promoted]
    rfl
  | case5 shown v rest kept plain listed ih =>
    simpa only [List.cons_append, select, if_neg kept, if_neg plain, if_pos listed] using ih
  | case6 shown v rest kept plain unlisted ih =>
    simpa only [List.cons_append, select, if_neg kept, if_neg plain, if_neg unlisted] using ih

theorem select_of_promotes (shown : List String) (promotes : Promotes policy? w.code) :
    (policy?.getD .showAll).select shown (.degenerate w :: back) = .error w := by
  obtain ⟨promoted, kept⟩ := (promotes_iff policy?).mp promotes
  rw [select, if_neg kept, if_pos promoted]

/-- The first recorded warning of a promoted code. -/
def IsFirst (recorded : List Recorded) (w : Warning) : Prop :=
  ∃ front back, recorded = front ++ .degenerate w :: back ∧ Promotes policy? w.code ∧
    ∀ v, .degenerate v ∈ front → ¬Promotes policy? v.code

theorem IsFirst.cons (first : IsFirst policy? recorded w) {entry : Recorded}
    (passed : ∀ v, entry = .degenerate v → ¬Promotes policy? v.code) :
    IsFirst policy? (entry :: recorded) w := by
  obtain ⟨front, back, rfl, promotes, before⟩ := first
  refine ⟨entry :: front, back, rfl, promotes, fun v member => ?_⟩
  rcases List.mem_cons.mp member with same | behind
  · exact passed v same.symm
  · exact before v behind

/-- A selection that fails ends in the first promoted warning. -/
theorem isFirst_of_select (failed : (policy?.getD .showAll).select shown recorded = .error w) :
    IsFirst policy? recorded w := by
  fun_induction select (policy?.getD .showAll) shown recorded with
  | case1 => cases failed
  | case2 shown message rest ih => exact (ih failed).cons _ nofun
  | case3 shown v rest dropped ih =>
    refine (ih failed).cons _ ?_
    rintro _ ⟨⟩ promotes
    exact ((promotes_iff policy?).mp promotes).2 dropped
  | case4 shown v rest kept promoted =>
    cases failed
    exact ⟨[], rest, rfl, (promotes_iff policy?).mpr ⟨promoted, kept⟩, nofun⟩
  | case5 shown v rest kept plain listed ih =>
    refine (ih failed).cons _ ?_
    rintro _ ⟨⟩ promotes
    exact plain ((promotes_iff policy?).mp promotes).1
  | case6 shown v rest kept plain unlisted ih =>
    refine (ih failed).cons _ ?_
    rintro _ ⟨⟩ promotes
    exact plain ((promotes_iff policy?).mp promotes).1

/-- A selection that succeeds has met no promoted warning. -/
theorem not_promotes_of_select
    (done : (policy?.getD .showAll).select shown recorded = .ok messages)
    (member : .degenerate w ∈ recorded) : ¬Promotes policy? w.code := by
  intro promotes
  obtain ⟨front, back, rfl⟩ := List.append_of_mem member
  rw [select_append] at done
  cases found : (policy?.getD .showAll).select shown front with
  | error v =>
    rw [found] at done
    cases done
  | ok texts =>
    rw [found] at done
    exact absurd ((select_of_promotes policy? texts promotes).symm.trans done) nofun

theorem apply_eq_error_iff :
    apply policy? recorded = .error w ↔ IsFirst policy? recorded w := by
  refine ⟨isFirst_of_select policy?, ?_⟩
  rintro ⟨front, back, rfl, promotes, before⟩
  unfold apply
  rw [select_append]
  cases found : (policy?.getD .showAll).select [] front with
  | error v =>
    obtain ⟨others, more, rfl, earlier, _⟩ := isFirst_of_select policy? found
    exact absurd earlier (before v (List.mem_append_right _ List.mem_cons_self))
  | ok texts => exact select_of_promotes policy? texts promotes

theorem exists_error_iff :
    (∃ w, apply policy? recorded = .error w) ↔
      ∃ w, .degenerate w ∈ recorded ∧ Promotes policy? w.code := by
  constructor
  · rintro ⟨w, failed⟩
    obtain ⟨front, back, rfl, promotes, _⟩ := isFirst_of_select policy? failed
    exact ⟨w, List.mem_append_right _ List.mem_cons_self, promotes⟩
  · rintro ⟨w, member, promotes⟩
    cases found : apply policy? recorded with
    | error v => exact ⟨v, rfl⟩
    | ok shown => exact absurd promotes (not_promotes_of_select policy? found member)

/-- A selection goes on with the list of what was recorded before. -/
theorem lists_of_select {all : List String} (lists : Lists shown all)
    (done : (policy?.getD .showAll).select shown recorded = .ok messages) :
    Lists messages (all ++ texts policy? recorded) := by
  fun_induction select (policy?.getD .showAll) shown recorded generalizing all with
  | case1 =>
    cases done
    exact (List.append_nil all).symm ▸ lists
  | case2 shown message rest ih => exact ih lists done
  | case3 shown v rest dropped ih =>
    rw [texts_of_suppresses policy? ((suppresses_iff policy?).mpr dropped)]
    exact ih lists done
  | case4 => cases done
  | case5 shown v rest kept plain listed ih =>
    rw [texts_of_not_suppresses policy? (mt (suppresses_iff policy?).mp kept), List.append_cons]
    exact ih (lists.repeated listed) done
  | case6 shown v rest kept plain unlisted ih =>
    rw [texts_of_not_suppresses policy? (mt (suppresses_iff policy?).mp kept), List.append_cons]
    exact ih (lists.fresh unlisted) done

theorem lists_of_apply (done : apply policy? recorded = .ok messages) :
    Lists messages (texts policy? recorded) :=
  lists_of_select policy? .nil done

theorem apply_eq_ok_iff :
    apply policy? recorded = .ok messages ↔
      (∀ w, .degenerate w ∈ recorded → ¬Promotes policy? w.code) ∧
        Lists messages (texts policy? recorded) := by
  constructor
  · exact fun done => ⟨fun w => not_promotes_of_select policy? done, lists_of_apply policy? done⟩
  · rintro ⟨plain, lists⟩
    cases found : apply policy? recorded with
    | error w =>
      obtain ⟨v, member, promotes⟩ := (exists_error_iff policy?).mp ⟨w, found⟩
      exact absurd promotes (plain v member)
    | ok shown => rw [(lists_of_apply policy? found).unique lists]

/-- What no outcome depends on, behind what was recorded before: a warning from elsewhere, a
suppressed one, or one of the code and the text of an earlier one. -/
inductive Idle (front : List Recorded) : Recorded → Prop
  | foreign (message : String) : Idle front (.foreign message)
  | suppressed {w : Warning} (suppresses : Suppresses policy? w.code) :
    Idle front (.degenerate w)
  | repeated {v w : Warning} (earlier : .degenerate v ∈ front) (code : v.code = w.code)
    (text : v.message = w.message) : Idle front (.degenerate w)

theorem apply_of_idle {entry : Recorded} (idle : Idle policy? front entry) (back : List Recorded) :
    apply policy? (front ++ entry :: back) = apply policy? (front ++ back) := by
  unfold apply
  rw [select_append, select_append]
  cases found : (policy?.getD .showAll).select [] front with
  | error w => rfl
  | ok shown =>
    change (policy?.getD .showAll).select shown (entry :: back) =
      (policy?.getD .showAll).select shown back
    have dropped {w : Warning} (suppresses : Suppresses policy? w.code) :
        (policy?.getD .showAll).select shown (.degenerate w :: back) =
          (policy?.getD .showAll).select shown back := by
      rw [select, if_pos ((suppresses_iff policy?).mp suppresses)]
    cases idle with
    | foreign message => rfl
    | suppressed suppresses => exact dropped suppresses
    | @repeated v w earlier code text =>
      by_cases suppresses : Suppresses policy? w.code
      · exact dropped suppresses
      · have kept := mt (suppresses_iff policy?).mpr suppresses
        have plain : w.code ∉ (policy?.getD .showAll).promoted := by
          intro promoted
          refine not_promotes_of_select policy? found earlier ?_
          rw [code]
          exact (promotes_iff policy?).mpr ⟨promoted, kept⟩
        have listed : w.message ∈ shown := by
          rw [(lists_of_apply policy? found).mem_iff, mem_texts, ← text]
          exact ⟨v, earlier, code ▸ suppresses, rfl⟩
        rw [select, if_neg kept, if_neg plain, if_pos listed]

private theorem mapError_eq_error_iff {ε δ α : Type} {f : ε → δ} {r : Except ε α} {told : δ} :
    r.mapError f = .error told ↔ ∃ e, r = .error e ∧ f e = told := by
  cases r <;> simp [Except.mapError]

/-- There is an error exactly if a warning of a promoted code was recorded, and it has the text of
the first such warning. Otherwise the texts of the warnings that are not suppressed are shown, each
once and in the order of first appearance. A warning from elsewhere, a suppressed or a repeated one
can be put in or left out anywhere. -/
theorem apply_exact (policy? : Option Policy) (recorded : List Recorded) :
    ((∃ w, apply policy? recorded = .error w) ↔
        ∃ w, .degenerate w ∈ recorded ∧ Promotes policy? w.code) ∧
      (∀ text, (apply policy? recorded).mapError Warning.message = .error text ↔
        ∃ w, IsFirst policy? recorded w ∧ w.message = text) ∧
      (∀ messages, apply policy? recorded = .ok messages ↔
        (∀ w, .degenerate w ∈ recorded → ¬Promotes policy? w.code) ∧
          Lists messages (texts policy? recorded)) ∧
      ∀ front entry back, recorded = front ++ entry :: back → Idle policy? front entry →
        apply policy? recorded = apply policy? (front ++ back) := by
  refine ⟨exists_error_iff policy?, fun text => ?_, fun messages => apply_eq_ok_iff policy?, ?_⟩
  · simp only [mapError_eq_error_iff, apply_eq_error_iff]
  · rintro front entry back rfl idle
    exact apply_of_idle policy? idle back

/-- A code that is promoted and suppressed is suppressed, and a repeated warning can be left out. -/
theorem apply_exact_repeated :
    let policy? := some ⟨[.operand, .division], [.division]⟩
    let front : List Recorded :=
      [.degenerate ⟨.division, "nan"⟩, .foreign "unrelated", .degenerate ⟨⟨"W03"⟩, "far"⟩]
    let again : Recorded := .degenerate ⟨⟨"W03"⟩, "far"⟩
    let back : List Recorded := [.degenerate ⟨.operand, "flat"⟩, .degenerate ⟨.operand, "thin"⟩]
    Idle policy? front again ∧
      apply policy? (front ++ again :: back) = apply policy? (front ++ back) ∧
      (apply policy? (front ++ again :: back)).mapError Warning.message = .error "[W02] flat" := by
  intro policy? front again back
  have idle : Idle policy? front again := .repeated (v := ⟨⟨"W03"⟩, "far"⟩) (by decide) rfl rfl
  obtain ⟨-, failed, -, kept⟩ := apply_exact policy? (front ++ again :: back)
  refine ⟨idle, kept front again back rfl idle, (failed _).mpr ⟨⟨.operand, "flat"⟩, ?_, rfl⟩⟩
  refine ⟨front ++ [again], [.degenerate ⟨.operand, "thin"⟩], rfl, by decide, fun v member => ?_⟩
  have codes : ∀ r ∈ front ++ [again], ∀ w ∈ r.warning?, ¬Promotes policy? w.code := by decide
  exact codes _ member v rfl

end Policy

end SolidGeometry
