import SolidGeometry.Proofs.Grammar.Prefixes
import SolidGeometry.Proofs.Grammar.Timeline

namespace SolidGeometry.Grammar

variable {text : List Char} {j k : Nat} {n m : Nonterminal} {r : Rule} {i : Item} {c : Chart}

/-- The tokens up to an offset begin a sentence in which a nonterminal comes next, however that is
derived. -/
def Awaits (text : List Char) (n : Nonterminal) (k : Nat) : Prop :=
  ∃ tokens after, Along text 0 tokens k ∧ ∀ e : Derivation (.nonterminal n :: after),
    ∃ d : Derivation [.nonterminal .start], d.tokens = tokens ++ e.tokens

theorem awaits_start (text : List Char) : Awaits text .start 0 :=
  ⟨[], [], .nil, fun e => ⟨e, rfl⟩⟩

/-- An item that has found its first symbols up to an offset, and that was awaited where it
began. -/
structure Item.Viable (text : List Char) (k : Nat) (i : Item) : Prop where
  rule : i.rule ∈ i.rule.origin.rules
  found : ∃ d : Derivation (i.rule.symbols.take i.dot), Along text i.start d.tokens k
  awaited : Awaits text i.rule.origin i.start

theorem Awaits.begun (awaits : Awaits text n k) (member : r ∈ n.rules) :
    Item.Viable text k ⟨k, 0, r⟩ where
  rule := origin_of_mem_rules member ▸ member
  found := ⟨.nil, .nil⟩
  awaited := origin_of_mem_rules member ▸ awaits

namespace Item.Viable

theorem carry (viable : i.Viable text k) (separators : Along text k [] j) : i.Viable text j where
  rule := viable.rule
  found :=
    have ⟨d, along⟩ := viable.found
    ⟨d, by simpa using along.trans separators⟩
  awaited := viable.awaited

/-- An item moves over its next symbol behind a derivation of it. -/
theorem advance {s : Symbol} (viable : i.Viable text k) (expects : i.next? = some s)
    (d : Derivation [s]) (along : Along text k d.tokens j) : i.advance.Viable text j where
  rule := viable.rule
  found := by
    obtain ⟨e, before⟩ := viable.found
    have row : i.rule.symbols.take i.dot ++ [s] = i.rule.symbols.take (i.dot + 1) := by
      rw [List.take_add_one, show i.rule.symbols[i.dot]? = some s from expects]
      rfl
    obtain ⟨f, tokens, _⟩ := Derivation.exists_of_eq row (e.append d)
    have joined : Along text i.start f.tokens j := by
      rw [tokens, Derivation.tokens_append]
      exact before.trans along
    exact ⟨f, joined⟩
  awaited := viable.awaited

/-- What a finished item has found is its nonterminal. -/
theorem whole (viable : i.Viable text k) (finished : i.next? = none) :
    ∃ d : Derivation [.nonterminal i.rule.origin], Along text i.start d.tokens k := by
  obtain ⟨e, along⟩ := viable.found
  have row : i.rule.symbols.take i.dot = i.rule.symbols :=
    List.take_of_length_le (List.getElem?_eq_none_iff.mp finished)
  obtain ⟨parts, tokens, _⟩ := Derivation.exists_of_eq row e
  refine ⟨.rule i.rule viable.rule parts .nil, ?_⟩
  rw [Derivation.tokens, Derivation.tokens, List.append_nil, tokens]
  exact along

/-- The nonterminal that an item expects is awaited. -/
theorem awaits (viable : i.Viable text k) (expects : i.next? = some (.nonterminal n)) :
    Awaits text n k := by
  obtain ⟨d, along⟩ := viable.found
  obtain ⟨tokens, after, before, completes⟩ := viable.awaited
  obtain ⟨inside, here⟩ := List.getElem?_eq_some_iff.mp expects
  have row : i.rule.symbols.take i.dot ++
      .nonterminal n :: i.rule.symbols.drop (i.dot + 1) = i.rule.symbols := by
    rw [← here, ← List.drop_eq_getElem_cons inside, List.take_append_drop]
  refine ⟨tokens ++ d.tokens, i.rule.symbols.drop (i.dot + 1) ++ after, before.trans along, ?_⟩
  intro e
  obtain ⟨own, behind, joined⟩ :=
    Derivation.exists_split (.nonterminal n :: i.rule.symbols.drop (i.dot + 1)) e
  obtain ⟨parts, same, _⟩ := Derivation.exists_of_eq row (d.append own)
  obtain ⟨sentence, spelled⟩ := completes (.rule i.rule viable.rule parts behind)
  refine ⟨sentence, ?_⟩
  rw [spelled, Derivation.tokens, same, joined, Derivation.tokens_append]
  simp only [List.append_assoc]

/-- The tokens before an item begin a sentence: what the item still expects and what comes behind it
can be derived in some way. -/
theorem reachable (viable : i.Viable text k) : Reachable text k := by
  obtain ⟨d, along⟩ := viable.found
  obtain ⟨tokens, after, before, completes⟩ := viable.awaited
  obtain ⟨rest⟩ := Derivation.nonempty (i.rule.symbols.drop i.dot)
  obtain ⟨behind⟩ := Derivation.nonempty after
  obtain ⟨parts, same, _⟩ :=
    Derivation.exists_of_eq (List.take_append_drop i.dot i.rule.symbols) (d.append rest)
  obtain ⟨sentence, spelled⟩ := completes (.rule i.rule viable.rule parts behind)
  refine ⟨tokens ++ d.tokens, before.trans along, sentence, rest.tokens ++ behind.tokens, ?_⟩
  rw [spelled, Derivation.tokens, same, Derivation.tokens_append]
  simp only [List.append_assoc]

end Item.Viable

theorem predictions_eq (n : Nonterminal) :
    n.predictions = predictFrom Nonterminal.all.length [n] [n] := by
  cases n <;> rfl

theorem next?_of_head? (front : r.head? = some m) :
    (⟨k, 0, r⟩ : Item).next? = some (.nonterminal m) := by
  unfold Rule.head? at front
  split at front
  · rename_i first rest symbols
    cases front
    simp [Item.next?, symbols]
  · cases front

private theorem awaited_foldl (seen fronts : List Nonterminal)
    (all : ∀ m ∈ fronts, Awaits text m k) :
    ∀ m ∈ fronts.foldl
      (fun fresh m => if m ∈ seen ∨ m ∈ fresh then fresh else fresh ++ [m]) [],
      Awaits text m k := by
  refine List.foldlRecOn (motive := fun fresh => ∀ m ∈ fresh, Awaits text m k) fronts _
    (fun m none => absurd none List.not_mem_nil) ?_
  intro fresh known front listed m member
  split at member
  · exact known m member
  · rcases List.mem_append.mp member with old | new
    · exact known m old
    · exact List.mem_singleton.mp new ▸ all front listed

/-- Whatever is predicted belongs to a nonterminal that is awaited, for those at the front of an
awaited one are. -/
private theorem exists_awaited (bound : Nat) (queue seen : List Nonterminal)
    (awaited : ∀ n ∈ queue, Awaits text n k) :
    ∀ r ∈ predictFrom bound queue seen, ∃ n, Awaits text n k ∧ r ∈ n.rules := by
  induction bound generalizing queue seen with
  | zero =>
    intro r member
    cases member
  | succ bound ih =>
    cases queue with
    | nil =>
      intro r member
      cases member
    | cons n queue =>
      have here := awaited n (List.mem_cons_self ..)
      have fronts : ∀ m ∈ n.rules.filterMap Rule.head?, Awaits text m k := by
        intro m member
        obtain ⟨r, listed, front⟩ := List.mem_filterMap.mp member
        exact (here.begun listed).awaits (next?_of_head? front)
      intro r member
      rcases List.mem_append.mp member with own | later
      · exact ⟨n, here, own⟩
      · refine ih _ _ (fun m queued => ?_) r later
        rcases List.mem_append.mp queued with old | new
        · exact awaited m (List.mem_cons_of_mem n old)
        · exact awaited_foldl seen _ fronts m new

theorem Awaits.predicted (awaits : Awaits text n k) (member : r ∈ n.predictions) :
    Item.Viable text k ⟨k, 0, r⟩ := by
  rw [predictions_eq] at member
  obtain ⟨m, awaited, listed⟩ :=
    exists_awaited _ [n] [n] (fun m single => List.mem_singleton.mp single ▸ awaits) r member
  exact awaited.begun listed

/-- All that the work at an offset has noted is viable; what is held was found there without any
character. -/
structure Work.Viable (text : List Char) (k : Nat) (w : Work) : Prop where
  column : ∀ e ∈ w.column, e.item.Viable text k
  scan : ∀ e ∈ w.scan, e.item.Viable text k
  held : ∀ n m, (n, m) ∈ w.held →
    ∃ d : Derivation [.nonterminal n], Along text k d.tokens k

namespace Work.Viable

variable {w v : Work}

theorem add {e : Entry} (viable : w.Viable text k) (new : e.item.Viable text k) :
    (w.add e).Viable text k := by
  unfold Work.add
  split
  · refine { viable with scan := fun d member => ?_ }
    rcases mem_addEntry member with old | rfl
    · exact viable.scan d old
    · exact new
  · split
    · exact viable
    · refine { viable with column := fun d member => ?_ }
      rcases List.mem_append.mp member with old | single
      · exact viable.column d old
      · exact List.mem_singleton.mp single ▸ new

theorem addOver {o : Entry} {node : Node} (viable : w.Viable text k)
    (base : o.item.Viable text j) (expects : o.item.next? = some (.nonterminal n))
    (d : Derivation [.nonterminal n]) (along : Along text j d.tokens k) :
    (w.addOver o node k).Viable text k :=
  add (w := { w with edges := addEdge w.edges (o.over (.node node) k).2 })
    ⟨viable.column, viable.scan, viable.held⟩ (base.advance expects d along)

theorem change {earlier : Array (List Entry)}
    (history : ∀ (j : Nat) (o : Entry), o ∈ earlier[j]?.getD [] → o.item.Viable text j)
    (change : Work.Change earlier k w v) (viable : w.Viable text k) : v.Viable text k := by
  cases change with
  | predict known expects member =>
    exact viable.add (((viable.column _ known).awaits expects).predicted member)
  | empty => exact ⟨viable.column, viable.scan, viable.held⟩
  | @hold e known finished here named =>
    refine { viable with held := ?_ }
    intro n m member
    rcases List.mem_cons.mp member with same | old
    · cases same
      obtain ⟨d, along⟩ := (viable.column e known).whole finished
      exact ⟨d, here ▸ along⟩
    · exact viable.held n m old
  | @complete e o known finished named waiting expects =>
    obtain ⟨d, along⟩ := (viable.column e known).whole finished
    refine viable.addOver (j := e.item.start) ?_ expects d along
    unfold Work.entriesAt at waiting
    split at waiting
    · rename_i here
      rw [here]
      exact viable.column o waiting
    · exact history _ o waiting
  | @resume o n node known expects held =>
    obtain ⟨d, along⟩ := viable.held n node held
    exact viable.addOver (viable.column o known) expects d along

theorem kept {earlier : Array (List Entry)}
    (history : ∀ (j : Nat) (o : Entry), o ∈ earlier[j]?.getD [] → o.item.Viable text j) :
    Work.Kept earlier k (Work.Viable text k) where
  take _ _ _ viable := ⟨viable.column, viable.scan, viable.held⟩
  change _ _ change viable := viable.change history change

end Work.Viable

/-- All that a chart holds at an offset is viable, and what is pending is so where it arrives. -/
structure Chart.Viable (text : List Char) (k : Nat) (c : Chart) : Prop where
  size : c.columns.size = k
  columns : ∀ (j : Nat) (e : Entry), e ∈ c.columns[j]?.getD [] → e.item.Viable text j
  column : ∀ e ∈ c.column, e.item.Viable text k
  scan : ∀ e ∈ c.scan, e.item.Viable text k
  pending : ∀ p ∈ c.pending, p.item.Viable text p.stop

namespace Chart.Viable

theorem initial (text : List Char) : Chart.initial.Viable text 0 := by
  have predicted : ∀ e ∈ Nonterminal.start.predictions.map
      (fun r => (⟨⟨0, 0, r⟩, none⟩ : Entry)), e.item.Viable text 0 := by
    intro e member
    obtain ⟨r, listed, rfl⟩ := List.mem_map.mp member
    exact (awaits_start text).predicted listed
  refine ⟨rfl, ?_, ?_, ?_, ?_⟩
  · intro j e member
    simp [Chart.initial] at member
  · exact fun e member => predicted e (List.mem_filter.mp member).1
  · exact fun e member => predicted e (List.mem_filter.mp member).1
  · intro p member
    cases member

theorem close (viable : c.Viable text k) (distinct : (c.column.map Entry.item).Nodup) :
    c.close.Viable text k := by
  have offset : c.offset = k := viable.size
  have orderly : c.opening.Orderly := ⟨fun e member => List.mem_reverse.mp member, distinct⟩
  have opening : c.opening.Viable text k :=
    ⟨viable.column, viable.scan, fun _ _ held => absurd held List.not_mem_nil⟩
  have closing : c.closing.Viable text k := by
    unfold Chart.closing
    rw [offset]
    exact (Work.Viable.kept viable.columns).run _ orderly opening
  exact ⟨viable.size, viable.columns, closing.column, closing.scan, viable.pending⟩

theorem ahead (viable : c.Viable text k) {p : Pending} (member : p ∈ c.ahead (text.drop k)) :
    p.item.Viable text p.stop := by
  have offset : c.offset = k := viable.size
  rcases List.mem_append.mp member with old | skip
  · rcases List.mem_append.mp old with old | token
    · exact viable.pending p old
    · obtain ⟨e, present, t, size, expects, found, rfl⟩ := mem_tokens token
      rw [offset]
      exact (viable.scan e present).advance expects
        (.token t ((text.drop k).take size) .nil) (.single found)
  · obtain ⟨e, size, present, found, rfl⟩ := mem_skips skip
    rw [offset]
    exact (present.elim (viable.scan e) (viable.column e)).carry (.of_separators? found)

theorem add {e : Entry} (viable : c.Viable text k) (new : e.item.Viable text k) :
    (c.add e).Viable text k := by
  unfold Chart.add
  split
  · refine { viable with scan := fun d member => ?_ }
    rcases mem_addEntry member with old | rfl
    · exact viable.scan d old
    · exact new
  · refine { viable with column := fun d member => ?_ }
    rcases mem_addEntry member with old | rfl
    · exact viable.column d old
    · exact new

theorem arrive {p : Pending} (viable : c.Viable text k) (new : p.item.Viable text k) :
    (c.arrive k p).Viable text k := by
  obtain ⟨stop, e, token⟩ := p
  cases token with
  | none =>
    rw [Chart.arrive_carried]
    exact viable.add new
  | some t =>
    rw [Chart.arrive_token]
    exact add (c := { c with fresh := addEdge c.fresh (e.over (.token t) k).2 })
      ⟨viable.size, viable.columns, viable.column, viable.scan, viable.pending⟩ new

theorem turned (viable : c.Viable text k) : (c.turned (text.drop k)).Viable text (k + 1) where
  size := by simp [Chart.turned, viable.size]
  columns j e member := by
    rcases Backed.getD_push _ _ _ _ member with old | ⟨last, new⟩
    · exact viable.columns j e old
    · rw [last, viable.size]
      exact viable.column e new
  column e member := by cases member
  scan e member := by cases member
  pending p member := viable.ahead (List.mem_filter.mp member).1

theorem move (viable : c.Viable text k) : (c.move (text.drop k)).Viable text (k + 1) := by
  have offset : c.offset = k := viable.size
  rw [Chart.move_eq, offset]
  refine List.foldlRecOn _ _ viable.turned fun c viable' p member => viable'.arrive ?_
  obtain ⟨goes, stop⟩ := List.mem_filter.mp member
  exact beq_iff_eq.mp stop ▸ viable.ahead goes

end Chart.Viable

theorem opened_viable (text : List Char) (k : Nat) : (opened text k).Viable text k := by
  induction k with
  | zero => exact .initial text
  | succ k ih => exact (ih.close (nodup_opened text k)).move

end SolidGeometry.Grammar
