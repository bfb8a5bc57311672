import Mathlib.Tactic.SplitIfs
import DaoGen.Proofs.Syntax.Item
set_option autoImplicit false

/-!
# States of an automaton

A state knows the items that have been entered.  An item that is entered by a symbol was
waiting for it or is started by it (`Table.has_step`), so the symbols that lead to an item
are those of its production.  Only complete items of the state
are made phrases of (`Table.mem_complete_of_mem_reduced`).
-/

namespace DaoGen.Syntax

/-! ## Tables -/

/-- The items of a table were made of some productions. -/
structure Table.Sound (productions : List Production) (table : Table) : Prop where
  linked : ∀ (n : Nat) (item : Item), table.items[n]? = some item → item.Linked table.items
  made : ∀ (n : Nat) (item : Item), table.items[n]? = some item →
    ∃ symbols, item.dotted.Fits productions symbols
  started : ∀ (s : Symbol) (head n : Nat), (head, n) ∈ table.starts.getD s [] →
    ∃ p ∈ productions, ∃ part rest, p.steps = (s, part) :: rest ∧
      IsNumberOf table.items n (p.dotted [part] rest)
  beginning : ∀ n ∈ table.beginnings, ∃ item, table.items[n]? = some item

/-- The productions of some rules, in the numbers of their alphabet. -/
def productionsOf (rules : List Rule) : List Production :=
  (Alphabet.ofRules rules).productions rules

theorem Table.alphabet_ofRules (rules : List Rule) :
    (Table.ofRules rules).alphabet = Alphabet.ofRules rules := by
  unfold Table.ofRules
  rfl

theorem Table.sound_ofRules (rules : List Rule) :
    (Table.ofRules rules).Sound (productionsOf rules) := by
  unfold Table.ofRules
  dsimp only
  -- the beginnings are the items of the whole texts, added to those of all productions
  have hfold := List.foldlRecOn
    (((Alphabet.ofRules rules).productions rules).filter (·.head = Phrase.program.number))
    (fun found p =>
      ((Items.addFrom found.2 p [] p.steps).1 :: found.1, (Items.addFrom found.2 p [] p.steps).2))
    (motive := fun (found : List Nat × Items) => Items.Sound (productionsOf rules) found.2 ∧
      ∀ n ∈ found.1, ∃ item, found.2.items[n]? = some item)
    (b := ([], Items.ofProductions (productionsOf rules)))
    ⟨Items.sound_ofProductions _, fun n hn => by cases hn⟩ ?_
  · obtain ⟨hsound, hbeginning⟩ := hfold
    exact ⟨hsound.linked, hsound.made, hsound.started, hbeginning⟩
  · rintro ⟨found, all⟩ ⟨hsound, hbeginning⟩ p hp
    obtain ⟨hmore, item, hitem, -⟩ :=
      Items.sound_addFrom hsound (fits_whole (List.mem_filter.1 hp).1)
    refine ⟨hmore, fun n hn => ?_⟩
    rcases List.mem_cons.1 hn with rfl | hn
    · exact ⟨item, hitem⟩
    · obtain ⟨old, hold⟩ := hbeginning n hn
      exact ⟨old, (Items.extends_addFrom p p.steps []).items n old hold⟩

/-! ## States -/

/-- An item that has been entered in a state. -/
def State.Has (s : State) (n : Nat) : Prop := ∃ ahead, (n, ahead) ∈ s.kernel

/-- A state of a table: its items are known, and those that it takes for complete are. -/
structure State.Sound (table : Table) (s : State) : Prop where
  known : ∀ n, s.Has n → ∃ item, table.items[n]? = some item
  complete : ∀ entry ∈ s.complete, ∃ n, s.Has n ∧ table.items[n]? = some entry.1 ∧
    entry.1.next = none

/-- All items of a state are in another one. -/
theorem State.has_of_same {s t : State} (h : s.same t) {n : Nat} (hn : s.Has n) : t.Has n := by
  obtain ⟨ahead, hmem⟩ := hn
  unfold State.same at h
  rw [Bool.and_eq_true, Bool.or_eq_true] at h
  rcases h.2 with heq | hall
  · exact ⟨ahead, eq_of_beq heq ▸ hmem⟩
  · exact ⟨ahead, by simpa using Array.all_eq_true_iff_forall_mem.1 hall _ hmem⟩

namespace Table

variable {productions : List Production} {table : Table}

theorem mem_insertComplete {entry other : Item × TokenSet} {l : List (Item × TokenSet)}
    (h : other ∈ insertComplete entry l) : other = entry ∨ other ∈ l := by
  induction l with
  | nil => exact .inl (List.mem_singleton.1 h)
  | cons first rest ih =>
    unfold insertComplete at h
    split at h
    · exact List.mem_cons.1 h
    · rcases List.mem_cons.1 h with rfl | h
      · exact .inr List.mem_cons_self
      · exact (ih h).imp_right (List.mem_cons_of_mem _)

theorem mem_foldr_insertComplete {entry : Item × TokenSet} {l : List (Item × TokenSet)}
    (h : entry ∈ l.foldr insertComplete []) : entry ∈ l := by
  induction l with
  | nil => exact h
  | cons first rest ih =>
    rcases mem_insertComplete h with rfl | h
    · exact List.mem_cons_self
    · exact List.mem_cons_of_mem _ (ih h)

theorem sound_state {kernel : Array (Nat × TokenSet)}
    (h : ∀ entry ∈ kernel, ∃ item, table.items[entry.1]? = some item) :
    (table.state kernel).Sound table := by
  refine ⟨fun n ⟨ahead, hmem⟩ => h _ hmem, fun entry hentry => ?_⟩
  have hcomplete := mem_foldr_insertComplete hentry
  obtain ⟨hitems, hnext⟩ := List.mem_filter.1 hcomplete
  obtain ⟨⟨n, ahead⟩, hmem, rfl⟩ := List.mem_map.1 hitems
  rw [Array.mem_toList_iff] at hmem
  obtain ⟨item, hitem⟩ := h _ hmem
  have hget : table.items.getD n default = item := by
    rw [Array.getD_eq_getD_getElem?, hitem, Option.getD_some]
  refine ⟨n, ⟨ahead, hmem⟩, ?_, by simpa using hnext⟩
  dsimp only
  rw [hget, hitem]

/-- An item that is entered by a symbol was waiting for it or is started by it. -/
theorem has_step {s : State} {symbol : Symbol} {n : Nat} (h : (table.step s symbol).Has n) :
    (∃ m item, s.Has m ∧ table.items[m]? = some item ∧ item.next = some symbol ∧ item.after = n) ∨
      ∃ head, (head, n) ∈ table.starts.getD symbol [] := by
  obtain ⟨ahead, hmem⟩ := h
  unfold step at hmem
  rcases Array.mem_append.1 hmem with hmem | hmem
  · left
    obtain ⟨⟨m, ahead'⟩, hm, hadvance⟩ := Array.mem_filterMap.1 hmem
    dsimp only at hadvance
    split at hadvance
    · rename_i hnext
      obtain ⟨hafter, -⟩ := Prod.mk.inj (Option.some.inj hadvance)
      rw [Array.getD_eq_getD_getElem?] at hnext hafter
      cases hitem : table.items[m]? with
      | none =>
        rw [hitem] at hnext
        cases hnext
      | some item =>
        rw [hitem] at hnext hafter
        exact ⟨m, item, ⟨ahead', hm⟩, hitem, hnext, hafter⟩
    · cases hadvance
  · right
    obtain ⟨⟨head, m⟩, hstart, hentered⟩ := List.mem_filterMap.1 (List.mem_toArray.1 hmem)
    dsimp only at hentered
    split at hentered
    · cases hentered
    · obtain ⟨rfl, -⟩ := Prod.mk.inj (Option.some.inj hentered)
      exact ⟨head, hstart⟩

/-- The item after the next step of an item, and the step. -/
theorem Sound.exists_after (h : table.Sound productions) {m : Nat} {item : Item} {symbol : Symbol}
    (hitem : table.items[m]? = some item) (hnext : item.next = some symbol) :
    ∃ part rest, item.dotted.rest = (symbol, part) :: rest ∧
      IsNumberOf table.items item.after
        { item.dotted with done := item.dotted.done ++ [part], rest } := by
  have hlinked := h.linked m item hitem
  rw [hlinked.next] at hnext
  cases hrest : item.dotted.rest with
  | nil =>
    rw [hrest] at hnext
    cases hnext
  | cons step rest =>
    rw [hrest] at hnext
    obtain rfl := Option.some.inj hnext
    exact ⟨step.2, rest, rfl, hlinked.after step rest hrest⟩

theorem Sound.sound_step (h : table.Sound productions) (s : State) (symbol : Symbol) :
    (table.step s symbol).Sound table := by
  have hknown : ∀ n, (table.step s symbol).Has n → ∃ item, table.items[n]? = some item := by
    intro n hn
    rcases has_step hn with ⟨m, item, -, hitem, hnext, rfl⟩ | ⟨head, hstart⟩
    · obtain ⟨part, rest, -, other, hother, -⟩ := h.exists_after hitem hnext
      exact ⟨other, hother⟩
    · obtain ⟨p, -, part, rest, -, item, hitem, -⟩ := h.started symbol head n hstart
      exact ⟨item, hitem⟩
  exact sound_state fun entry hentry => hknown entry.1 ⟨entry.2, hentry⟩

theorem Sound.sound_initial (h : table.Sound productions) : table.initial.Sound table := by
  refine sound_state fun entry hentry => ?_
  obtain ⟨n, hn, rfl⟩ := List.mem_map.1 (List.mem_toArray.1 hentry)
  exact h.beginning n hn

/-! ## Items to make phrases of -/

theorem mem_of_mem_tightest {items : List Item} {item : Item} (h : item ∈ (tightest items).1) :
    item ∈ items := by
  have hkept : ∀ item ∈ (tightest items).1, item ∈ items := by
    unfold tightest
    refine List.foldlRecOn items _
      (motive := fun kept : List Item × Binding => ∀ item ∈ kept.1, item ∈ items)
      (fun _ hnone => by cases hnone) ?_
    rintro ⟨kept, binding⟩ hkept next hnext item hitem
    dsimp only at hitem
    split at hitem
    · rw [List.mem_singleton.1 hitem]
      exact hnext
    · split at hitem
      · rw [List.mem_singleton.1 hitem]
        exact hnext
      · rcases List.mem_append.1 hitem with hold | hnew
        · exact hkept item hold
        · rw [List.mem_singleton.1 hnew]
          exact hnext
      · exact hkept item hitem
  exact hkept item h

/-- Only complete items are made phrases of. -/
theorem mem_complete_of_mem_reduced {s : State} {token : Nat} {item : Item}
    (h : item ∈ (table.choice s token).reduced) : ∃ ahead, (item, ahead) ∈ s.complete := by
  have hready : item ∈ (s.complete.filter (·.2.has token)).map (·.1) := by
    generalize hready : (s.complete.filter (·.2.has token)).map (·.1) = ready
    unfold choice at h
    rw [hready] at h
    cases ready with
    | nil => cases h
    | cons first rest =>
      refine mem_of_mem_tightest ?_
      dsimp only at h
      split_ifs at h <;> first | exact h | cases h
  obtain ⟨⟨found, ahead⟩, hmem, rfl⟩ := List.mem_map.1 hready
  exact ⟨ahead, (List.mem_filter.1 hmem).1⟩

end Table

end DaoGen.Syntax
