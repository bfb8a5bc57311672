import Mathlib.Data.List.TakeWhile
import DaoGen.Proofs.Syntax.Stack
import DaoGen.Syntax.Parse
set_option autoImplicit false

/-!
# Readings follow the productions

All stacks of a run are sound, from the first token to the last: taking a token in puts a
scanned token on a stack, and making a phrase replaces the steps of a production by its head.
So a text that can be read is the whole text of the grammar, made of sound derivations
(`isWhole_of_derivation?`).
-/

namespace DaoGen.Syntax

/-! ## Sound runs -/

section Runs

variable (table : Table) (productions : List Production)

/-- The reading of a whole text: a production of the text, with sound derivations in it. -/
def Derivation.IsWhole (d : Derivation) : Prop :=
  ∃ p ∈ productions, p.head = Phrase.program.number ∧ ∃ weight children,
    d = .branch p.head p.kind weight (p.steps.map (·.2)) children ∧
      ∀ child ∈ children, child.Sound table.alphabet productions

/-- A run with sound stacks, whose best reading is one of the whole text. -/
structure Run.Sound (run : Run) : Prop where
  readers : ∀ s, some s ∈ run.readers → s.Sound table productions
  finished : ∀ d, run.finished = some d → d.IsWhole table productions

variable {table productions} {run : Run} {s t : Stack} {i : Nat} {item : Item}

namespace Run

theorem stack?_eq_some_iff : run.stack? i = some s ↔ run.readers[i]? = some (some s) := by
  unfold stack?
  rw [Array.getD_eq_getD_getElem?]
  cases run.readers[i]? with
  | none => simp
  | some found => simp

theorem Sound.stack (h : run.Sound table productions) (hs : run.stack? i = some s) :
    s.Sound table productions :=
  h.readers s (Array.mem_of_getElem? (stack?_eq_some_iff.1 hs))

theorem Sound.set (h : run.Sound table productions) {reader : Option Stack}
    (hreader : ∀ s, reader = some s → s.Sound table productions) (i : Nat) :
    (run.set i reader).Sound table productions := by
  refine ⟨fun s hs => ?_, h.finished⟩
  rcases Array.mem_or_eq_of_mem_setIfInBounds hs with hold | hnew
  · exact h.readers s hold
  · exact hreader s hnew.symm

theorem Sound.giveUp (h : run.Sound table productions) (i : Nat) :
    (run.set i none).Sound table productions :=
  h.set (fun _ hnone => by cases hnone) i

theorem Sound.withNext (h : run.Sound table productions) (next : Nat) :
    ({ run with next } : Run).Sound table productions :=
  ⟨h.readers, h.finished⟩

/-! ## Making phrases -/

theorem Sound.enter (h : run.Sound table productions) (hs : s.Sound table productions) :
    (run.enter i s).Sound table productions := by
  unfold Run.enter
  dsimp only
  split
  · rename_i j hj
    refine h.set (fun merged hmerged => ?_) j
    obtain ⟨old, hold, rfl⟩ := Option.map_eq_some_iff.1 hmerged
    have hfound := List.find?_some hj
    rw [Bool.and_eq_true, hold, Option.map_some, Option.getD_some] at hfound
    have hmeets : old.meets s := hfound.2
    refine (hs.merge old (h.stack hold) fun n hn => ?_).1
    exact State.has_of_same (Bool.and_eq_true_iff.1 hmeets).2 hn
  · refine ⟨fun t ht => ?_, h.finished⟩
    rcases Array.mem_push.1 ht with hold | hnew
    · exact h.readers t hold
    · rw [Option.some.inj hnew]
      exact hs

/-- The stack that a phrase is made of stays where it is. -/
theorem stack?_enter (hs : run.stack? i = some s) : (run.enter i t).stack? i = some s := by
  rw [stack?_eq_some_iff] at hs ⊢
  unfold Run.enter
  dsimp only
  split
  · rename_i j hj
    have hfound := List.find?_some hj
    rw [Bool.and_eq_true, decide_eq_true_eq] at hfound
    unfold Run.set
    dsimp only
    rw [Array.getElem?_setIfInBounds, if_neg hfound.1, hs]
  · have hlt : i < run.readers.size := (Array.getElem?_eq_some_iff.1 hs).1
    dsimp only
    rw [Array.getElem?_push, if_neg (Nat.ne_of_lt hlt), hs]

/-- Parts that a complete item has read. -/
structure Makes (table : Table) (productions : List Production) (item : Item)
    (parts : List (Derivation × Place)) : Prop where
  sound : ∀ entry ∈ parts, entry.1.Sound table.alphabet productions
  fits : item.dotted.Fits productions (Derivation.symbols (parts.map (·.1)))

/-- Ways down in groups: below each is a sound stack, and above are parts of the item. -/
theorem makes_of_mem_group {descents : List Stack.Descent}
    (h : ∀ descent ∈ descents, descent.1.Sound table productions ∧
      Makes table productions item descent.2) :
    ∀ found ∈ group descents, found.1.Sound table productions ∧
      ∀ parts ∈ found.2, Makes table productions item parts := by
  unfold group
  refine List.foldlRecOn descents _
    (motive := fun groups : List (Stack × List (List (Derivation × Place))) =>
      ∀ found ∈ groups, found.1.Sound table productions ∧
        ∀ parts ∈ found.2, Makes table productions item parts) (fun _ hnone => by cases hnone) ?_
  rintro groups hgroups ⟨base, parts⟩ hdescent found hfound
  obtain ⟨hbase, hparts⟩ := h _ hdescent
  dsimp only at hfound
  split at hfound
  · obtain ⟨⟨other, others⟩, hother, rfl⟩ := List.mem_map.1 hfound
    obtain ⟨hsound, hmakes⟩ := hgroups _ hother
    dsimp only
    split
    · refine ⟨hsound, fun more hmore => ?_⟩
      rcases List.mem_append.1 hmore with hold | hnew
      · exact hmakes more hold
      · rw [List.mem_singleton.1 hnew]
        exact hparts
    · exact ⟨hsound, hmakes⟩
  · rcases List.mem_append.1 hfound with hold | hnew
    · exact hgroups found hold
    · rw [List.mem_singleton.1 hnew]
      refine ⟨hbase, fun more hmore => ?_⟩
      rw [List.mem_singleton.1 hmore]
      exact hparts

/-- A sound phrase of a complete item. -/
structure IsPhraseOf (table : Table) (productions : List Production) (item : Item)
    (d : Derivation) : Prop where
  sound : d.Sound table.alphabet productions
  symbol : d.symbol = .phrase item.dotted.head
  isExtra : d.isExtra = false

/-- The parts of a complete item make a phrase, and comments follow it. -/
theorem isPhraseOf_phraseOf (hrest : item.dotted.rest = []) {parts : List (Derivation × Place)}
    (h : Makes table productions item parts) :
    IsPhraseOf table productions item (phraseOf item parts).1 ∧
      ∀ comment ∈ (phraseOf item parts).2, comment.1.isExtra ∧
        comment.1.Sound table.alphabet productions := by
  generalize hinner : (parts.reverse.dropWhile (·.1.isExtra)).reverse = inner
  generalize htrailing : (parts.reverse.takeWhile (·.1.isExtra)).reverse = trailing
  have hparts : parts = inner ++ trailing := by
    rw [← hinner, ← htrailing, ← List.reverse_append, List.takeWhile_append_dropWhile,
      List.reverse_reverse]
  have hextra : ∀ entry ∈ trailing, entry.1.isExtra := by
    intro entry hentry
    rw [← htrailing, List.mem_reverse] at hentry
    exact List.mem_takeWhile_imp (p := fun entry : Derivation × Place => entry.1.isExtra) hentry
  have hphrase : phraseOf item parts = (.ofItem item (inner.map (·.1)), trailing) := by
    unfold phraseOf
    dsimp only
    rw [hinner, hparts, List.drop_left]
  have hsymbols : Derivation.symbols (parts.map (·.1)) = Derivation.symbols (inner.map (·.1)) := by
    have hnone : Derivation.symbols (trailing.map (·.1)) = [] := by
      refine Derivation.symbols_of_isExtra fun d hd => ?_
      obtain ⟨entry, hentry, rfl⟩ := List.mem_map.1 hd
      exact hextra entry hentry
    rw [hparts, List.map_append, Derivation.symbols_append, hnone, List.append_nil]
  obtain ⟨p, hp, hhead, hkind, hlength, hsteps⟩ := h.fits.steps_eq hrest
  rw [hsymbols] at hlength hsteps
  rw [hphrase]
  refine ⟨⟨?_, rfl, rfl⟩, fun comment hcomment => ⟨hextra comment hcomment, h.sound comment ?_⟩⟩
  · unfold Derivation.ofItem
    rw [← hhead, ← hkind]
    refine .branch p _ _ _ hp hlength hsteps fun d hd => ?_
    obtain ⟨entry, hentry, rfl⟩ := List.mem_map.1 hd
    exact h.sound entry (hparts ▸ List.mem_append_left _ hentry)
  · exact hparts ▸ List.mem_append_right _ hcomment

/-- A phrase leads on from every state to the one after its head. -/
theorem leads_step (below : State) {d : Derivation} (hextra : d.isExtra = false) :
    Leads table below d (table.step below d.symbol) := by
  intro n hn
  rw [hextra, if_neg Bool.false_ne_true]
  exact Table.has_step hn

/-- A comment leads on in the same state. -/
theorem leads_of_isExtra (below : State) {d : Derivation} (hextra : d.isExtra) :
    Leads table below d below := by
  intro n hn
  rw [if_pos hextra]
  exact hn

theorem IsPhraseOf.leads {d : Derivation} (h : IsPhraseOf table productions item d) (below : State) :
    Leads table below d (table.step below (.phrase item.dotted.head)) := by
  rw [← h.symbol]
  exact leads_step below h.isExtra

/-- Comments that follow a phrase are put on its stack one after the other. -/
theorem sound_foldl_push {comments : List (Derivation × Place)}
    (h : ∀ comment ∈ comments, comment.1.isExtra ∧
      comment.1.Sound table.alphabet productions) {state : State} (start : Stack × Nat)
    (hstart : start.1.Sound table productions ∧ start.1.state = state) :
    (comments.foldl (fun (s, next) (comment, place) =>
      (Stack.push next state place comment s, next + 1)) start).1.Sound table productions := by
  have hpushed := List.foldlRecOn comments (fun (s, next) (comment, place) =>
      (Stack.push next state place comment s, next + 1))
    (motive := fun found : Stack × Nat => found.1.Sound table productions ∧ found.1.state = state)
    hstart ?_
  · exact hpushed.1
  · rintro ⟨s, next⟩ ⟨hs, hstate⟩ ⟨comment, place⟩ hcomment
    obtain ⟨hextra, hsound⟩ := h _ hcomment
    have hstate : s.state = state := hstate
    subst hstate
    exact ⟨hs.push hsound hs.state (leads_of_isExtra _ hextra) _ _, rfl⟩

/-- The best of some phrases of an item is one of them. -/
theorem isPhraseOf_foldl_better (hrest : item.dotted.rest = [])
    {others : List (List (Derivation × Place))}
    (h : ∀ parts ∈ others, Makes table productions item parts) {d : Derivation}
    (hd : IsPhraseOf table productions item d) :
    IsPhraseOf table productions item
      (others.foldl (fun best parts => best.better (phraseOf item parts).1) d) := by
  refine List.foldlRecOn others _
    (motive := fun best : Derivation => IsPhraseOf table productions item best) hd ?_
  intro best hbest parts hparts
  rcases Derivation.eq_or_eq_of_better best (phraseOf item parts).1 with heq | heq
  · rw [heq]
    exact hbest
  · rw [heq]
    exact (isPhraseOf_phraseOf hrest (h parts hparts)).1

theorem Sound.reduceOnto (htable : table.Sound productions) (h : run.Sound table productions)
    (hrest : item.dotted.rest = []) {found : Stack × List (List (Derivation × Place))}
    (hfound : found.1.Sound table productions ∧
      ∀ parts ∈ found.2, Makes table productions item parts) (i : Nat) :
    (reduceOnto table item i run found).Sound table productions := by
  obtain ⟨base, parts⟩ := found
  obtain ⟨hbase, hparts⟩ := hfound
  cases parts with
  | nil => exact h
  | cons first others =>
    unfold Run.reduceOnto
    dsimp only
    split
    · exact h
    · obtain ⟨hfirst, hcomments⟩ :=
        isPhraseOf_phraseOf hrest (hparts first List.mem_cons_self)
      have hphrase := isPhraseOf_foldl_better hrest
        (fun more hmore => hparts more (List.mem_cons_of_mem _ hmore)) hfirst
      refine (h.withNext _).enter (sound_foldl_push hcomments _ ⟨?_, rfl⟩)
      exact hbase.push hphrase.sound (htable.sound_step _ _) (hphrase.leads base.state) _ _

theorem stack?_reduceOnto {found : Stack × List (List (Derivation × Place))}
    (hs : run.stack? i = some s) : (reduceOnto table item i run found).stack? i = some s := by
  obtain ⟨base, parts⟩ := found
  cases parts with
  | nil => exact hs
  | cons first others =>
    unfold Run.reduceOnto
    dsimp only
    split
    · exact hs
    · exact stack?_enter hs

/-- A complete item of a stack's state. -/
structure IsComplete (table : Table) (s : Stack) (item : Item) : Prop where
  has : ∃ n, s.state.Has n ∧ table.items[n]? = some item
  next : item.next = none

theorem isComplete_of_mem_reduced (hs : s.Sound table productions) {token : Nat}
    (h : item ∈ (table.choice s.state token).reduced) : IsComplete table s item := by
  obtain ⟨ahead, hcomplete⟩ := Table.mem_complete_of_mem_reduced h
  obtain ⟨n, hn, hitem, hnext⟩ := hs.state.complete _ hcomplete
  exact ⟨⟨n, hn, hitem⟩, hnext⟩

theorem IsComplete.rest_eq_nil (htable : table.Sound productions) (h : IsComplete table s item) :
    item.dotted.rest = [] := by
  obtain ⟨n, -, hitem⟩ := h.has
  have hnext := (htable.linked n item hitem).next
  rw [h.next] at hnext
  cases hrest : item.dotted.rest with
  | nil => rfl
  | cons step rest =>
    rw [hrest] at hnext
    cases hnext

/-- Making a phrase keeps all stacks sound, and the one it is made of where it is. -/
theorem Sound.reduce (htable : table.Sound productions) (h : run.Sound table productions)
    (hs : run.stack? i = some s) (hitem : IsComplete table s item) :
    (reduce table i item run).Sound table productions ∧
      (reduce table i item run).stack? i = some s := by
  obtain ⟨n, hn, hget⟩ := hitem.has
  have hlength := (htable.linked n item hget).length
  have hpop : ∀ descent ∈ s.pop [] item.length, descent.1.Sound table productions ∧
      Makes table productions item descent.2 := by
    intro descent hdescent
    obtain ⟨hbelow, own, hown, hsound, hfits⟩ :=
      (h.stack hs).pop htable hn hget hlength.symm hdescent
    rw [List.append_nil] at hown
    exact ⟨hbelow, hown ▸ hsound, hown ▸ hfits⟩
  unfold Run.reduce
  rw [hs]
  dsimp only
  refine List.foldlRecOn (group (s.pop [] item.length)) _
    (motive := fun run : Run => run.Sound table productions ∧ run.stack? i = some s) ⟨h, hs⟩ ?_
  intro run hrun found hfound
  exact ⟨hrun.1.reduceOnto htable (hitem.rest_eq_nil htable)
    (makes_of_mem_group hpop found hfound) i, stack?_reduceOnto hrun.2⟩

/-- Making all phrases of some items keeps all stacks sound. -/
theorem sound_foldl_reduce (htable : table.Sound productions) (h : run.Sound table productions)
    (hs : run.stack? i = some s) {items : List Item}
    (hitems : ∀ item ∈ items, IsComplete table s item) :
    (items.foldl (fun (run, last) item =>
      let after := Run.reduce table i item run
      (after, if run.readers.size < after.readers.size then some run.readers.size else last))
      (run, (none : Option Nat))).1.Sound table productions := by
  have hfold := List.foldlRecOn items (fun (run, last) item =>
      let after := Run.reduce table i item run
      (after, if run.readers.size < after.readers.size then some run.readers.size else last))
    (motive := fun found : Run × Option Nat =>
      found.1.Sound table productions ∧ found.1.stack? i = some s) (b := (run, none)) ⟨h, hs⟩ ?_
  · exact hfold.1
  · rintro ⟨run, last⟩ hrun item hitem
    exact Sound.reduce htable hrun.1 hrun.2 (hitems item hitem)

/-- A stack that has read the whole text ends with a reading of it. -/
theorem Sound.accept (htable : table.Sound productions) (h : run.Sound table productions)
    (hs : run.stack? i = some s) (hitem : IsComplete table s item)
    (hprogram : item.dotted.head = Phrase.program.number) :
    (accept i item run).Sound table productions := by
  unfold Run.accept
  rw [hs]
  dsimp only
  refine Sound.giveUp (.mk ?_ ?_) i
  · exact h.readers
  obtain ⟨n, -, hget⟩ := hitem.has
  obtain ⟨symbols, hfits⟩ := htable.made n item hget
  obtain ⟨p, hp, hhead, hkind, hlength, hsteps⟩ := hfits.steps_eq (hitem.rest_eq_nil htable)
  have hdone : p.steps.map (·.2) = item.dotted.done := by
    rw [hsteps]
    exact List.map_snd_zip (Nat.le_of_eq hlength.symm)
  refine List.foldlRecOn ((s.popAll []).map (Derivation.ofItem item)) _
    (motive := fun finished : Option Derivation =>
      ∀ d, finished = some d → d.IsWhole table productions) h.finished ?_
  intro best hbest reading hreading d hd
  obtain ⟨ds, hds, rfl⟩ := List.mem_map.1 hreading
  have hwhole : (Derivation.ofItem item ds).IsWhole table productions := by
    refine ⟨p, hp, hhead.trans hprogram,
      ds.foldl (fun sum d => sum + d.weight) item.dotted.weight, ds, ?_, ?_⟩
    · unfold Derivation.ofItem
      rw [hdone, hhead, hkind]
    · exact (h.stack hs).popAll (fun _ hnone => by cases hnone) hds
  split at hd
  · rename_i found
    rcases Derivation.eq_or_eq_of_better found (.ofItem item ds) with heq | heq
    · rw [heq] at hd
      exact hbest d hd
    · rw [heq] at hd
      rw [← Option.some.inj hd]
      exact hwhole
  · rw [← Option.some.inj hd]
    exact hwhole

/-! ## Taking tokens in -/

/-- A token that is taken in has the text that it was scanned with. -/
theorem Sound.shift (htable : table.Sound productions) (h : run.Sound table productions)
    {lexed : Lexed} {token : Token} (hname : token.isNaming → IsNameText lexed.text) :
    (run.shift table i lexed token).Sound table productions := by
  unfold Run.shift
  split
  · exact h
  · rename_i s hs
    refine (h.withNext _).set (fun t ht => ?_) i
    rw [← Option.some.inj ht]
    have hleaf : (leafOf table s.place lexed token).1.Sound table.alphabet productions :=
      .leaf token _ _ _ hname
    split
    · rename_i hextra
      exact (h.stack hs).push hleaf (h.stack hs).state (leads_of_isExtra _ hextra) _ _
    · rename_i hextra
      have hleads : Leads table s.state (leafOf table s.place lexed token).1 _ :=
        leads_step s.state (Bool.eq_false_iff.2 hextra)
      exact (h.stack hs).push hleaf (htable.sound_step _ _) hleads _ _

theorem Sound.replace (h : run.Sound table productions) (i j : Nat) :
    (run.replace i j).Sound table productions := by
  refine ⟨fun s hs => ?_, h.finished⟩
  have hset : some s ∈ run.readers.setIfInBounds i (run.stack? j) := by
    unfold Run.replace Array.eraseIdxIfInBounds at hs
    dsimp only at hs
    split at hs
    · exact Array.mem_of_mem_eraseIdx hs
    · exact hs
  rcases Array.mem_or_eq_of_mem_setIfInBounds hset with hold | hnew
  · exact h.readers s hold
  · exact h.stack hnew.symm

/-- Phrases are made until the token can be taken in. -/
theorem Sound.consume (htable : table.Sound productions) {lexed : Lexed} (bound : Nat)
    {token : Token} (hname : token.isNaming → IsNameText lexed.text)
    (h : run.Sound table productions) :
    (run.consume table i lexed bound token).Sound table productions := by
  induction bound generalizing token run with
  | zero => exact h.giveUp i
  | succ bound ih =>
    unfold Run.consume
    split
    · exact h
    · rename_i s hs
      split
      · exact h.shift htable hname
      · dsimp only
        have hcomplete : ∀ item ∈ (table.choice s.state (table.alphabet.number.getD token 0)).reduced,
            IsComplete table s item :=
          fun item hitem => isComplete_of_mem_reduced (h.stack hs) hitem
        generalize hchoice : table.choice s.state (table.alphabet.number.getD token 0) = choice
          at hcomplete ⊢
        split
        · rename_i item hitem
          have hprogram : item.dotted.head = Phrase.program.number := by
            simpa using List.find?_some hitem
          exact h.accept htable hs (hcomplete item (List.mem_of_find?_eq_some hitem)) hprogram
        · have hafter := sound_foldl_reduce htable h hs hcomplete
          split
          · exact hafter.shift htable hname
          · split
            · exact ih hname (hafter.replace i _)
            · split
              · -- a word that has no meaning here is a name
                rename_i word
                split
                · exact ih (fun _ => hname rfl) h
                · exact hafter.giveUp i
              · exact hafter.giveUp i

theorem Sound.advance (htable : table.Sound productions) (h : run.Sound table productions)
    (bound i : Nat) : (run.advance table bound i).Sound table productions := by
  unfold Run.advance
  split
  · exact h
  · split
    · exact h.giveUp i
    · rename_i lexed hlexed
      exact Sound.consume htable bound (isNameText_of_scan hlexed) h

theorem Sound.advanceFar (htable : table.Sound productions) (h : run.Sound table productions)
    (limit i bound : Nat) : (run.advanceFar table limit i bound).Sound table productions := by
  induction bound generalizing run with
  | zero => exact h.giveUp i
  | succ bound ih =>
    have hafter := h.advance htable limit i
    unfold Run.advanceFar
    dsimp only
    split
    · exact hafter
    · split
      · exact ⟨hafter.readers, hafter.finished⟩
      · exact ih hafter

theorem Sound.round (htable : table.Sound productions) (h : run.Sound table productions)
    (limit bound i : Nat) : (run.round table limit bound i).Sound table productions := by
  induction bound generalizing run i with
  | zero => exact h
  | succ bound ih =>
    unfold Run.round
    split
    · exact h
    · exact ih (h.advanceFar htable limit i limit) (i + 1)

/-! ## Keeping stacks -/

theorem sound_of_mem_keep_go {weight : Int} {kept : List Stack}
    (hkept : ∀ t ∈ kept, t.Sound table productions) (hs : s.Sound table productions) :
    ∀ t ∈ keep.go weight kept s, t.Sound table productions := by
  induction kept generalizing s with
  | nil =>
    intro t ht
    rw [keep.go] at ht
    rw [List.mem_singleton.1 ht]
    exact hs
  | cons other rest ih =>
    have hother := hkept other List.mem_cons_self
    have hrest : ∀ t ∈ rest, t.Sound table productions :=
      fun t ht => hkept t (List.mem_cons_of_mem _ ht)
    intro t ht
    rw [keep.go] at ht
    split at ht
    · rename_i hmeets
      rcases List.mem_cons.1 ht with rfl | ht
      · exact (hs.merge other hother fun n hn =>
          State.has_of_same (Bool.and_eq_true_iff.1 hmeets).2 hn).1
      · exact hrest t ht
    · split at ht
      · rcases List.mem_cons.1 ht with rfl | ht
        · exact hs
        · exact ih hrest hother t ht
      · rcases List.mem_cons.1 ht with rfl | ht
        · exact hother
        · exact ih hrest hs t ht

theorem Sound.condense (h : run.Sound table productions) :
    run.condense.Sound table productions := by
  have hkept : ∀ t ∈ (run.readers.toList.filterMap id).foldl keep [],
      t.Sound table productions := by
    refine List.foldlRecOn (run.readers.toList.filterMap id) _
      (motive := fun kept : List Stack => ∀ t ∈ kept, t.Sound table productions)
      (fun _ hnone => by cases hnone) ?_
    intro kept hkept s hs
    obtain ⟨reader, hreader, rfl⟩ := List.mem_filterMap.1 hs
    exact sound_of_mem_keep_go hkept (h.readers s (Array.mem_toList_iff.1 hreader))
  refine ⟨fun s hs => ?_, h.finished⟩
  obtain ⟨t, ht, heq⟩ := List.mem_map.1 (List.mem_toArray.1 hs)
  rw [← Option.some.inj heq]
  exact hkept t (List.mem_of_mem_take ht)

theorem Sound.toEnd (htable : table.Sound productions) (h : run.Sound table productions)
    (limit bound : Nat) : (run.toEnd table limit bound).Sound table productions := by
  induction bound generalizing run with
  | zero => exact h
  | succ bound ih =>
    unfold Run.toEnd
    split
    · exact h
    · exact ih (h.round htable limit limit 0).condense

end Run

end Runs

/-- The reading of a text is one of the whole text by the productions of the grammar. -/
theorem isWhole_of_derivation? {text : List Char} {d : Derivation} (h : derivation? text = some d) :
    d.IsWhole grammarTable (productionsOf Grammar.rules) := by
  have htable : grammarTable.Sound (productionsOf Grammar.rules) :=
    Table.sound_ofRules Grammar.rules
  unfold derivation? at h
  split at h
  · cases h
  · refine (Run.Sound.toEnd htable ⟨fun s hs => ?_, fun d hd => ?_⟩ _ _).finished d h
    · obtain rfl : s = _ := Option.some.inj (Array.mem_singleton.1 hs)
      exact Stack.sound_top htable.sound_initial (fun _ _ hnone => by cases hnone) _ _ _
    · cases hd

end DaoGen.Syntax
