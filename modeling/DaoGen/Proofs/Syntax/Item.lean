import Std.Data.HashMap.Lemmas
import DaoGen.Syntax.Automaton
set_option autoImplicit false

/-!
# Items of productions

The items of a table are linked: an item with a step left knows the item after that step,
and the items that a symbol starts are productions with that symbol read
(`Items.sound_ofProductions`).  So whoever follows the links reads the steps of a production
one after the other.
-/

namespace DaoGen.Syntax

/-! ## What an item has read -/

/-- A production with some parts read. -/
def Production.dotted (p : Production) (done : List Part) (rest : List (Symbol × Part)) : Dotted :=
  ⟨p.head, p.kind, p.rank, p.side, p.weight, done, rest⟩

/-- Symbols that an item may have read: those of a production, up to the step that the item
has come to. -/
def Dotted.Fits (productions : List Production) (d : Dotted) (symbols : List Symbol) : Prop :=
  ∃ p ∈ productions, d = p.dotted d.done d.rest ∧ symbols.length = d.done.length ∧
    p.steps = symbols.zip d.done ++ d.rest

section Fitting

variable {productions : List Production} {p : Production} {d : Dotted} {symbols : List Symbol}
  {s : Symbol} {part : Part} {rest : List (Symbol × Part)}

theorem fits_whole (hp : p ∈ productions) : (p.dotted [] p.steps).Fits productions [] :=
  ⟨p, hp, rfl, rfl, rfl⟩

theorem fits_started (hp : p ∈ productions) (hsteps : p.steps = (s, part) :: rest) :
    (p.dotted [part] rest).Fits productions [s] :=
  ⟨p, hp, rfl, rfl, hsteps⟩

/-- One more symbol is read. -/
theorem Dotted.Fits.advance (h : d.Fits productions symbols) (hrest : d.rest = (s, part) :: rest) :
    Dotted.Fits productions { d with done := d.done ++ [part], rest } (symbols ++ [s]) := by
  obtain ⟨p, hp, hd, hlength, hsteps⟩ := h
  refine ⟨p, hp, ?_, ?_, ?_⟩
  · rw [hd]
    rfl
  · simp [hlength]
  · rw [hsteps, hrest, List.zip_append hlength, List.append_assoc]
    rfl

/-- An item that has read nothing fits the empty list of symbols. -/
theorem Dotted.Fits.of_done_eq_nil (h : d.Fits productions symbols) (hdone : d.done = []) :
    d.Fits productions [] := by
  have hnil : symbols = [] := by
    obtain ⟨_, _, _, hlength, _⟩ := h
    rw [hdone] at hlength
    exact List.length_eq_zero_iff.1 hlength
  rw [hnil] at h
  exact h

/-- A complete item has read all steps of a production. -/
theorem Dotted.Fits.steps_eq (h : d.Fits productions symbols) (hrest : d.rest = []) :
    ∃ p ∈ productions, p.head = d.head ∧ p.kind = d.kind ∧ symbols.length = d.done.length ∧
      p.steps = symbols.zip d.done := by
  obtain ⟨p, hp, hd, hlength, hsteps⟩ := h
  refine ⟨p, hp, ?_, ?_, hlength, ?_⟩
  · rw [hd]
    rfl
  · rw [hd]
    rfl
  · rw [hsteps, hrest, List.append_nil]

end Fitting

/-! ## Linked items -/

/-- The number of an item that stands for a production read up to some step. -/
def IsNumberOf (items : Array Item) (n : Nat) (dotted : Dotted) : Prop :=
  ∃ item, items[n]? = some item ∧ item.dotted = dotted

/-- An item has the length and the next symbol of its production, and knows the item after
its next step. -/
structure Item.Linked (items : Array Item) (item : Item) : Prop where
  length : item.length = item.dotted.done.length
  next : item.next = item.dotted.rest.head?.map (·.1)
  after : ∀ step rest, item.dotted.rest = step :: rest →
    IsNumberOf items item.after { item.dotted with done := item.dotted.done ++ [step.2], rest }

/-- Items that were made of some productions. -/
structure Items.Sound (productions : List Production) (all : Items) : Prop where
  /-- numbers lead to their items -/
  numbered : ∀ (dotted : Dotted) (n : Nat), all.number[dotted]? = some n →
    IsNumberOf all.items n dotted
  linked : ∀ (n : Nat) (item : Item), all.items[n]? = some item → item.Linked all.items
  /-- items are productions read up to some step -/
  made : ∀ (n : Nat) (item : Item), all.items[n]? = some item →
    ∃ symbols, item.dotted.Fits productions symbols
  /-- a symbol starts productions that have it first -/
  started : ∀ (s : Symbol) (head n : Nat), (head, n) ∈ all.starts.getD s [] →
    ∃ p ∈ productions, ∃ part rest, p.steps = (s, part) :: rest ∧
      IsNumberOf all.items n (p.dotted [part] rest)

namespace Items

variable {productions : List Production} {all more : Items}

/-- More items, with the old ones under their numbers. -/
structure Extends (all more : Items) : Prop where
  items : ∀ (n : Nat) (item : Item), all.items[n]? = some item → more.items[n]? = some item
  starts : more.starts = all.starts

theorem Extends.refl (all : Items) : Extends all all := ⟨fun _ _ h => h, rfl⟩

theorem Extends.trans {last : Items} (h : Extends all more) (h' : Extends more last) :
    Extends all last :=
  ⟨fun n item hitem => h'.items n item (h.items n item hitem), h'.starts.trans h.starts⟩

theorem Extends.isNumberOf {n : Nat} {dotted : Dotted} (h : Extends all more)
    (hn : IsNumberOf all.items n dotted) : IsNumberOf more.items n dotted := by
  obtain ⟨item, hitem, hdotted⟩ := hn
  exact ⟨item, h.items n item hitem, hdotted⟩

theorem Extends.linked {item : Item} (h : Extends all more) (hitem : item.Linked all.items) :
    item.Linked more.items :=
  ⟨hitem.length, hitem.next, fun step rest hrest => h.isNumberOf (hitem.after step rest hrest)⟩

theorem sound_empty : Sound productions {} := by
  refine ⟨fun dotted n h => ?_, fun n item h => ?_, fun n item h => ?_, fun s head n h => ?_⟩
  · simp at h
  · simp at h
  · simp at h
  · simp at h

theorem extends_add (dotted : Dotted) (after : Nat) : Extends all (all.add dotted after).2 := by
  unfold add
  split
  · exact .refl all
  · refine ⟨fun n item hitem => ?_, rfl⟩
    have hlt : n < all.items.size := (Array.getElem?_eq_some_iff.1 hitem).1
    rw [Array.getElem?_push, if_neg (Nat.ne_of_lt hlt), hitem]

/-- Adding an item whose next item is known. -/
theorem sound_add (h : Sound productions all) {dotted : Dotted} {after : Nat}
    (hafter : ∀ step rest, dotted.rest = step :: rest →
      IsNumberOf all.items after { dotted with done := dotted.done ++ [step.2], rest })
    (hmade : ∃ symbols, dotted.Fits productions symbols) :
    Sound productions (all.add dotted after).2 ∧
      IsNumberOf (all.add dotted after).2.items (all.add dotted after).1 dotted := by
  have hextends : Extends all (all.add dotted after).2 := extends_add dotted after
  unfold add at hextends ⊢
  split at hextends
  · rename_i n hn
    exact ⟨h, h.numbered dotted n hn⟩
  · dsimp only at hextends ⊢
    generalize hnew : (⟨dotted, dotted.done.length, dotted.rest.head?.map (·.1), after⟩ : Item) =
      new at hextends ⊢
    have hdotted : new.dotted = dotted := by rw [← hnew]
    have hlinked : new.Linked all.items := by
      rw [← hnew]
      exact ⟨rfl, rfl, hafter⟩
    have hlast : IsNumberOf (all.items.push new) all.items.size dotted :=
      ⟨new, Array.getElem?_push_size, hdotted⟩
    have hitem : ∀ (n : Nat) (item : Item), (all.items.push new)[n]? = some item →
        all.items[n]? = some item ∨ item = new := by
      intro n item hn
      rw [Array.getElem?_push] at hn
      split at hn
      · exact .inr (Option.some.inj hn).symm
      · exact .inl hn
    refine ⟨⟨fun other n hother => ?_, fun n item hn => ?_, fun n item hn => ?_,
      fun s head n hstart => ?_⟩, hlast⟩
    · rw [Std.HashMap.getElem?_insert] at hother
      split at hother
      · rename_i heq
        rw [← eq_of_beq heq, ← Option.some.inj hother]
        exact hlast
      · exact hextends.isNumberOf (h.numbered other n hother)
    · rcases hitem n item hn with hold | rfl
      · exact hextends.linked (h.linked n item hold)
      · exact hextends.linked hlinked
    · rcases hitem n item hn with hold | rfl
      · exact h.made n item hold
      · rw [hdotted]
        exact hmade
    · obtain ⟨p, hp, part, rest, hsteps, hnumber⟩ := h.started s head n hstart
      exact ⟨p, hp, part, rest, hsteps, hextends.isNumberOf hnumber⟩

theorem extends_addFrom (p : Production) (steps : List (Symbol × Part)) (done : List Part) :
    Extends all (all.addFrom p done steps).2 := by
  induction steps generalizing done with
  | nil => exact extends_add _ _
  | cons step rest ih => exact (ih _).trans (extends_add _ _)

/-- Adding the items of a production from some step on. -/
theorem sound_addFrom (h : Sound productions all) {p : Production} {done : List Part}
    {steps : List (Symbol × Part)} {symbols : List Symbol}
    (hfits : (p.dotted done steps).Fits productions symbols) :
    Sound productions (all.addFrom p done steps).2 ∧
      IsNumberOf (all.addFrom p done steps).2.items (all.addFrom p done steps).1
        (p.dotted done steps) := by
  induction steps generalizing done symbols with
  | nil =>
    refine sound_add h (fun step rest hrest => ?_) ⟨symbols, hfits⟩
    cases hrest
  | cons step rest ih =>
    obtain ⟨hsound, hnumber⟩ := ih (hfits.advance rfl)
    refine sound_add hsound (fun next more hrest => ?_) ⟨symbols, hfits⟩
    obtain ⟨rfl, rfl⟩ := List.cons.inj hrest
    exact hnumber

/-- Adding the items of a production and what its first symbol starts. -/
theorem sound_addProduction (h : Sound productions all) {p : Production} (hp : p ∈ productions) :
    Sound productions (all.addProduction p) := by
  unfold addProduction
  split
  · exact h
  · rename_i step rest hsteps
    obtain ⟨hsound, hnumber⟩ := sound_addFrom h (fits_started hp hsteps)
    refine ⟨hsound.numbered, hsound.linked, hsound.made, fun s head n hstart => ?_⟩
    dsimp only at hstart
    split at hstart
    · exact hsound.started s head n hstart
    · rw [Std.HashMap.getD_insert] at hstart
      split at hstart
      · rename_i heq
        rcases List.mem_cons.1 hstart with hnew | hold
        · obtain ⟨-, rfl⟩ := Prod.mk.inj hnew
          exact ⟨p, hp, step.2, rest, by rw [hsteps, ← eq_of_beq heq], hnumber⟩
        · rw [eq_of_beq heq] at hold
          exact hsound.started s head n hold
      · exact hsound.started s head n hstart

/-- The items of some productions are sound. -/
theorem sound_ofProductions (productions : List Production) :
    Sound productions (ofProductions productions) := by
  unfold ofProductions
  refine List.foldlRecOn productions _ (motive := fun all : Items => Sound productions all)
    sound_empty ?_
  intro all h p hp
  exact sound_addProduction h hp

end Items

end DaoGen.Syntax
