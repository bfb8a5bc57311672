import DaoGen.Proofs.Syntax.Automaton
import DaoGen.Proofs.Syntax.Name
import DaoGen.Syntax.Stack
set_option autoImplicit false

/-!
# Stacks follow the productions

A derivation is sound when every phrase in it is made of the steps of a production and every
token is one that was scanned.  A stack is sound when its derivations are and each of them
leads from the state below to the state above.  The parts that a complete item takes off a
sound stack are the steps of its production (`Stack.Sound.pop`), and two sound stacks that
meet make a sound one (`Stack.Sound.merge`).
-/

namespace DaoGen.Syntax

/-! ## Sound derivations -/

namespace Derivation

/-- The symbol that a derivation reads. -/
def symbol : Derivation → Symbol
  | leaf number .. => .token number
  | branch phrase .. => .phrase phrase

/-- The symbols that some derivations read; comments are no parts. -/
def symbols (ds : List Derivation) : List Symbol := (ds.filter (!·.isExtra)).map (·.symbol)

theorem symbols_append (ds es : List Derivation) : symbols (ds ++ es) = symbols ds ++ symbols es := by
  unfold symbols
  rw [List.filter_append, List.map_append]

theorem symbols_of_isExtra {ds : List Derivation} (h : ∀ d ∈ ds, d.isExtra) : symbols ds = [] := by
  unfold symbols
  rw [List.filter_eq_nil_iff.2 fun d hd => by simp [h d hd], List.map_nil]

theorem symbols_of_not_isExtra {d : Derivation} (h : d.isExtra = false) :
    symbols [d] = [d.symbol] := by
  simp [symbols, h]

/-- A derivation in which tokens were scanned and phrases are made of the steps of
productions. -/
inductive Sound (a : Alphabet) (productions : List Production) : Derivation → Prop
  | leaf (token : Token) (before : List Char) (start : Text.Position) (text : List Char)
      (name : token.isNaming → IsNameText text) :
      Sound a productions (.leaf (a.number.getD token 0) token.isExtra token.isEmpty
        (.leaf .plain token.kind before start text))
  | branch (p : Production) (weight : Int) (parts : List Part) (children : List Derivation)
      (mem : p ∈ productions) (length : (symbols children).length = parts.length)
      (steps : p.steps = (symbols children).zip parts)
      (sound : ∀ d ∈ children, Sound a productions d) :
      Sound a productions (.branch p.head p.kind weight parts children)

theorem eq_or_eq_of_better (d e : Derivation) : d.better e = d ∨ d.better e = e := by
  unfold better
  split
  · exact .inr rfl
  · split
    · exact .inl rfl
    · split
      · exact .inr rfl
      · exact .inl rfl

end Derivation

/-! ## Sound stacks -/

section Stacks

variable (table : Table) (productions : List Production)

/-- A derivation leads from a state to one whose items have read it, comments apart. -/
def Leads (below : State) (d : Derivation) (above : State) : Prop :=
  ∀ n, above.Has n →
    if d.isExtra then below.Has n
    else (∃ m item, below.Has m ∧ table.items[m]? = some item ∧ item.next = some d.symbol ∧
        item.after = n) ∨
      ∃ head, (head, n) ∈ table.starts.getD d.symbol []

/-- A stack of sound derivations, each leading from the state below to the one above. -/
inductive Stack.Sound : Stack → Prop
  | top (number : Nat) (state : State) (place : Place) (weight : Int) (links : List Link)
      (state_sound : state.Sound table)
      (sound : ∀ d below, Link.over d below ∈ links → d.Sound table.alphabet productions)
      (leads : ∀ d below, Link.over d below ∈ links → Leads table below.state d state)
      (below_sound : ∀ d below, Link.over d below ∈ links → Stack.Sound below) :
      Stack.Sound (.top number state place weight links)

variable {table productions} {s : Stack} {d : Derivation}

namespace Stack

theorem Sound.state (h : s.Sound table productions) : s.state.Sound table := by
  obtain ⟨_, _, _, _, _, hstate, _, _, _⟩ := h
  exact hstate

/-- A derivation that leads on is put on a stack. -/
theorem Sound.push (h : s.Sound table productions) (hd : d.Sound table.alphabet productions)
    {state : State} (hstate : state.Sound table) (hleads : Leads table s.state d state)
    (number : Nat) (place : Place) : (s.push number state place d).Sound table productions := by
  have hlink : ∀ e below, Link.over e below ∈ [Link.over d s] → e = d ∧ below = s := by
    intro e below hmem
    exact Link.over.inj (List.mem_singleton.1 hmem)
  refine .top _ _ _ _ _ hstate (fun e below hmem => ?_) (fun e below hmem => ?_)
    fun e below hmem => ?_
  · rw [(hlink e below hmem).1]
    exact hd
  · obtain ⟨rfl, rfl⟩ := hlink e below hmem
    exact hleads
  · rw [(hlink e below hmem).2]
    exact h

/-! ## Taking parts off -/

theorem pop_zero (above : List (Derivation × Place)) (s : Stack) : s.pop above 0 = [(s, above)] := by
  obtain ⟨number, state, place, weight, links⟩ := s
  rw [pop]

theorem exists_link_of_mem_popLinks {above : List (Derivation × Place)} {count : Nat} {place : Place}
    {links : List Link} {descent : Descent} (h : descent ∈ popLinks above count place links) :
    ∃ d below, Link.over d below ∈ links ∧
      descent ∈ pop ((d, place) :: above) (if d.isExtra then count + 1 else count) below := by
  induction links with
  | nil =>
    rw [popLinks] at h
    cases h
  | cons link rest ih =>
    obtain ⟨d, below⟩ := link
    rw [popLinks] at h
    rcases List.mem_append.1 h with h | h
    · exact ⟨d, below, List.mem_cons_self, h⟩
    · obtain ⟨d', below', hmem, hdescent⟩ := ih h
      exact ⟨d', below', List.mem_cons_of_mem _ hmem, hdescent⟩

theorem exists_link_of_mem_popAllLinks {above : List Derivation} {links : List Link}
    {ds : List Derivation} (h : ds ∈ popAllLinks above links) :
    ∃ d below, Link.over d below ∈ links ∧ ds ∈ popAll (d :: above) below := by
  induction links with
  | nil =>
    rw [popAllLinks] at h
    cases h
  | cons link rest ih =>
    obtain ⟨d, below⟩ := link
    rw [popAllLinks] at h
    rcases List.mem_append.1 h with h | h
    · exact ⟨d, below, List.mem_cons_self, h⟩
    · obtain ⟨d', below', hmem, hds⟩ := ih h
      exact ⟨d', below', List.mem_cons_of_mem _ hmem, hds⟩

/-- What an item takes off a stack: sound parts that read the symbols of its production. -/
structure Takes (table : Table) (productions : List Production) (dotted : Dotted)
    (above : List (Derivation × Place)) (descent : Descent) : Prop where
  below : descent.1.Sound table productions
  parts : ∃ own, descent.2 = own ++ above ∧
    (∀ entry ∈ own, entry.1.Sound table.alphabet productions) ∧
    dotted.Fits productions (Derivation.symbols (own.map (·.1)))

theorem Takes.of_isExtra {dotted : Dotted} {above : List (Derivation × Place)} {descent : Descent}
    {place : Place} (hd : d.Sound table.alphabet productions) (hextra : d.isExtra)
    (h : Takes table productions dotted ((d, place) :: above) descent) :
    Takes table productions dotted above descent := by
  obtain ⟨hbelow, own, hown, hsound, hfits⟩ := h
  refine ⟨hbelow, own ++ [(d, place)], ?_, ?_, ?_⟩
  · rw [hown, List.append_assoc, List.singleton_append]
  · intro entry hentry
    rcases List.mem_append.1 hentry with hentry | hentry
    · exact hsound entry hentry
    · rw [List.mem_singleton.1 hentry]
      exact hd
  · have hnone : Derivation.symbols [d] = [] := by
      refine Derivation.symbols_of_isExtra fun e he => ?_
      rw [List.mem_singleton.1 he]
      exact hextra
    rw [List.map_append, Derivation.symbols_append, List.map_singleton, hnone, List.append_nil]
    exact hfits

/-- What an item takes off a stack is what it took before its last step, and that step. -/
theorem Takes.advance {dotted : Dotted} {above : List (Derivation × Place)} {descent : Descent}
    {place : Place} {part : Part} {rest : List (Symbol × Part)}
    (hd : d.Sound table.alphabet productions) (hextra : d.isExtra = false)
    (hrest : dotted.rest = (d.symbol, part) :: rest)
    (h : Takes table productions dotted ((d, place) :: above) descent) :
    Takes table productions { dotted with done := dotted.done ++ [part], rest } above descent := by
  obtain ⟨hbelow, own, hown, hsound, hfits⟩ := h
  refine ⟨hbelow, own ++ [(d, place)], ?_, ?_, ?_⟩
  · rw [hown, List.append_assoc, List.singleton_append]
  · intro entry hentry
    rcases List.mem_append.1 hentry with hentry | hentry
    · exact hsound entry hentry
    · rw [List.mem_singleton.1 hentry]
      exact hd
  · rw [List.map_append, Derivation.symbols_append, List.map_singleton,
      Derivation.symbols_of_not_isExtra hextra]
    exact hfits.advance hrest

/-- What an item takes off a stack is what stood below its last part, and that part. -/
theorem Takes.of_leads (htable : table.Sound productions) {state : State} {below : Stack}
    (hd : d.Sound table.alphabet productions) (hleads : Leads table below.state d state)
    (hbelow : below.Sound table productions) {n count : Nat} {item : Item} (hn : state.Has n)
    (hitem : table.items[n]? = some item) (hcount : item.dotted.done.length = count + 1)
    {above : List (Derivation × Place)} {place : Place} {descent : Descent}
    (ih : ∀ {m k : Nat} {before : Item}, below.state.Has m → table.items[m]? = some before →
      before.dotted.done.length = k → descent ∈ below.pop ((d, place) :: above) k →
      Takes table productions before.dotted ((d, place) :: above) descent)
    (h : descent ∈ below.pop ((d, place) :: above) (if d.isExtra then count + 1 else count)) :
    Takes table productions item.dotted above descent := by
  have hlead := hleads n hn
  cases hextra : d.isExtra with
  | true =>
    rw [hextra, if_pos rfl] at h hlead
    exact .of_isExtra hd hextra (ih hlead hitem hcount h)
  | false =>
    rw [hextra, if_neg Bool.false_ne_true] at h hlead
    rcases hlead with ⟨m, before, hm, hbefore, hnext, hafter⟩ | ⟨head, hstart⟩
    · obtain ⟨part, rest, hrest, other, hother, hdotted⟩ := htable.exists_after hbefore hnext
      rw [hafter, hitem] at hother
      obtain rfl := Option.some.inj hother
      rw [hdotted] at hcount ⊢
      have hlength : before.dotted.done.length = count := by simpa using hcount
      exact .advance hd hextra hrest (ih hm hbefore hlength h)
    · -- the part is the first one of its production
      obtain ⟨p, hp, part, rest, hsteps, other, hother, hdotted⟩ :=
        htable.started d.symbol head n hstart
      rw [hitem] at hother
      obtain rfl := Option.some.inj hother
      rw [hdotted] at hcount ⊢
      obtain rfl : count = 0 := by simpa [Production.dotted] using hcount.symm
      rw [pop_zero, List.mem_singleton] at h
      subst h
      refine ⟨hbelow, [(d, place)], rfl, fun entry hentry => ?_, ?_⟩
      · rw [List.mem_singleton.1 hentry]
        exact hd
      · rw [List.map_singleton, Derivation.symbols_of_not_isExtra hextra]
        exact fits_started hp hsteps

/-- The parts of an item that are taken off a sound stack are those of its production. -/
theorem Sound.pop (htable : table.Sound productions) (h : s.Sound table productions)
    {above : List (Derivation × Place)} {n count : Nat} {item : Item} (hn : s.state.Has n)
    (hitem : table.items[n]? = some item) (hcount : item.dotted.done.length = count)
    {descent : Descent} (hdescent : descent ∈ s.pop above count) :
    Takes table productions item.dotted above descent := by
  induction h generalizing above n count item with
  | top number state place weight links hstate hsound hleads hbelow ih =>
    cases count with
    | zero =>
      rw [pop_zero, List.mem_singleton] at hdescent
      subst hdescent
      obtain ⟨symbols, hfits⟩ := htable.made n item hitem
      refine ⟨.top _ _ _ _ _ hstate hsound hleads hbelow, [], rfl, fun _ hnone => ?_, ?_⟩
      · cases hnone
      · exact hfits.of_done_eq_nil (List.length_eq_zero_iff.1 hcount)
    | succ count =>
      rw [Stack.pop] at hdescent
      obtain ⟨d, below, hlink, hdescent⟩ := exists_link_of_mem_popLinks hdescent
      exact .of_leads htable (hsound d below hlink) (hleads d below hlink)
        (hbelow d below hlink) hn hitem hcount (ih d below hlink) hdescent

/-- All derivations on a sound stack are sound. -/
theorem Sound.popAll (h : s.Sound table productions) {above : List Derivation}
    (habove : ∀ d ∈ above, d.Sound table.alphabet productions) {ds : List Derivation}
    (hds : ds ∈ s.popAll above) : ∀ d ∈ ds, d.Sound table.alphabet productions := by
  induction h generalizing above with
  | top number state place weight links hstate hsound hleads hbelow ih =>
    rw [Stack.popAll] at hds
    split at hds
    · rw [List.mem_singleton.1 hds]
      exact habove
    · obtain ⟨d, below, hlink, hds⟩ := exists_link_of_mem_popAllLinks hds
      refine ih d below hlink (fun e he => ?_) hds
      rcases List.mem_cons.1 he with rfl | he
      · exact hsound e below hlink
      · exact habove e he

/-! ## Stacks that meet -/

/-- A way down from a state. -/
structure LeadsDown (table : Table) (productions : List Production) (state : State)
    (d : Derivation) (below : Stack) : Prop where
  sound : d.Sound table.alphabet productions
  leads : Leads table below.state d state
  below_sound : below.Sound table productions

theorem Sound.leadsDown (h : s.Sound table productions) {below : Stack}
    (hlink : Link.over d below ∈ s.links) : LeadsDown table productions s.state d below := by
  obtain ⟨_, _, _, _, _, -, hsound, hleads, hbelow⟩ := h
  exact ⟨hsound d below hlink, hleads d below hlink, hbelow d below hlink⟩

theorem sound_top {state : State} {links : List Link} (hstate : state.Sound table)
    (h : ∀ d below, Link.over d below ∈ links → LeadsDown table productions state d below)
    (number : Nat) (place : Place) (weight : Int) :
    (Stack.top number state place weight links).Sound table productions :=
  .top _ _ _ _ _ hstate (fun d below hlink => (h d below hlink).sound)
    (fun d below hlink => (h d below hlink).leads) fun d below hlink => (h d below hlink).below_sound

/-- Derivations of the same symbol lead between the same states. -/
theorem leads_of_alike {below above : State} {e : Derivation} (h : Leads table below e above)
    (hsymbol : d.symbol = e.symbol) (hextra : d.isExtra = e.isExtra) : Leads table below d above := by
  unfold Leads
  rw [hsymbol, hextra]
  exact h

theorem symbol_eq_of_alike {e : Derivation} {below under : Stack} (h : alike d below e under) :
    d.symbol = e.symbol ∧ d.isExtra = e.isExtra := by
  simp only [alike, Bool.and_eq_true, decide_eq_true_eq] at h
  obtain ⟨⟨⟨⟨horder, -⟩, -⟩, -⟩, hextra⟩ := h
  refine ⟨?_, hextra⟩
  cases d <;> cases e <;> simp_all [Derivation.order, Derivation.symbol]

/-- A stack made of one that meets another is sound and has the same state. -/
def Joins (table : Table) (productions : List Production) (below : Stack)
    (join : Stack → Stack) : Prop :=
  ∀ under : Stack, under.Sound table productions →
    (∀ n, under.state.Has n → below.state.Has n) →
    (join under).Sound table productions ∧ (join under).state = under.state

variable {state : State} {below : Stack} {join : Stack → Stack} {links : List Link}

theorem leadsDown_cons (hd : LeadsDown table productions state d below)
    (hlinks : ∀ e under, Link.over e under ∈ links → LeadsDown table productions state e under) :
    ∀ e under, Link.over e under ∈ Link.over d below :: links →
      LeadsDown table productions state e under := by
  intro e under hmem
  rcases List.mem_cons.1 hmem with heq | hmem
  · obtain ⟨rfl, rfl⟩ := Link.over.inj heq
    exact hd
  · exact hlinks e under hmem

/-- Links that one is joined with lead down as before. -/
theorem leadsDown_joinLinks (hd : LeadsDown table productions state d below)
    (hjoin : Joins table productions below join)
    (hlinks : ∀ e under, Link.over e under ∈ links → LeadsDown table productions state e under)
    {joined : List Link} (h : joinLinks d below join links = some joined) :
    ∀ e under, Link.over e under ∈ joined → LeadsDown table productions state e under := by
  induction links generalizing joined with
  | nil =>
    rw [joinLinks] at h
    cases h
  | cons link rest ih =>
    obtain ⟨e, under⟩ := link
    have hfirst := hlinks e under List.mem_cons_self
    have hrest : ∀ e under, Link.over e under ∈ rest → LeadsDown table productions state e under :=
      fun e under hmem => hlinks e under (List.mem_cons_of_mem _ hmem)
    rw [joinLinks] at h
    split at h
    · rename_i hsame
      obtain rfl := Option.some.inj h
      obtain ⟨hsymbol, hextra⟩ := symbol_eq_of_alike (Bool.and_eq_true_iff.1 hsame).1
      refine leadsDown_cons ?_ hrest
      split
      · exact ⟨hd.sound, leads_of_alike hfirst.leads hsymbol hextra, hfirst.below_sound⟩
      · exact hfirst
    · split at h
      · rename_i hmeets
        obtain rfl := Option.some.inj h
        have hmeets := (Bool.and_eq_true_iff.1 hmeets).2
        obtain ⟨hsound, hstate⟩ := hjoin under hfirst.below_sound fun n hn =>
          State.has_of_same (Bool.and_eq_true_iff.1 hmeets).2 hn
        refine leadsDown_cons ⟨hfirst.sound, ?_, hsound⟩ hrest
        rw [hstate]
        exact hfirst.leads
      · obtain ⟨more, hmore, rfl⟩ := Option.map_eq_some_iff.1 h
        exact leadsDown_cons hfirst (ih hrest hmore)

/-- A stack with one more way down. -/
theorem Sound.addLink (h : s.Sound table productions)
    (hd : LeadsDown table productions s.state d below) (hjoin : Joins table productions below join) :
    (addLink d below join s).Sound table productions ∧ (addLink d below join s).state = s.state := by
  have hlinks : ∀ e under, Link.over e under ∈ s.links →
      LeadsDown table productions s.state e under := fun _ _ hlink => h.leadsDown hlink
  have hstate := h.state
  obtain ⟨number, state, place, weight, links⟩ := s
  unfold Stack.addLink
  dsimp only
  split
  · rename_i joined hjoined
    exact ⟨sound_top hstate (leadsDown_joinLinks hd hjoin hlinks hjoined) _ _ _, rfl⟩
  · split
    · exact ⟨h, rfl⟩
    · refine ⟨sound_top hstate (fun e under hmem => ?_) _ _ _, rfl⟩
      rcases List.mem_append.1 hmem with hmem | hmem
      · exact hlinks e under hmem
      · obtain ⟨rfl, rfl⟩ := Link.over.inj (List.mem_singleton.1 hmem)
        exact hd

/-- Two stacks that meet go on as a sound one in the state of the first. -/
theorem Sound.merge (h : s.Sound table productions) : Joins table productions s (merge · s) := by
  induction h with
  | top number state place weight links hstate hsound hleads hbelow ih =>
    have hmerge : ∀ more : List Link, more ⊆ links → ∀ a : Stack, a.Sound table productions →
        (∀ n, a.state.Has n → state.Has n) →
        (mergeLinks a more).Sound table productions ∧ (mergeLinks a more).state = a.state := by
      intro more
      induction more with
      | nil =>
        intro _ a ha _
        rw [mergeLinks]
        exact ⟨ha, rfl⟩
      | cons link rest ihrest =>
        obtain ⟨d, below⟩ := link
        intro hsubset a ha hhas
        have hlink : Link.over d below ∈ links := hsubset List.mem_cons_self
        have hd : LeadsDown table productions a.state d below :=
          ⟨hsound d below hlink, fun n hn => hleads d below hlink n (hhas n hn),
            hbelow d below hlink⟩
        obtain ⟨hadded, hsame⟩ := ha.addLink hd (ih d below hlink)
        rw [mergeLinks, ← hsame]
        refine ihrest (fun _ hmem => hsubset (List.mem_cons_of_mem _ hmem)) _ hadded ?_
        rw [hsame]
        exact hhas
    intro a ha hhas
    exact hmerge links (fun _ hmem => hmem) a ha hhas

end Stack

end Stacks

end DaoGen.Syntax
