import DaoGen.Schema.Registry
import Mathlib.Data.List.Basic
set_option autoImplicit false

/-!
# Remembered answers are right

A walk remembers answers while other questions are open, and it answers "no id type" to a
question that is open itself.  Both are right:

* the open questions are a trail of classes without an id type of their own that leads to
  the class asked for (`Trail`), so a class that is met again is on a circle of such
  classes and has no id type (`Trail.idTypeOf_eq_none`);
* the answer for a class is the answer for its parent unless the class decides itself
  (`idTypeOf_of_parent`), whatever is open, so every remembered answer is final.

So a walk gives the answers that the chains of parents give by themselves, and the
registry holds the tables with an identifying field on their chain.
-/

namespace DaoGen.Schema

variable {p : Program}

/-! ## The class that decides -/

/-- The identifying field that decides about a class is declared some parents up. -/
inductive FoundAt (p : Program) : Nat → ClassId → Found → Prop
  | here {id : ClassId} {found : Found} (hown : ownIdType p id = some found) : FoundAt p 0 id found
  | up {n : Nat} {id parent : ClassId} {found : Found} (hown : ownIdType p id = none)
      (hparent : p.parentOf id = some parent) (h : FoundAt p n parent found) :
      FoundAt p (n + 1) id found

theorem FoundAt.unique {n m : Nat} {id : ClassId} {found other : Found} (h : FoundAt p n id found)
    (h' : FoundAt p m id other) : n = m ∧ found = other := by
  induction h generalizing m with
  | here hown =>
    cases h' with
    | here hown' => exact ⟨rfl, Option.some.inj (hown.symm.trans hown')⟩
    | up hown' _ _ => exact absurd (hown.symm.trans hown') (by simp)
  | up hown hparent _ ih =>
    cases h' with
    | here hown' => exact absurd (hown.symm.trans hown') (by simp)
    | up _ hparent' h' =>
      obtain rfl := Option.some.inj (hparent.symm.trans hparent')
      obtain ⟨hn, hfound⟩ := ih h'
      exact ⟨congrArg (· + 1) hn, hfound⟩

/-- Classes that are further from the deciding class do not contain one that is nearer. -/
theorem FoundAt.not_met {n : Nat} {id : ClassId} {found : Found} (h : FoundAt p n id found)
    {met : List ClassId} (hmet : ∀ c ∈ met, ∃ m other, n < m ∧ FoundAt p m c other) :
    ¬ met.contains id = true := by
  intro hin
  obtain ⟨m, other, hlt, hother⟩ := hmet id (by simpa using hin)
  exact absurd (h.unique hother).1 (Nat.ne_of_lt hlt)

/-- A chain that has met only classes further away comes to the deciding class. -/
theorem FoundAt.findSome?_ancestryAfter {n : Nat} {id : ClassId} {found : Found}
    (h : FoundAt p n id found) (met : List ClassId)
    (hmet : ∀ c ∈ met, ∃ m other, n < m ∧ FoundAt p m c other) :
    (p.ancestryAfter met id).findSome? (ownIdType p) = some found := by
  have hnew := h.not_met hmet
  induction h generalizing met with
  | @here id found hown =>
    cases hparent : p.parentOf id with
    | none => simp [Program.ancestryAfter_of_root hnew hparent, hown]
    | some parent => simp [Program.ancestryAfter_of_parent hnew hparent, hown]
  | @up n id parent found hown hparent h ih =>
    have hmet' : ∀ c ∈ id :: met, ∃ m other, n < m ∧ FoundAt p m c other := by
      intro c hc
      rcases List.mem_cons.1 hc with rfl | hc
      · exact ⟨n + 1, found, Nat.lt_succ_self n, .up hown hparent h⟩
      · obtain ⟨m, other, hlt, hother⟩ := hmet c hc
        exact ⟨m, other, Nat.lt_of_succ_lt hlt, hother⟩
    rw [Program.ancestryAfter_of_parent hnew hparent, List.findSome?_cons, hown]
    exact ih (id :: met) hmet' (h.not_met hmet')

theorem exists_foundAt_of_findSome? {met : List ClassId} {id : ClassId} {found : Found}
    (h : (p.ancestryAfter met id).findSome? (ownIdType p) = some found) :
    ∃ n, FoundAt p n id found := by
  fun_induction Program.ancestryAfter p met id with
  | case1 => simp at h
  | case2 met id hnew parent hparent ih =>
    cases hown : ownIdType p id with
    | some own =>
      simp only [List.findSome?_cons, hown, Option.some.injEq] at h
      exact ⟨0, .here (h ▸ hown)⟩
    | none =>
      simp only [List.findSome?_cons, hown] at h
      obtain ⟨n, hn⟩ := ih h
      exact ⟨n + 1, .up hown hparent hn⟩
  | case3 met id hnew hparent =>
    have hown : ownIdType p id = some found := by simpa using h
    exact ⟨0, .here hown⟩

/-- A chain of parents finds an id type where a class some parents up declares it. -/
theorem idTypeOf_eq_some_iff {id : ClassId} {found : Found} :
    idTypeOf p id = some found ↔ ∃ n, FoundAt p n id found := by
  constructor
  · exact exists_foundAt_of_findSome?
  · rintro ⟨n, h⟩
    exact h.findSome?_ancestryAfter [] (by simp)

/-! ## What decides about a class -/

theorem idTypeOf_of_own {id : ClassId} {found : Found} (hown : ownIdType p id = some found) :
    idTypeOf p id = some found :=
  idTypeOf_eq_some_iff.2 ⟨0, .here hown⟩

theorem idTypeOf_of_parent {id parent : ClassId} (hown : ownIdType p id = none)
    (hparent : p.parentOf id = some parent) : idTypeOf p id = idTypeOf p parent := by
  apply Option.ext
  intro found
  rw [idTypeOf_eq_some_iff, idTypeOf_eq_some_iff]
  constructor
  · rintro ⟨n, h⟩
    cases h with
    | here hown' => exact absurd (hown.symm.trans hown') (by simp)
    | up _ hparent' h =>
      obtain rfl := Option.some.inj (hparent.symm.trans hparent')
      exact ⟨_, h⟩
  · rintro ⟨n, h⟩
    exact ⟨n + 1, .up hown hparent h⟩

theorem idTypeOf_of_root {id : ClassId} (hown : ownIdType p id = none)
    (hparent : p.parentOf id = none) : idTypeOf p id = none := by
  refine Option.eq_none_iff_forall_ne_some.2 fun found h => ?_
  obtain ⟨n, h⟩ := idTypeOf_eq_some_iff.1 h
  cases h with
  | here hown' => exact absurd (hown.symm.trans hown') (by simp)
  | up _ hparent' _ => exact absurd (hparent.symm.trans hparent') (by simp)

/-- Classes that lead to each other only, without an id type of their own, find none. -/
theorem idTypeOf_of_closed {circle : List ClassId}
    (hclosed : ∀ c ∈ circle, ownIdType p c = none ∧
      ∃ parent ∈ circle, p.parentOf c = some parent) {id : ClassId} (hid : id ∈ circle) :
    idTypeOf p id = none := by
  refine Option.eq_none_iff_forall_ne_some.2 fun found hsome => ?_
  obtain ⟨n, h⟩ := idTypeOf_eq_some_iff.1 hsome
  clear hsome
  induction h with
  | here hown => exact absurd ((hclosed _ hid).1.symm.trans hown) (by simp)
  | up _ hparent _ ih =>
    obtain ⟨-, parent, hmem, hparent'⟩ := hclosed _ hid
    obtain rfl := Option.some.inj (hparent.symm.trans hparent')
    exact ih hmem

/-! ## Open questions -/

/-- Open questions lead to a class when each is about a class without an id type of its
own and its parent is asked about next. -/
inductive Trail (p : Program) : List ClassId → ClassId → Prop
  | start (id : ClassId) : Trail p [] id
  | up {pending : List ClassId} {id parent : ClassId} (h : Trail p pending id)
      (hown : ownIdType p id = none) (hparent : p.parentOf id = some parent) :
      Trail p (id :: pending) parent

theorem Trail.own_eq_none {pending : List ClassId} {id : ClassId} (h : Trail p pending id) :
    ∀ c ∈ pending, ownIdType p c = none ∧
      ∃ parent, (parent = id ∨ parent ∈ pending) ∧ p.parentOf c = some parent := by
  induction h with
  | start => simp
  | @up pending id parent h hown hparent ih =>
    intro c hc
    rcases List.mem_cons.1 hc with rfl | hc
    · exact ⟨hown, parent, .inl rfl, hparent⟩
    · obtain ⟨hown', next, hnext, hparent'⟩ := ih c hc
      refine ⟨hown', next, .inr ?_, hparent'⟩
      rcases hnext with rfl | hnext
      · exact List.mem_cons_self
      · exact List.mem_cons_of_mem _ hnext

/-- A class whose own question is open lies on a circle and has no id type. -/
theorem Trail.idTypeOf_eq_none {pending : List ClassId} {id : ClassId} (h : Trail p pending id)
    (hid : id ∈ pending) : idTypeOf p id = none := by
  refine idTypeOf_of_closed (fun c hc => ?_) hid
  obtain ⟨hown, parent, hparent, hc⟩ := h.own_eq_none c hc
  refine ⟨hown, parent, ?_, hc⟩
  rcases hparent with rfl | hparent
  · exact hid
  · exact hparent

/-! ## Answers -/

namespace Walk

/-- Every remembered answer is right. -/
def Sound (p : Program) (w : Walk) : Prop :=
  ∀ id answer, w.known.lookup id = some answer → answer = idTypeOf p id

theorem Sound.remember {w : Walk} (h : w.Sound p) (id : ClassId) (pending : List ClassId) :
    Sound p ⟨(id, idTypeOf p id) :: w.known, pending⟩ := by
  intro other answer hlookup
  rw [List.lookup_cons] at hlookup
  split at hlookup
  · rename_i heq
    obtain rfl := eq_of_beq heq
    exact (Option.some.inj hlookup).symm
  · exact h other answer hlookup

/-- A question is answered as its chain of parents answers it, and leaves the open
questions and the rightness of what is remembered as they were. -/
theorem resolve_spec {w : Walk} {id : ClassId} (htrail : Trail p w.pending id)
    (hsound : w.Sound p) :
    (w.resolve p id).1 = idTypeOf p id ∧ (w.resolve p id).2.pending = w.pending ∧
      (w.resolve p id).2.Sound p := by
  induction w, id using Lookup.answer.induct p.lookup with
  | case1 w id answer hknown =>
    rw [resolve_of_known hknown]
    exact ⟨hsound id answer hknown, rfl, hsound⟩
  | case2 w id hknown hopen =>
    rw [resolve_of_open hknown hopen]
    have hmem : id ∈ w.pending := by simpa using hopen
    exact ⟨(htrail.idTypeOf_eq_none hmem).symm, rfl, hsound⟩
  | case3 w id hknown hnew ih =>
    have hspec : ∀ (answer : Option Found) (after : Walk), answer = idTypeOf p id →
        after.pending = id :: w.pending → after.Sound p →
          answer = idTypeOf p id ∧ (after.settle id answer).pending = w.pending ∧
            (after.settle id answer).Sound p := by
      rintro answer after rfl hpending hafter
      refine ⟨rfl, ?_, hafter.remember id _⟩
      rw [settle, hpending, List.erase_cons_head]
    rw [resolve_of_new hknown hnew]
    cases hown : ownIdType p id with
    | some found => exact hspec _ _ (idTypeOf_of_own hown).symm rfl hsound
    | none =>
      cases hparent : p.parentOf id with
      | none => exact hspec _ _ (idTypeOf_of_root hown hparent).symm rfl hsound
      | some parent =>
        obtain ⟨hanswer, hpending, hafter⟩ :=
          ih parent (Program.lt_of_parentOf_eq_some hparent) (.up htrail hown hparent) hsound
        exact hspec _ _ (hanswer.trans (idTypeOf_of_parent hown hparent).symm) hpending hafter

/-- Questions asked one after the other are each answered so, and none stays open. -/
theorem resolveAll_spec {w : Walk} (hpending : w.pending = []) (hsound : w.Sound p)
    (ids : List ClassId) :
    (w.resolveAll p ids).1 = ids.map (idTypeOf p) ∧ (w.resolveAll p ids).2.pending = [] ∧
      (w.resolveAll p ids).2.Sound p := by
  induction ids generalizing w with
  | nil => exact ⟨rfl, hpending, hsound⟩
  | cons id rest ih =>
    have htrail : Trail p w.pending id := hpending ▸ .start id
    obtain ⟨hanswer, hafter, hsound'⟩ := resolve_spec htrail hsound
    obtain ⟨hrest, hlast⟩ := ih (hafter.trans hpending) hsound'
    refine ⟨?_, hlast⟩
    show (w.resolve p id).1 :: ((w.resolve p id).2.resolveAll p rest).1 = _
    rw [hrest, hanswer, List.map_cons]

theorem sound_empty : Walk.Sound p {} := fun _ _ h => by simp at h

end Walk

/-! ## The registry -/

theorem lookup_zip_map {α β : Type} [BEq α] [LawfulBEq α] (f : α → β) (l : List α) (a : α) :
    (l.zip (l.map f)).lookup a = if a ∈ l then some (f a) else none := by
  induction l with
  | nil => rfl
  | cons b l ih =>
    rw [List.map_cons, List.zip_cons_cons, List.lookup_cons, ih]
    by_cases hab : a = b
    · simp [hab]
    · simp [hab, beq_false_of_ne hab]

namespace Registry

/-- The table that a class makes, if an id type is found for it. -/
def table? (p : Program) (id : ClassId) : Option Table := (idTypeOf p id).map (tableOf p id)

theorem id_of_table? {id : ClassId} {t : Table} (h : table? p id = some t) : t.id = id := by
  obtain ⟨found, -, rfl⟩ := Option.map_eq_some_iff.1 h
  rfl

/-- The table classes in ascending order, each once. -/
def tableIds (p : Program) : List ClassId := (sortBy (fun a b => a ≤ b) p.tables).eraseReps

theorem tableIds_spec (p : Program) :
    (tableIds p).Pairwise (· < ·) ∧ ∀ id, id ∈ tableIds p ↔ id ∈ p.tables :=
  ascending_eraseReps p.tables

/-- The registry has the table of each table class for which an id type is found. -/
theorem tables_ofProgram (p : Program) :
    (ofProgram p).tables = (tableIds p).filterMap (table? p) := by
  have hanswers : (Walk.resolveAll p {} p.tables).1 = p.tables.map (idTypeOf p) :=
    (Walk.resolveAll_spec rfl Walk.sound_empty p.tables).1
  rw [ofProgram_def, hanswers]
  refine List.filterMap_congr fun id hid => ?_
  rw [lookup_zip_map, if_pos (((tableIds_spec p).2 id).1 hid)]
  rfl

theorem find?_filterMap_table? (ids : List ClassId) (id : ClassId) :
    (ids.filterMap (table? p)).find? (·.id = id) = if id ∈ ids then table? p id else none := by
  induction ids with
  | nil => rfl
  | cons other ids ih =>
    by_cases heq : id = other
    · subst heq
      cases htable : table? p id with
      | none => simp [htable, ih]
      | some t => simp [htable, id_of_table? htable]
    · cases htable : table? p other with
      | none => simp [htable, ih, heq]
      | some t =>
        have hne : ¬ t.id = id := fun h => heq (h.symm.trans (id_of_table? htable))
        simp [htable, ih, heq, hne]

/-- The registry holds the table that a declared table class makes, and nothing else. -/
theorem lookup_ofProgram (p : Program) (id : ClassId) :
    (ofProgram p).lookup id = if id ∈ p.tables then table? p id else none := by
  rw [lookup, tables_ofProgram, find?_filterMap_table?]
  simp only [(tableIds_spec p).2]

theorem isSome_idTypeOf_iff {id : ClassId} :
    (idTypeOf p id).isSome ↔ ∃ c ∈ p.ancestry id, (p.classAt c).idField.isSome := by
  simp [idTypeOf, ownIdType_def, List.findSome?_isSome_iff]

/-- The classes in the registry ascend, so each is there once. -/
theorem pairwise_ids (p : Program) : ((ofProgram p).tables.map (·.id)).Pairwise (· < ·) := by
  rw [tables_ofProgram, List.pairwise_map, List.pairwise_filterMap]
  refine (tableIds_spec p).1.imp ?_
  intro a b hlt t ht u hu
  rw [id_of_table? ht, id_of_table? hu]
  exact hlt

end Registry

/-- Whatever is asked in whatever order, each answer is the one that the chain of parents
gives by itself, and no question stays open.  So the registry holds the declared tables
with an identifying field on their chain, each once and with what that field makes. -/
theorem answers_follow_chains (p : Program) :
    (∀ ids, (Walk.resolveAll p {} ids).1 = ids.map (idTypeOf p) ∧
      (Walk.resolveAll p {} ids).2.pending = []) ∧
    ((Registry.ofProgram p).tables.map (·.id)).Pairwise (· < ·) ∧
    ∀ id,
      ((Registry.ofProgram p).lookup id =
        if id ∈ p.tables then (idTypeOf p id).map (Registry.tableOf p id) else none) ∧
      (((Registry.ofProgram p).lookup id).isSome ↔
        id ∈ p.tables ∧ ∃ c ∈ p.ancestry id, (p.classAt c).idField.isSome) := by
  refine ⟨fun ids => ?_, Registry.pairwise_ids p, fun id => ?_⟩
  · obtain ⟨hanswers, hpending, -⟩ := Walk.resolveAll_spec rfl Walk.sound_empty ids
    exact ⟨hanswers, hpending⟩
  · have hlookup := Registry.lookup_ofProgram p id
    refine ⟨hlookup, ?_⟩
    rw [hlookup, ← Registry.isSome_idTypeOf_iff]
    split
    · rename_i hmem
      simp [hmem, Registry.table?]
    · rename_i hmem
      simp [hmem]

end DaoGen.Schema
