set_option autoImplicit false

/-!
# Sorting

Lists are sorted by putting each element in front of the first one it may precede.
Elements that tie keep their order.  The definition follows the list, so a sorted
list can be computed by unfolding alone.
-/

namespace DaoGen

variable {α : Type} (le : α → α → Bool)

/-- A sorted list with one more element. -/
def insertBefore (x : α) : List α → List α
  | [] => [x]
  | y :: rest => if le x y then x :: y :: rest else y :: insertBefore x rest

/-- The elements of a list in ascending order. -/
def sortBy : List α → List α
  | [] => []
  | x :: rest => insertBefore le x (sortBy rest)

theorem insertBefore_perm (x : α) (l : List α) : (insertBefore le x l).Perm (x :: l) := by
  induction l with
  | nil => exact .refl _
  | cons y rest ih =>
    unfold insertBefore
    split
    · exact .refl _
    · exact (ih.cons y).trans (.swap x y rest)

theorem sortBy_perm (l : List α) : (sortBy le l).Perm l := by
  induction l with
  | nil => exact .refl _
  | cons x rest ih => exact (insertBefore_perm le x _).trans (ih.cons x)

theorem mem_sortBy {a : α} {l : List α} : a ∈ sortBy le l ↔ a ∈ l :=
  (sortBy_perm le l).mem_iff

variable {le}

theorem pairwise_insertBefore (trans : ∀ a b c, le a b → le b c → le a c)
    (total : ∀ a b, le a b ∨ le b a) (x : α) {l : List α}
    (h : l.Pairwise fun a b => le a b) : (insertBefore le x l).Pairwise fun a b => le a b := by
  induction l with
  | nil => simp [insertBefore]
  | cons y rest ih =>
    have hy := List.pairwise_cons.1 h
    unfold insertBefore
    split
    · rename_i hxy
      refine List.pairwise_cons.2 ⟨fun z hz => ?_, h⟩
      rcases List.mem_cons.1 hz with rfl | hz
      · exact hxy
      · exact trans _ _ _ hxy (hy.1 z hz)
    · rename_i hxy
      refine List.pairwise_cons.2 ⟨fun z hz => ?_, ih hy.2⟩
      rcases List.mem_cons.1 ((insertBefore_perm le x rest).mem_iff.1 hz) with rfl | hz
      · exact (total y z).resolve_right hxy
      · exact hy.1 z hz

/-- A sorted list ascends, whatever list it was made of. -/
theorem pairwise_sortBy (trans : ∀ a b c, le a b → le b c → le a c)
    (total : ∀ a b, le a b ∨ le b a) (l : List α) :
    (sortBy le l).Pairwise fun a b => le a b := by
  induction l with
  | nil => exact .nil
  | cons x rest ih => exact pairwise_insertBefore trans total x ih

/-- Lists of the same elements have the same sorted list when no two different
elements of them tie. -/
theorem sortBy_eq_of_perm (trans : ∀ a b c, le a b → le b c → le a c)
    (total : ∀ a b, le a b ∨ le b a) {l l' : List α}
    (antisymm : ∀ a ∈ l, ∀ b ∈ l, le a b → le b a → a = b) (h : l.Perm l') :
    sortBy le l = sortBy le l' := by
  refine List.Perm.eq_of_pairwise ?_ (pairwise_sortBy trans total l)
    (pairwise_sortBy trans total l')
    ((sortBy_perm le l).trans (h.trans (sortBy_perm le l').symm))
  intro a b ha hb
  exact antisymm a ((mem_sortBy le).1 ha) b (h.mem_iff.2 ((mem_sortBy le).1 hb))

/-- Elements that are replaced by others of the same rank are sorted in the same way. -/
theorem sortBy_map {β : Type} {le' : β → β → Bool} {f : α → β}
    (h : ∀ a b, le' (f a) (f b) = le a b) (l : List α) :
    sortBy le' (l.map f) = (sortBy le l).map f := by
  have hinsert : ∀ (x : α) (l : List α),
      insertBefore le' (f x) (l.map f) = (insertBefore le x l).map f := by
    intro x l
    induction l with
    | nil => rfl
    | cons y rest ih =>
      rw [List.map_cons, insertBefore, insertBefore, h]
      split
      · rfl
      · rw [ih, List.map_cons]
  induction l with
  | nil => rfl
  | cons x rest ih => rw [List.map_cons, sortBy, ih, hinsert, sortBy]

/-! ## Repetitions -/

theorem exists_eraseRepsBy_loop [BEq α] [LawfulBEq α] {R : α → α → Prop}
    (antisymm : ∀ a b, R a b → R b a → a = b) (a : α) (l found : List α)
    (h : (a :: l).Pairwise R) :
    ∃ rest, List.eraseRepsBy.loop (· == ·) a l found = found.reverse ++ rest ∧
      (rest.Pairwise fun x y => R x y ∧ x ≠ y) ∧ ∀ x, x ∈ rest ↔ x ∈ a :: l := by
  induction l generalizing a found with
  | nil => exact ⟨[a], by simp [List.eraseRepsBy.loop], by simp, by simp⟩
  | cons b l ih =>
    obtain ⟨ha, hbl⟩ := List.pairwise_cons.1 h
    rw [List.eraseRepsBy.loop]
    split
    · rename_i heq
      obtain rfl := eq_of_beq heq
      obtain ⟨rest, hrest, hpairwise, hmem⟩ := ih a found hbl
      exact ⟨rest, hrest, hpairwise, fun x => (hmem x).trans (by simp)⟩
    · rename_i hne
      have hne : a ≠ b := by simpa using hne
      obtain ⟨rest, hrest, hpairwise, hmem⟩ := ih b (a :: found) hbl
      refine ⟨a :: rest, by simp [hrest], List.pairwise_cons.2 ⟨fun x hx => ?_, hpairwise⟩,
        fun x => by simp [hmem]⟩
      have hx := (hmem x).1 hx
      refine ⟨ha x hx, ?_⟩
      rintro rfl
      -- Between two equal elements of an ascending list there is no other.
      rcases List.mem_cons.1 hx with heq | hx
      · exact hne heq
      · exact hne (antisymm a b (ha b (by simp)) ((List.pairwise_cons.1 hbl).1 a hx))

/-- An ascending list without its repetitions ascends strictly and has the same elements. -/
theorem pairwise_eraseReps [BEq α] [LawfulBEq α] {R : α → α → Prop}
    (antisymm : ∀ a b, R a b → R b a → a = b) {l : List α} (h : l.Pairwise R) :
    (l.eraseReps.Pairwise fun x y => R x y ∧ x ≠ y) ∧ ∀ x, x ∈ l.eraseReps ↔ x ∈ l := by
  cases l with
  | nil => simp [List.eraseReps, List.eraseRepsBy]
  | cons a l =>
    obtain ⟨rest, hrest, hpairwise, hmem⟩ := exists_eraseRepsBy_loop antisymm a l [] h
    have heq : (a :: l).eraseReps = rest := hrest
    rw [heq]
    exact ⟨hpairwise, hmem⟩

/-- Numbers in ascending order, each once. -/
theorem ascending_eraseReps (l : List Nat) :
    ((sortBy (fun a b => a ≤ b) l).eraseReps.Pairwise (· < ·)) ∧
      ∀ a, a ∈ (sortBy (fun a b => a ≤ b) l).eraseReps ↔ a ∈ l := by
  have htrans : ∀ a b c : Nat, decide (a ≤ b) = true → decide (b ≤ c) = true →
      decide (a ≤ c) = true := fun a b c hab hbc =>
    decide_eq_true (Nat.le_trans (of_decide_eq_true hab) (of_decide_eq_true hbc))
  have htotal : ∀ a b : Nat, decide (a ≤ b) = true ∨ decide (b ≤ a) = true := fun a b =>
    (Nat.le_total a b).imp decide_eq_true decide_eq_true
  have hsorted : (sortBy (fun a b : Nat => a ≤ b) l).Pairwise (· ≤ ·) :=
    (pairwise_sortBy htrans htotal l).imp of_decide_eq_true
  obtain ⟨hpairwise, hmem⟩ := pairwise_eraseReps (fun a b => Nat.le_antisymm) hsorted
  exact ⟨hpairwise.imp fun h => Nat.lt_of_le_of_ne h.1 h.2,
    fun a => (hmem a).trans (mem_sortBy _)⟩

end DaoGen
