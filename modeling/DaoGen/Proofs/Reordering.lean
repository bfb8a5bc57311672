import DaoGen.Sorted
import Mathlib.Data.List.Nodup
import Mathlib.Data.List.Perm.Basic
import Mathlib.Data.List.Perm.Subperm
set_option autoImplicit false

/-!
# Lists in another order

When a list is reordered, each position moves to another one.  What is done with the
elements under their positions is then done under the moved positions, in another order.
-/

namespace DaoGen.Reordering

variable {α β : Type}

/-- A position of a list moves to the same element in another list, and no two positions
move to the same one. -/
structure Moves (σ : Nat → Nat) (l l' : List α) : Prop where
  injective : Function.Injective σ
  getElem? : ∀ i, l'[σ i]? = l[i]?
  length_eq : l'.length = l.length

/-- Positions move when a list is reordered. -/
theorem exists_moves_of_perm {l l' : List α} (h : l.Perm l') : ∃ σ, Moves σ l l' := by
  induction h with
  | nil => exact ⟨id, Function.injective_id, fun _ => rfl, rfl⟩
  | @cons x l l' _ ih =>
    obtain ⟨σ, hinjective, hget, hlength⟩ := ih
    refine ⟨fun i => match i with | 0 => 0 | i + 1 => σ i + 1, ?_, ?_, by simp [hlength]⟩
    · intro i j hij
      cases i with
      | zero =>
        cases j with
        | zero => rfl
        | succ j => simp at hij
      | succ i =>
        cases j with
        | zero => simp at hij
        | succ j => exact congrArg (· + 1) (hinjective (by simpa using hij))
    · intro i
      cases i with
      | zero => rfl
      | succ i => simpa using hget i
  | swap x y l =>
    refine ⟨fun i => match i with | 0 => 1 | 1 => 0 | i + 2 => i + 2, ?_, ?_, by simp⟩
    · intro i j hij
      match i, j with
      | 0, 0 => rfl
      | 0, 1 => simp at hij
      | 0, j + 2 => simp at hij
      | 1, 0 => simp at hij
      | 1, 1 => rfl
      | 1, j + 2 => simp at hij
      | i + 2, 0 => simp at hij
      | i + 2, 1 => simp at hij
      | i + 2, j + 2 => simpa using hij
    · intro i
      match i with
      | 0 => rfl
      | 1 => rfl
      | i + 2 => rfl
  | trans _ _ ih ih' =>
    obtain ⟨σ, hinjective, hget, hlength⟩ := ih
    obtain ⟨σ', hinjective', hget', hlength'⟩ := ih'
    exact ⟨σ' ∘ σ, hinjective'.comp hinjective, fun i => (hget' (σ i)).trans (hget i),
      hlength'.trans hlength⟩

theorem perm_of_nodup_of_subset {l l' : List α} (hnodup : l.Nodup) (hsub : l ⊆ l')
    (hlength : l'.length ≤ l.length) : l.Perm l' :=
  (List.subperm_of_subset hnodup hsub).perm_of_length_le hlength

namespace Moves

variable {σ : Nat → Nat} {l l' : List α}

theorem lt_iff (h : Moves σ l l') (i : Nat) : σ i < l'.length ↔ i < l.length := by
  rw [← Nat.not_le, ← Nat.not_le, ← List.getElem?_eq_none_iff, ← List.getElem?_eq_none_iff,
    h.getElem?]

theorem map (h : Moves σ l l') (f : α → β) : Moves σ (l.map f) (l'.map f) :=
  ⟨h.injective, fun i => by rw [List.getElem?_map, List.getElem?_map, h.getElem?],
    by rw [List.length_map, List.length_map, h.length_eq]⟩

/-- The positions of a list move to all positions. -/
theorem map_range (h : Moves σ l l') :
    ((List.range l.length).map σ).Perm (List.range l'.length) := by
  refine perm_of_nodup_of_subset (List.nodup_range.map h.injective) ?_ (by simp [h.length_eq])
  intro j hj
  obtain ⟨i, hi, rfl⟩ := List.mem_map.1 hj
  exact List.mem_range.2 ((h.lt_iff i).2 (List.mem_range.1 hi))

/-- The elements with their positions are those of the list with the moved positions. -/
theorem map_zipIdx (h : Moves σ l l') :
    (l.zipIdx.map fun x => (x.1, σ x.2)).Perm l'.zipIdx := by
  refine perm_of_nodup_of_subset ?_ ?_ (by simp [h.length_eq])
  · have hpositions : (l.zipIdx.map fun x => (x.1, σ x.2)).map Prod.snd =
        (List.range l.length).map σ := by
      rw [List.range_eq_range', ← List.zipIdx_map_snd 0 l, List.map_map, List.map_map]
      rfl
    refine List.Nodup.of_map Prod.snd ?_
    rw [hpositions]
    exact List.nodup_range.map h.injective
  · intro y hy
    obtain ⟨x, hx, rfl⟩ := List.mem_map.1 hy
    rw [List.mem_zipIdx_iff_getElem?] at hx ⊢
    rw [h.getElem?]
    exact hx

end Moves

/-- Elements collected group by group, for groups that occur once. -/
theorem flatMap_filter_perm [DecidableEq β] (key : α → β) (l : List α) {groups : List β}
    (h : groups.Nodup) :
    (groups.flatMap fun g => l.filter (key · = g)).Perm (l.filter (key · ∈ groups)) := by
  induction groups with
  | nil => simp
  | cons g groups ih =>
    obtain ⟨hg, hgroups⟩ := List.nodup_cons.1 h
    rw [List.flatMap_cons]
    have hsplit := List.filter_append_perm (key · = g) (l.filter (key · ∈ g :: groups))
    rw [List.filter_filter, List.filter_filter] at hsplit
    have hfirst : l.filter (key · = g) =
        l.filter fun x => decide (key x = g) && decide (key x ∈ g :: groups) := by
      refine List.filter_congr fun x _ => ?_
      by_cases hx : key x = g
      · simp [hx]
      · simp [hx]
    have hrest : l.filter (key · ∈ groups) =
        l.filter fun x => !decide (key x = g) && decide (key x ∈ g :: groups) := by
      refine List.filter_congr fun x _ => ?_
      by_cases hx : key x = g
      · simp [hx, hg]
      · simp [hx]
    rw [← hfirst, ← hrest] at hsplit
    exact ((ih hgroups).append_left _).trans hsplit

/-- Two elements with the same value are one when no value occurs twice. -/
theorem eq_of_nodup_filterMap {f : α → Option β} {l : List α} (h : (l.filterMap f).Nodup)
    {x y : α} (hx : x ∈ l) (hy : y ∈ l) {b : β} (hfx : f x = some b) (hfy : f y = some b) :
    x = y := by
  have hpairwise := List.pairwise_filterMap.1 h
  clear h
  induction l with
  | nil => cases hx
  | cons a l ih =>
    obtain ⟨ha, hl⟩ := List.pairwise_cons.1 hpairwise
    rcases List.mem_cons.1 hx with rfl | hxl
    · rcases List.mem_cons.1 hy with rfl | hyl
      · rfl
      · exact absurd rfl (ha y hyl b hfx b hfy)
    · rcases List.mem_cons.1 hy with rfl | hyl
      · exact absurd rfl (ha x hxl b hfy b hfx)
      · exact ih hxl hyl hl

end DaoGen.Reordering
