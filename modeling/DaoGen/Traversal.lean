set_option autoImplicit false

/-!
# Lists that are gone through in a monad

When no step does anything but give its value, going through a list in a monad gives the list that
is gone through without one.
-/

namespace DaoGen

variable {m : Type → Type} [Monad m] [LawfulMonad m] {α β : Type} {l : List α}

theorem filterM_eq_pure {f : α → m Bool} {test : α → Bool} (h : ∀ a ∈ l, f a = pure (test a)) :
    l.filterM f = pure (l.filter test) := by
  have hgo : ∀ kept : List α,
      List.filterAuxM f l kept = pure ((l.filter test).reverse ++ kept) := by
    induction l with
    | nil => exact fun kept => rfl
    | cons a rest ih =>
      intro kept
      have hrest := ih fun b hb => h b (List.mem_cons_of_mem a hb)
      rw [List.filterAuxM, h a List.mem_cons_self, pure_bind, hrest]
      cases htest : test a <;> simp [htest]
  rw [List.filterM, hgo, pure_bind, List.append_nil, List.reverse_reverse]

theorem filterMapM_eq_pure {f : α → m (Option β)} {g : α → Option β}
    (h : ∀ a ∈ l, f a = pure (g a)) : l.filterMapM f = pure (l.filterMap g) := by
  have hgo : ∀ kept : List β,
      List.filterMapM.loop f l kept = pure (kept.reverse ++ l.filterMap g) := by
    induction l with
    | nil => exact fun kept => by simp [List.filterMapM.loop]
    | cons a rest ih =>
      intro kept
      have hrest := ih fun b hb => h b (List.mem_cons_of_mem a hb)
      rw [List.filterMapM.loop, h a List.mem_cons_self, pure_bind]
      cases hvalue : g a <;> simp [hvalue, hrest]
  rw [List.filterMapM, hgo, List.reverse_nil, List.nil_append]

end DaoGen
