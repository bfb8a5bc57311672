import DaoGen.Proofs.Emit.Identifiers
import DaoGen.Proofs.Workspace.Reading
import DaoGen.Proofs.Workspace.Agreement
set_option autoImplicit false

/-!
# Planning one helper by name

A helper goes by three names: the one it was declared with, the sanitized one and that of its class.
Validation claims generated class names, so no two accepted helpers share a sanitized name; and as
sanitizing a second time changes nothing, no name is a declared or sanitized one of two helpers
(`Helper.sanitize_of_isNamed`).  Nothing is said about the names of their classes, though: classes
in other files may have them, or other helpers may be declared with them.  So a name selects one
helper at most exactly when the helpers keep out of each other's class names
(`Workspace.named_plan_single_iff`).
-/

namespace DaoGen

/-! ## Sanitizing again -/

namespace Naming

theorem filter_isAlphanum_capitalize (letters : List Char)
    (h : ∀ c ∈ letters, c.isAlphanum = true) :
    (capitalize letters).filter Char.isAlphanum = capitalize letters := by
  refine List.filter_eq_self.2 ?_
  cases letters with
  | nil => exact fun c hc => absurd hc List.not_mem_nil
  | cons first rest =>
    intro c hc
    rcases List.mem_cons.1 hc with rfl | hc
    · exact isAlphanum_toUpper (h first List.mem_cons_self)
    · exact h c (List.mem_cons_of_mem first hc)

theorem capitalize_capitalize (letters : List Char) (h : ∀ c ∈ letters, c.isAlphanum = true) :
    capitalize (capitalize letters) = capitalize letters := by
  cases letters with
  | nil => rfl
  | cons first rest =>
    have htwice : first.toUpper.toUpper = first.toUpper :=
      forall_isAlphanum (P := fun c => c.toUpper.toUpper = c.toUpper) (by decide)
        (h first List.mem_cons_self)
    rw [capitalize, capitalize, htwice]

/-- A sanitized name is left as it is. -/
theorem sanitize_sanitize (name : String) : sanitize (sanitize name) = sanitize name := by
  have hkept : ∀ c ∈ name.toList.filter Char.isAlphanum, c.isAlphanum = true :=
    fun c hc => (List.mem_filter.1 hc).2
  unfold sanitize
  rw [String.toList_ofList, filter_isAlphanum_capitalize _ hkept, capitalize_capitalize _ hkept]

end Naming

/-! ## The names of a helper -/

namespace Helper

/-- A name that a helper has on its own account, whatever class declares it. -/
def IsNamed (h : Helper) (name : String) : Prop := name = h.name ∨ name = h.sanitized

/-- Helpers on classes of different names, neither of which is a name of the other helper. -/
def KeepsApart (a b : Helper) : Prop :=
  a.ownerName ≠ b.ownerName ∧ ¬ a.IsNamed b.ownerName ∧ ¬ b.IsNamed a.ownerName

/-- The names of a helper tell its sanitized name. -/
theorem sanitize_of_isNamed {h : Helper} {name : String} (hname : h.IsNamed name) :
    Naming.sanitize name = h.sanitized := by
  rcases hname with rfl | rfl
  · rfl
  · exact Naming.sanitize_sanitize h.name

end Helper

namespace Workspace

open Helper

theorem goesBy_iff {h : Helper} {name : String} :
    goesBy h name = true ↔ name = h.ownerName ∨ h.IsNamed name := by
  simp only [goesBy, IsNamed, Bool.or_eq_true, decide_eq_true_eq, eq_comm (b := name), or_comm]

section

variable {a b : Helper} (hapart : a.sanitized ≠ b.sanitized)

include hapart

/-- Two helpers meet at the class name of one of them only. -/
theorem ownerName_of_goesBy {name : String} (ha : goesBy a name = true)
    (hb : goesBy b name = true) : name = a.ownerName ∨ name = b.ownerName := by
  rcases goesBy_iff.1 ha with howner | ha
  · exact .inl howner
  rcases goesBy_iff.1 hb with howner | hb
  · exact .inr howner
  · exact absurd ((sanitize_of_isNamed ha).symm.trans (sanitize_of_isNamed hb)) hapart

theorem keepsApart_iff :
    a.KeepsApart b ↔ ∀ name, ¬ (goesBy a name = true ∧ goesBy b name = true) := by
  constructor
  · rintro ⟨howners, ha, hb⟩ name ⟨hgoesA, hgoesB⟩
    rcases ownerName_of_goesBy hapart hgoesA hgoesB with rfl | rfl
    · rcases goesBy_iff.1 hgoesB with heq | hnamed
      · exact howners heq
      · exact hb hnamed
    · rcases goesBy_iff.1 hgoesA with heq | hnamed
      · exact howners heq.symm
      · exact ha hnamed
  · intro h
    refine ⟨fun heq => h a.ownerName ⟨?_, ?_⟩, fun hnamed => h b.ownerName ⟨?_, ?_⟩,
      fun hnamed => h a.ownerName ⟨?_, ?_⟩⟩
    · exact goesBy_iff.2 (.inl rfl)
    · exact goesBy_iff.2 (.inl heq)
    · exact goesBy_iff.2 (.inr hnamed)
    · exact goesBy_iff.2 (.inl rfl)
    · exact goesBy_iff.2 (.inl rfl)
    · exact goesBy_iff.2 (.inr hnamed)

end

/-! ## Selection -/

/-- One element at most passes a test exactly when no two do. -/
theorem length_filter_le_one_iff {α : Type} {test : α → Bool} {l : List α} :
    (l.filter test).length ≤ 1 ↔ l.Pairwise fun x y => ¬ (test x = true ∧ test y = true) := by
  induction l with
  | nil => simp
  | cons x rest ih =>
    by_cases hx : test x = true
    · have hnone : (rest.filter test).length = 0 ↔ ∀ y ∈ rest, ¬ (test y = true) := by
        rw [List.length_eq_zero_iff, List.filter_eq_nil_iff]
      rw [List.filter_cons_of_pos hx, List.length_cons, List.pairwise_cons]
      constructor
      · intro hlength
        have hrest := hnone.1 (by omega)
        exact ⟨fun y hy hboth => hrest y hy hboth.2, ih.1 (by omega)⟩
      · rintro ⟨hfirst, -⟩
        have hrest := hnone.2 fun y hy hy' => hfirst y hy ⟨hx, hy'⟩
        omega
    · rw [List.filter_cons_of_neg hx, ih, List.pairwise_cons]
      exact ⟨fun h => ⟨fun y _ hboth => hx hboth.1, h⟩, fun h => h.2⟩

variable {helpers : List Helper} {start : Option Upgrade.Version} {name : String}

theorem selectPlans_of_nil (h : helpers.filter (goesBy · name) = []) :
    selectPlans helpers (some name) start = .error (.unknownHelper name) := by
  rw [selectPlans]
  split
  · rfl
  · rename_i hne
    exact absurd h hne

theorem selectPlans_of_ne_nil (h : helpers.filter (goesBy · name) ≠ []) :
    selectPlans helpers (some name) start =
      .ok ((helpers.filter (goesBy · name)).map (planOf start)) := by
  rw [selectPlans]
  split
  · rename_i hnil
    exact absurd hnil h
  · rfl

/-- Selection gives one plan, or says that the helper is unknown, exactly when one helper at most
goes by the name. -/
theorem selectPlans_single_iff :
    ((∃ p, selectPlans helpers (some name) start = .ok [p]) ∨
        selectPlans helpers (some name) start = .error (.unknownHelper name)) ↔
      (helpers.filter (goesBy · name)).length ≤ 1 := by
  by_cases hfound : helpers.filter (goesBy · name) = []
  · simp [selectPlans_of_nil hfound, hfound]
  · have hpos : 0 < (helpers.filter (goesBy · name)).length := List.length_pos_iff.2 hfound
    have hone : (∃ p, (helpers.filter (goesBy · name)).map (planOf start) = [p]) ↔
        (helpers.filter (goesBy · name)).length = 1 := by
      rw [← List.length_eq_one_iff, List.length_map]
    simp only [selectPlans_of_ne_nil hfound, Except.ok.injEq, reduceCtorEq, or_false, hone]
    omega

/-- All names select one helper at most exactly when the helpers keep apart. -/
theorem selectPlans_all_single_iff
    (hapart : helpers.Pairwise fun a b => a.sanitized ≠ b.sanitized) :
    (∀ name, (∃ p, selectPlans helpers (some name) start = .ok [p]) ∨
        selectPlans helpers (some name) start = .error (.unknownHelper name)) ↔
      helpers.Pairwise KeepsApart := by
  simp only [selectPlans_single_iff, length_filter_le_one_iff]
  constructor
  · intro h
    have hall : helpers.Pairwise fun a b =>
        ∀ name, ¬ (goesBy a name = true ∧ goesBy b name = true) :=
      List.pairwise_iff_getElem.2 fun i j hi hj hlt name =>
        List.pairwise_iff_getElem.1 (h name) i j hi hj hlt
    exact (hapart.and hall).imp fun hboth => (keepsApart_iff hboth.1).2 hboth.2
  · intro h name
    exact (hapart.and h).imp fun hboth => (keepsApart_iff hboth.1).1 hboth.2 name

/-! ## The pass -/

section

variable {w : Workspace} {s : Settings} {read : Source.Reader} {a : Analysis}

theorem named_plan_result (h : w.analyze s read = .ok a) (name : String)
    (start : Option Upgrade.Version) :
    (w.plan s (some name) start read).result =
      unlessRejected a.validation (selectPlans a.validation.helpers (some name) start) := by
  rw [plan, h]

/-- The helpers of an analysis have different sanitized names. -/
theorem nodup_sanitized_of_analyze (h : w.analyze s read = .ok a) :
    a.validation.helpers.Pairwise fun a b => a.sanitized ≠ b.sanitized := by
  obtain ⟨language, -, -, files, -, rfl⟩ := analyze_eq_ok_iff.1 h
  exact Validation.nodup_sanitized _ _ _

end

/-- With any reader, planning a helper by name fails as checking fails.  If checking succeeds it
gives the plans of all helpers that go by the name, or says that there is none.  A name that two
helpers go by is the class name of one of them, and there is such a name unless the helpers keep
apart: only then does every name select one helper at most. -/
theorem named_plan_single_iff (w : Workspace) (s : Settings) (read : Source.Reader)
    (start : Option Upgrade.Version) :
    (∃ f, (w.check s read).result = .error f ∧
        ∀ name, (w.plan s (some name) start read).result = .error f) ∨
      ∃ a, w.analyze s read = .ok a ∧ (∃ summary, (w.check s read).result = .ok summary) ∧
        (∀ name,
          ((∃ h ∈ a.validation.helpers, goesBy h name = true) ∧
            (w.plan s (some name) start read).result =
              .ok ((a.validation.helpers.filter (goesBy · name)).map (planOf start))) ∨
          ((∀ h ∈ a.validation.helpers, goesBy h name = false) ∧
            (w.plan s (some name) start read).result = .error (.unknownHelper name))) ∧
        (a.validation.helpers.Pairwise fun h k => ∀ name, goesBy h name = true →
          goesBy k name = true → name = h.ownerName ∨ name = k.ownerName) ∧
        ((∀ name, (∃ p, (w.plan s (some name) start read).result = .ok [p]) ∨
            (w.plan s (some name) start read).result = .error (.unknownHelper name)) ↔
          a.validation.helpers.Pairwise KeepsApart) := by
  cases h : w.analyze s read with
  | error f =>
    refine .inl ⟨f, ?_, fun name => ?_⟩
    · rw [check, h]; rfl
    · rw [plan, h]; rfl
  | ok a =>
    have hplan := fun name => named_plan_result h name start
    have hapart := nodup_sanitized_of_analyze h
    by_cases hdiagnostics : a.validation.diagnostics = []
    · simp only [check_result h, hplan, unlessRejected_of_nil hdiagnostics]
      refine .inr ⟨a, rfl, ⟨_, rfl⟩, fun name => ?_, ?_, selectPlans_all_single_iff hapart⟩
      · by_cases hfound : a.validation.helpers.filter (goesBy · name) = []
        · refine .inr ⟨fun k hk => ?_, selectPlans_of_nil hfound⟩
          exact Bool.eq_false_iff.2 (List.filter_eq_nil_iff.1 hfound k hk)
        · obtain ⟨k, hk⟩ := List.exists_mem_of_ne_nil _ hfound
          exact .inl ⟨⟨k, List.mem_filter.1 hk⟩, selectPlans_of_ne_nil hfound⟩
      · exact hapart.imp fun hne name => ownerName_of_goesBy hne
    · simp only [check_result h, hplan, unlessRejected_of_ne_nil hdiagnostics]
      exact .inl ⟨_, rfl, fun name => rfl⟩

/-- A helper that is declared under the name of another helper's class.  Both pass every check, and
that name selects the two of them. -/
theorem class_name_selects_two :
    let db : Source.SourceFile :=
      ⟨⟨"/p/src/db.ts"⟩, "", [],
        [⟨"Db", none,
          [⟨"Helper", none, [.object default [("name", .string default "Notes")]], default⟩],
          [], [], false, true, default⟩,
        ⟨"Notes", none,
          [⟨"Helper", none, [.object default [("name", .string default "other")]], default⟩],
          [], [], false, true, default⟩], []⟩
    let checked := Validation.ofSources {} ⟨"/p/src"⟩ [db]
    checked.diagnostics.map (·.complaint) = [] ∧
      (unlessRejected checked (selectPlans checked.helpers (some "Notes") none)).toOption.map
          (·.map fun p => (p.helper, p.owner)) =
        some [("Notes", "Db"), ("other", "Notes")] := by
  decide +kernel

end Workspace

end DaoGen
