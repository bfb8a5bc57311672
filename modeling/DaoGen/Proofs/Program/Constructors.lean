import DaoGen.Proofs.Program.Extension
import Mathlib.Data.Finset.Card
set_option autoImplicit false

/-!
# Classes made without arguments

The parents of a class form a chain, and the nearest class with constructors of its own decides
whether the class can be made without arguments; at the end of a chain without any, it can.  A chain
that ends has no more classes than the program, because one that meets a class again never ends
(`ancestor?_length_eq_none`).  So looking at as many classes as there are finds the class that
decides, in a chain of whatever form (`canMake_iff_grants`).
-/

namespace DaoGen

open DaoGen.Source (SourceFile SourceClass Method Parameter readParameter)
open DaoGen.Syntax (Node)

namespace Program

/-! ## Steps up a chain -/

/-- The class that is some steps up the chain of a class. -/
def ancestor? (p : Program) : Nat → ClassId → Option ClassId
  | 0, id => some id
  | steps + 1, id => (p.parentOf id).bind (p.ancestor? steps)

section

variable {p : Program} {id : ClassId}

theorem ancestor?_add (m n : Nat) :
    p.ancestor? (m + n) id = (p.ancestor? m id).bind (p.ancestor? n) := by
  induction m generalizing id with
  | zero => rw [Nat.zero_add, ancestor?, Option.bind_some]
  | succ m ih =>
    rw [Nat.succ_add, ancestor?, ancestor?, Option.bind_assoc]
    exact congrArg _ (funext fun _ => ih)

theorem ancestor?_succ_eq_parentOf {steps : Nat} {c : ClassId}
    (h : p.ancestor? steps id = some c) : p.ancestor? (steps + 1) id = p.parentOf c := by
  rw [ancestor?_add, h, Option.bind_some]
  exact Option.bind_fun_some (p.parentOf c)

/-- Behind its end a chain has no classes. -/
theorem ancestor?_eq_none_of_le {m n : Nat} (hle : m ≤ n) (h : p.ancestor? m id = none) :
    p.ancestor? n id = none := by
  obtain ⟨k, rfl⟩ := Nat.exists_eq_add_of_le hle
  rw [ancestor?_add, h, Option.bind_none]

theorem lt_of_ancestor?_eq_some {steps : Nat} {c : ClassId} (hid : id < p.classes.length)
    (h : p.ancestor? steps id = some c) : c < p.classes.length := by
  cases steps with
  | zero => exact Option.some.inj h ▸ hid
  | succ steps =>
    rw [ancestor?_add] at h
    obtain ⟨child, -, hparent⟩ := Option.bind_eq_some_iff.1 h
    obtain ⟨parent, hparent, hc⟩ := Option.bind_eq_some_iff.1 hparent
    exact Option.some.inj hc ▸ lt_of_parentOf_found hparent

/-- A chain that meets a class again never ends. -/
theorem ancestor?_ne_none_of_eq {i j : Nat} (hlt : i < j)
    (heq : p.ancestor? i id = p.ancestor? j id) (hj : p.ancestor? j id ≠ none) (n : Nat) :
    p.ancestor? n id ≠ none := by
  induction n using Nat.strongRecOn with
  | _ n ih =>
    rcases Nat.le_total n j with hle | hle
    · exact fun hnone => hj (ancestor?_eq_none_of_le hle hnone)
    · -- a round earlier the chain is at the same class
      obtain ⟨k, rfl⟩ := Nat.exists_eq_add_of_le hle
      rw [ancestor?_add, ← heq, ← ancestor?_add]
      exact ih (i + k) (by omega)

/-- A chain that ends has no more classes than there are. -/
theorem ancestor?_length_eq_none (hid : id < p.classes.length) {n : Nat}
    (hend : p.ancestor? n id = none) : p.ancestor? p.classes.length id = none := by
  by_contra hlong
  have hreached : ∀ k ≤ p.classes.length, ∃ c, p.ancestor? k id = some c := fun k hk =>
    Option.ne_none_iff_exists'.1 fun hnone => hlong (ancestor?_eq_none_of_le hk hnone)
  have hmaps : ∀ k ∈ Finset.range (p.classes.length + 1),
      (p.ancestor? k id).getD 0 ∈ Finset.range p.classes.length := by
    intro k hk
    obtain ⟨c, hc⟩ := hreached k (Nat.le_of_lt_succ (Finset.mem_range.1 hk))
    rw [hc]
    exact Finset.mem_range.2 (lt_of_ancestor?_eq_some hid hc)
  have hcard : (Finset.range p.classes.length).card <
      (Finset.range (p.classes.length + 1)).card := by
    rw [Finset.card_range, Finset.card_range]
    exact Nat.lt_succ_self _
  obtain ⟨i, hi, j, hj, hne, hsame⟩ := Finset.exists_ne_map_eq_of_card_lt_of_maps_to hcard hmaps
  obtain ⟨c, hc⟩ := hreached i (Nat.le_of_lt_succ (Finset.mem_range.1 hi))
  obtain ⟨d, hd⟩ := hreached j (Nat.le_of_lt_succ (Finset.mem_range.1 hj))
  have heq : p.ancestor? i id = p.ancestor? j id := by
    rw [hc, hd, Option.getD_some, Option.getD_some] at hsame
    rw [hc, hd, hsame]
  rcases Nat.lt_or_gt_of_ne hne with hlt | hlt
  · exact ancestor?_ne_none_of_eq hlt heq (by rw [hd]; exact Option.some_ne_none d) n hend
  · exact ancestor?_ne_none_of_eq hlt heq.symm (by rw [hc]; exact Option.some_ne_none c) n hend

/-! ## The class that decides -/

/-- The class some steps up the chain lets the first one be made without arguments: the classes
before it have no constructors, and it has one that takes no arguments, or it has none and ends the
chain. -/
structure Grants (p : Program) (id : ClassId) (steps : Nat) (c : ClassId) : Prop where
  reached : p.ancestor? steps id = some c
  before : ∀ k < steps, ∀ d, p.ancestor? k id = some d → (p.classAt d).shape = .inherited
  last : (p.classAt c).shape = .zeroArgs ∨
    (p.classAt c).shape = .inherited ∧ p.parentOf c = none

theorem grants_zero {c : ClassId} : p.Grants id 0 c ↔ c = id ∧
    ((p.classAt id).shape = .zeroArgs ∨
      (p.classAt id).shape = .inherited ∧ p.parentOf id = none) := by
  constructor
  · rintro ⟨hreached, -, hlast⟩
    obtain rfl := Option.some.inj hreached
    exact ⟨rfl, hlast⟩
  · rintro ⟨rfl, hlast⟩
    exact ⟨rfl, fun k hk => absurd hk (Nat.not_lt_zero k), hlast⟩

theorem grants_succ {steps : Nat} {c : ClassId} : p.Grants id (steps + 1) c ↔
    (p.classAt id).shape = .inherited ∧
      ∃ parent, p.parentOf id = some parent ∧ p.Grants parent steps c := by
  constructor
  · rintro ⟨hreached, hbefore, hlast⟩
    obtain ⟨parent, hparent, hreached⟩ := Option.bind_eq_some_iff.1 hreached
    refine ⟨hbefore 0 (Nat.zero_lt_succ _) id rfl, parent, hparent, hreached, ?_, hlast⟩
    intro k hk d hd
    refine hbefore (k + 1) (Nat.succ_lt_succ hk) d ?_
    rw [ancestor?, hparent, Option.bind_some, hd]
  · rintro ⟨hshape, parent, hparent, hreached, hbefore, hlast⟩
    refine ⟨?_, ?_, hlast⟩
    · rw [ancestor?, hparent, Option.bind_some, hreached]
    · intro k hk d hd
      cases k with
      | zero => exact Option.some.inj hd ▸ hshape
      | succ k =>
        rw [ancestor?, hparent, Option.bind_some] at hd
        exact hbefore k (Nat.lt_of_succ_lt_succ hk) d hd

/-- Looking at some classes of a chain finds out that the first one can be made if the class that
decides so is among them. -/
theorem canMakeWithin_eq_true_iff {bound : Nat} :
    p.canMakeWithin bound id = true ↔ ∃ steps < bound, ∃ c, p.Grants id steps c := by
  induction bound generalizing id with
  | zero =>
    refine iff_of_false Bool.false_ne_true ?_
    rintro ⟨steps, hsteps, -⟩
    exact Nat.not_lt_zero steps hsteps
  | succ bound ih =>
    have hsplit : (∃ steps < bound + 1, ∃ c, p.Grants id steps c) ↔
        (∃ c, p.Grants id 0 c) ∨ ∃ steps < bound, ∃ c, p.Grants id (steps + 1) c :=
      Nat.exists_lt_succ_left
    rw [hsplit, canMakeWithin_succ]
    simp only [grants_zero, grants_succ, exists_eq_left]
    cases hshape : (p.classAt id).shape with
    | zeroArgs => simp
    | requiresArgs => simp
    | inherited =>
      cases hparent : p.parentOf id with
      | none => simp
      | some parent => simp [ih]

theorem canMake_eq_true_iff (hid : id < p.classes.length) :
    p.canMake id = true ↔ ∃ steps c, p.Grants id steps c := by
  constructor
  · intro hmake
    obtain ⟨steps, -, hgrants⟩ := canMakeWithin_eq_true_iff.1 hmake
    exact ⟨steps, hgrants⟩
  · rintro ⟨steps, c, hgrants⟩
    -- enough classes to meet the one that decides, and no fewer than there are
    have hbound : p.classes.length ≤ p.classes.length + (steps + 1) := Nat.le_add_right _ _
    rw [← canMakeWithin_of_le hbound hid]
    exact canMakeWithin_eq_true_iff.2 ⟨steps, by omega, c, hgrants⟩

/-- No class decides in a chain of classes without constructors that never ends. -/
theorem canMake_eq_false_of_endless (hid : id < p.classes.length)
    (hendless : ∀ n, ∃ c, p.ancestor? n id = some c ∧ (p.classAt c).shape = .inherited) :
    p.canMake id = false := by
  rw [Bool.eq_false_iff, Ne, canMake_eq_true_iff hid]
  rintro ⟨steps, c, hreached, -, hlast⟩
  obtain ⟨d, hd, hshape⟩ := hendless steps
  obtain rfl := Option.some.inj (hreached.symm.trans hd)
  obtain ⟨parent, hparent, -⟩ := hendless (steps + 1)
  rw [ancestor?_succ_eq_parentOf hreached] at hparent
  rcases hlast with hzero | ⟨-, hnone⟩
  · exact ConstructorShape.noConfusion (hshape.symm.trans hzero)
  · exact Option.some_ne_none parent (hparent.symm.trans hnone)

end

theorem shape_ofSources (dir : Path) {files : List SourceFile} {id : ClassId} {file : FileId}
    {f : SourceFile} {c : SourceClass} (h : (sourceClasses files)[id]? = some (file, f, c)) :
    ((ofSources dir files).classAt id).shape = .ofClass c := by
  rw [classAt_ofSources dir h]
  rfl

end Program

/-! ## Constructors in the source -/

/-- A constructor can be called if it has no body, or if all have one. -/
theorem mem_callableConstructors_iff {c : SourceClass} {m : Method} :
    m ∈ callableConstructors c ↔ m ∈ c.constructors ∧
      (m.hasBody = false ∨ ∀ other ∈ c.constructors, other.hasBody = true) := by
  unfold callableConstructors
  dsimp only
  split
  · rename_i hnone
    have hall : ∀ other ∈ c.constructors, other.hasBody = true := by
      intro other hother
      simpa using List.filter_eq_nil_iff.1 (List.isEmpty_iff.1 hnone) other hother
    exact ⟨fun hm => ⟨hm, .inr hall⟩, fun hm => hm.1⟩
  · rename_i hsome
    have hnot : ¬ ∀ other ∈ c.constructors, other.hasBody = true := by
      intro hall
      refine hsome (List.isEmpty_iff.2 (List.filter_eq_nil_iff.2 fun other hother => ?_))
      simp [hall other hother]
    rw [List.mem_filter, Bool.not_eq_true', or_iff_left hnot]

namespace ConstructorShape

theorem ofClass_eq_inherited_iff {c : SourceClass} :
    ofClass c = .inherited ↔ c.constructors = [] := by
  unfold ofClass
  split
  · rename_i h
    exact iff_of_true rfl (List.isEmpty_iff.1 h)
  · rename_i h
    refine iff_of_false ?_ fun hnil => h (List.isEmpty_iff.2 hnil)
    split <;> exact nofun

theorem ofClass_eq_zeroArgs_iff {c : SourceClass} (h : c.constructors ≠ []) :
    ofClass c = .zeroArgs ↔
      ∃ m ∈ callableConstructors c, ∀ q ∈ m.parameters, q.canBeOmitted = true := by
  unfold ofClass
  rw [if_neg fun hempty => h (List.isEmpty_iff.1 hempty)]
  split
  · rename_i hany
    simpa using hany
  · rename_i hany
    simpa using hany

end ConstructorShape

/-- A parameter can be omitted if it is marked so, takes the rest, or has a value by default. -/
theorem canBeOmitted_iff_of_readParameter {n : Node} {q : Parameter}
    (h : readParameter n = some q) : q.canBeOmitted = true ↔
      n.kind = .optionalParameter ∨
        (∃ pattern, n.child? .pattern = some pattern ∧ pattern.kind = .restPattern) ∨
        ∃ value, n.child? .value = some value := by
  obtain ⟨pattern, hpattern, hread⟩ := Option.bind_eq_some_iff.1 h
  dsimp only at hread
  split at hread
  · cases hread
  · cases hread
    rw [Parameter.canBeOmitted, Bool.or_eq_true, Bool.or_eq_true, decide_eq_true_iff,
      decide_eq_true_iff, Option.isSome_map, Option.isSome_iff_exists, or_assoc, hpattern]
    simp only [Option.some.injEq, exists_eq_left']

/-- A class can be made without arguments exactly when some class of its chain grants it.  A chain
that ends has no more classes than the program, looking at more of them changes nothing, and in a
chain of classes without constructors that never ends none can be made.  A class from a source file
inherits its constructors when it has none; else it needs no arguments when all parameters of a
constructor that can be called can be omitted, where signatures without a body go before the
constructor with one. -/
theorem canMake_iff_grants :
    (∀ (p : Program) (id : ClassId), id < p.classes.length →
      (p.canMake id = true ↔ ∃ steps c, p.Grants id steps c) ∧
      (∀ n, p.ancestor? n id = none → p.ancestor? p.classes.length id = none) ∧
      (∀ bound, p.classes.length ≤ bound → p.canMakeWithin bound id = p.canMake id) ∧
      ((∀ n, ∃ c, p.ancestor? n id = some c ∧ (p.classAt c).shape = .inherited) →
        p.canMake id = false)) ∧
    (∀ (dir : Path) (files : List SourceFile) (id : ClassId) (file : FileId) (f : SourceFile)
      (c : SourceClass), (Program.sourceClasses files)[id]? = some (file, f, c) →
      let shape := ((Program.ofSources dir files).classAt id).shape
      (shape = .inherited ↔ c.constructors = []) ∧
      (c.constructors ≠ [] → (shape = .zeroArgs ↔ ∃ m ∈ c.constructors,
        (m.hasBody = false ∨ ∀ other ∈ c.constructors, other.hasBody = true) ∧
          ∀ q ∈ m.parameters, q.canBeOmitted = true))) ∧
    ∀ n q, readParameter n = some q → (q.canBeOmitted = true ↔
      n.kind = .optionalParameter ∨
        (∃ pattern, n.child? .pattern = some pattern ∧ pattern.kind = .restPattern) ∨
        ∃ value, n.child? .value = some value) := by
  refine ⟨fun p id hid => ?_, fun dir files id file f c hget => ?_,
    fun n q hread => canBeOmitted_iff_of_readParameter hread⟩
  · exact ⟨Program.canMake_eq_true_iff hid, fun n => Program.ancestor?_length_eq_none hid,
      fun bound hle => Program.canMakeWithin_of_le hle hid,
      Program.canMake_eq_false_of_endless hid⟩
  · rw [Program.shape_ofSources dir hget]
    refine ⟨ConstructorShape.ofClass_eq_inherited_iff, fun hsome => ?_⟩
    rw [ConstructorShape.ofClass_eq_zeroArgs_iff hsome]
    simp only [mem_callableConstructors_iff, and_assoc]

/-- A file with a class for each of some names, each with the name behind its own as its parent. -/
def lineageFile (links : List (String × Option String)) : SourceFile where
  path := ⟨"/src/lineage.ts"⟩
  text := ""
  imports := []
  classes := links.map fun (name, parent) =>
    { name, parent, decorators := [], fields := [], methods := [],
      isAbstract := false, exported := false, span := ⟨.start, .start⟩ }
  typeNames := []

/-- The last class of a chain that has all classes of the program decides, and in a circle no class
can be made. -/
theorem canMake_iff_grants_last :
    (let p := Program.ofSources ⟨"/src"⟩
      [lineageFile [("Line", some "Row"), ("Row", some "Base"), ("Base", none)]]
    0 < p.classes.length ∧ p.Grants 0 2 2 ∧ p.canMake 0 = true) ∧
    (let p := Program.ofSources ⟨"/src"⟩
      [lineageFile [("Line", some "Row"), ("Row", some "Line")]]
    (∀ n, ∃ c, p.ancestor? n 0 = some c ∧ (p.classAt c).shape = .inherited) ∧
      p.canMake 0 = false) := by
  constructor
  · intro p
    have hbefore : ∀ k < 2, (p.ancestor? k 0).map (fun c => (p.classAt c).shape) =
        some .inherited := by decide +kernel
    have hgrants : p.Grants 0 2 2 := by
      refine ⟨by decide +kernel, fun k hk c hc => ?_, .inr (by decide +kernel)⟩
      have hshape := hbefore k hk
      rw [hc] at hshape
      exact Option.some.inj hshape
    have hlength : 0 < p.classes.length := by decide
    exact ⟨hlength, hgrants, (canMake_iff_grants.1 p 0 hlength).1.2 ⟨2, 2, hgrants⟩⟩
  · intro p
    have hparent : ∀ c < 2, p.parentOf c = some (1 - c) ∧
        (p.classAt c).shape = .inherited := by decide +kernel
    have hcircle : ∀ n, ∃ c < 2, p.ancestor? n 0 = some c := by
      intro n
      induction n with
      | zero => exact ⟨0, by decide, rfl⟩
      | succ n ih =>
        obtain ⟨c, hc, hreached⟩ := ih
        rw [Program.ancestor?_succ_eq_parentOf hreached, (hparent c hc).1]
        exact ⟨1 - c, Nat.lt_of_le_of_lt (Nat.sub_le 1 c) Nat.one_lt_two, rfl⟩
    have hendless : ∀ n, ∃ c, p.ancestor? n 0 = some c ∧ (p.classAt c).shape = .inherited := by
      intro n
      obtain ⟨c, hc, hreached⟩ := hcircle n
      exact ⟨c, hreached, (hparent c hc).2⟩
    exact ⟨hendless, (canMake_iff_grants.1 p 0 (by decide)).2.2.2 hendless⟩

end DaoGen
