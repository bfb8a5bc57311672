import DaoGen.Proofs.Path.Parts
set_option autoImplicit false

/-!
# Where normal forms lead

A path leads down through its names; a `..` takes the last of them back, and one that finds no
name left is stray (`Descent`).  Below the root a stray `..` leads nowhere, and anywhere else it
leads above the start.  So a path has a destination that can be told without a look at any file
system (`destination`).

The normal form keeps the names and cancels the stray `..` in pairs (`parts_normalize`).  It
therefore has the same destination as long as no more than one `..` leads above the start, and
absolute paths to one destination have one normal form as long as their numbers of stray `..` are
both even or both odd (`normalize_keeps_destination_iff`).
-/

namespace DaoGen.Path

/-! ## Destinations -/

/-- Where some parts lead: the names that they go down, and how many `..` found no name left. -/
structure Descent where
  strays : Nat
  names : List (List Char)

namespace Descent

/-- One part further. -/
def enter (d : Descent) : Part → Descent
  | .root | .here => d
  | .parent => if d.names = [] then ⟨d.strays + 1, []⟩ else ⟨d.strays, d.names.dropLast⟩
  | .name name => ⟨d.strays, d.names ++ [name]⟩

/-- The parts of a descent in which stray `..` have cancelled each other in pairs. -/
def cancelled (d : Descent) : List Part :=
  List.replicate (d.strays % 2) .parent ++ d.names.map .name

end Descent

/-- Where the parts of a path lead. -/
def descent (p : Path) : Descent := p.parts.foldl .enter ⟨0, []⟩

/-- What a path leads to, as seen without a file system. -/
inductive Destination where
  | belowRoot (names : List (List Char))
  /-- so many levels above the start, and names from there -/
  | fromStart (above : Nat) (names : List (List Char))
  deriving DecidableEq, Repr

/-- What a path leads to.  The root is its own parent. -/
def destination (p : Path) : Destination :=
  if p.isAbsolute then .belowRoot p.descent.names
  else .fromStart p.descent.strays p.descent.names

/-- The root of an absolute path. -/
def front (p : Path) : List Part := if p.isAbsolute then [.root] else []

/-! ## Parts behind the root -/

theorem partsOfText_of_solid {text : List Char}
    (h : ∀ first ∈ (pieces text).head?, isVoid first = false) :
    partsOfText text = laterParts (pieces text) := by
  obtain ⟨first, more, hpieces⟩ := List.exists_cons_of_ne_nil (pieces_ne_nil text)
  rw [hpieces] at h
  have hsolid : isVoid first = false := h first rfl
  have hvoid : first ≠ [] ∧ first ≠ ['.'] := by simpa [isVoid] using hsolid
  unfold partsOfText
  rw [hpieces, laterParts_solid hsolid]
  dsimp only
  rw [if_neg hvoid.1, if_neg hvoid.2]

/-- A part behind the root is `.`, or stands for itself in any text. -/
theorem exists_parts_eq (p : Path) :
    ∃ rest, p.parts = p.front ++ rest ∧ ∀ part ∈ rest, part = .here ∨ part.IsLater := by
  by_cases habsolute : p.isAbsolute = true
  · obtain ⟨text, -, hparts⟩ := exists_text_of_isAbsolute habsolute
    refine ⟨laterParts (pieces text), ?_, fun part hpart => .inr (isLater_of_mem_laterParts hpart)⟩
    rw [hparts, front, if_pos habsolute, List.singleton_append]
  · have hroot : p.parts.head? ≠ some .root := mt isAbsolute_iff.2 habsolute
    refine ⟨p.parts, by rw [front, if_neg habsolute, List.nil_append], fun part hpart => ?_⟩
    obtain ⟨first, more, hpieces⟩ := List.exists_cons_of_ne_nil (pieces_ne_nil p.text.toList)
    have hmore : ∀ part ∈ laterParts more, part.IsLater := by
      intro part hpart
      have hmem : part ∈ laterParts (pieces p.text.toList) := by
        rw [hpieces, ← List.singleton_append, laterParts_append]
        exact List.mem_append_right _ hpart
      exact isLater_of_mem_laterParts hmem
    by_cases hvoid : isVoid first = true
    · -- a first piece that is void spells nothing, the root or `.`
      have hfirst : first = [] ∨ first = ['.'] := by simpa [isVoid] using hvoid
      unfold parts partsOfText at hpart hroot
      rw [hpieces] at hpart hroot
      dsimp only at hpart hroot
      rcases hfirst with rfl | rfl
      · rw [if_pos rfl] at hpart hroot
        by_cases hnil : more = []
        · rw [if_pos hnil] at hpart
          cases hpart
        · rw [if_neg hnil] at hroot
          exact absurd rfl hroot
      · rw [if_neg (List.cons_ne_nil _ _), if_pos rfl] at hpart
        rcases List.mem_cons.1 hpart with rfl | hpart
        · exact .inl rfl
        · exact .inr (hmore part hpart)
    · have hsolid : ∀ first ∈ (pieces p.text.toList).head?, isVoid first = false := by
        rw [hpieces]
        intro other hother
        rw [← Option.some.inj hother]
        simpa using hvoid
      rw [parts, partsOfText_of_solid hsolid] at hpart
      exact .inr (isLater_of_mem_laterParts hpart)

theorem Part.IsLater.ne_root {part : Part} (h : part.IsLater) : part ≠ .root := by
  rintro rfl
  exact absurd h.2.1 (by decide)

/-- Parts that stand for themselves are read again from the text of a path, with or without the
root before them. -/
theorem parts_ofParts_append {p : Path} {rest : List Part} (h : ∀ part ∈ rest, part.IsLater) :
    (ofParts (p.front ++ rest)).parts = p.front ++ rest := by
  unfold front
  split
  · exact parts_ofParts h
  · rw [List.nil_append]
    have htext : (ofParts rest).text.toList = joinText rest := by
      cases rest with
      | nil => rfl
      | cons part rest =>
        cases part with
        | root => exact absurd rfl (h .root List.mem_cons_self).ne_root
        | _ => exact String.toList_ofList
    rw [parts, htext]
    cases rest with
    | nil => rfl
    | cons part rest =>
      have hpart := h part List.mem_cons_self
      have hfirst : (pieces (joinText (part :: rest))).head? = some part.spelling := by
        cases rest with
        | nil =>
          rw [joinText, pieces_of_not_mem hpart.2.1]
          rfl
        | cons other rest =>
          rw [joinText, pieces_append_slash, pieces_of_not_mem hpart.2.1]
          · rfl
          · exact List.cons_ne_nil _ _
      rw [partsOfText_of_solid, laterParts_joinText h]
      intro first hmem
      rw [hfirst] at hmem
      rw [← Option.some.inj hmem]
      exact hpart.1

/-! ## The normal form of a descent -/

theorem step_cancelled (p : Path) (d : Descent) {part : Part} (h : part ≠ .root) :
    step (p.front ++ d.cancelled) part = p.front ++ (d.enter part).cancelled := by
  cases part with
  | root => exact absurd rfl h
  | here => rfl
  | name name => simp [step, Descent.enter, Descent.cancelled]
  | parent =>
    obtain ⟨strays, names⟩ := d
    rcases List.eq_nil_or_concat names with rfl | ⟨before, last, rfl⟩
    · -- the last part is the root, or a stray `..` to cancel
      rcases Nat.mod_two_eq_zero_or_one strays with heven | hodd
      · have hnext : (strays + 1) % 2 = 1 := by omega
        unfold front
        split <;> simp [step, Descent.enter, Descent.cancelled, heven, hnext]
      · have hnext : (strays + 1) % 2 = 0 := by omega
        simp [step, Descent.enter, Descent.cancelled, hodd, hnext]
    · have hcancelled : p.front ++ Descent.cancelled ⟨strays, before.concat last⟩ =
          p.front ++ Descent.cancelled ⟨strays, before⟩ ++ [.name last] := by
        simp [Descent.cancelled]
      have henter : Descent.enter ⟨strays, before.concat last⟩ .parent = ⟨strays, before⟩ := by
        simp [Descent.enter]
      rw [hcancelled, henter, step, List.getLast?_concat]
      exact List.dropLast_concat

theorem foldl_step_cancelled (p : Path) (d : Descent) {parts : List Part}
    (h : ∀ part ∈ parts, part ≠ .root) :
    parts.foldl step (p.front ++ d.cancelled) = p.front ++ (parts.foldl .enter d).cancelled := by
  induction parts generalizing d with
  | nil => rfl
  | cons part rest ih =>
    rw [List.foldl_cons, List.foldl_cons, step_cancelled p d (h part List.mem_cons_self)]
    exact ih _ fun other hother => h other (List.mem_cons_of_mem part hother)

theorem mem_names_of_foldl_enter {parts : List Part} {d : Descent} {name : List Char}
    (h : name ∈ (parts.foldl Descent.enter d).names) : name ∈ d.names ∨ .name name ∈ parts := by
  induction parts generalizing d with
  | nil => exact .inl h
  | cons part rest ih =>
    rcases ih h with hmem | hmem
    · cases part with
      | root | here => exact .inl hmem
      | name other =>
        rcases List.mem_append.1 hmem with hmem | hmem
        · exact .inl hmem
        · rw [List.mem_singleton.1 hmem]
          exact .inr List.mem_cons_self
      | parent =>
        unfold Descent.enter at hmem
        dsimp only at hmem
        split at hmem
        · cases hmem
        · exact .inl ((List.dropLast_sublist _).subset hmem)
    · exact .inr (List.mem_cons_of_mem part hmem)

theorem descent_eq {p : Path} {rest : List Part} (h : p.parts = p.front ++ rest) :
    p.descent = rest.foldl .enter ⟨0, []⟩ := by
  rw [descent, h, front]
  split <;> rfl

/-- What a path goes down through stands for itself in any text. -/
theorem isLater_of_mem_cancelled {p : Path} {part : Part} (h : part ∈ p.descent.cancelled) :
    part.IsLater := by
  obtain ⟨rest, hparts, hrest⟩ := p.exists_parts_eq
  rcases List.mem_append.1 h with hparent | hmap
  · rw [List.eq_of_mem_replicate hparent]
    exact Part.isLater_parent
  · obtain ⟨name, hname, rfl⟩ := List.mem_map.1 hmap
    rw [descent_eq hparts] at hname
    rcases mem_names_of_foldl_enter hname with hmem | hmem
    · cases hmem
    · exact (hrest _ hmem).resolve_left Part.noConfusion

/-- The normal form of a path has its names, and one `..` before them when the number of stray
ones is odd. -/
theorem parts_normalize (p : Path) : p.normalize.parts = p.front ++ p.descent.cancelled := by
  obtain ⟨rest, hparts, hrest⟩ := p.exists_parts_eq
  have hroot : ∀ part ∈ rest, part ≠ .root := by
    intro part hpart
    rcases hrest part hpart with rfl | hlater
    · exact Part.noConfusion
    · exact hlater.ne_root
  have hfront : p.front.foldl step [] = p.front := by
    unfold front
    split <;> rfl
  have hnormal : p.parts.foldl step [] = p.front ++ p.descent.cancelled := by
    have hfold := foldl_step_cancelled p ⟨0, []⟩ hroot
    rw [hparts, List.foldl_append, hfront, descent_eq hparts, ← hfold]
    exact congrArg (rest.foldl step) (List.append_nil _).symm
  rw [normalize, hnormal]
  exact parts_ofParts_append fun part => isLater_of_mem_cancelled

/-! ## Where the normal form leads -/

theorem isAbsolute_normalize (p : Path) : p.normalize.isAbsolute = p.isAbsolute := by
  rw [Bool.eq_iff_iff, isAbsolute_iff, parts_normalize, front]
  split
  · rename_i habsolute
    exact iff_of_true rfl habsolute
  · rename_i habsolute
    refine iff_of_false (fun hhead => ?_) habsolute
    have hmem : Part.root ∈ p.descent.cancelled := List.mem_of_head? hhead
    exact (isLater_of_mem_cancelled hmem).ne_root rfl

theorem Descent.foldl_parents (strays k : Nat) :
    (List.replicate k Part.parent).foldl Descent.enter ⟨strays, []⟩ = ⟨strays + k, []⟩ := by
  induction k generalizing strays with
  | zero => rfl
  | succ k ih =>
    rw [List.replicate_succ, List.foldl_cons, Descent.enter, if_pos rfl, ih, Nat.add_assoc,
      Nat.add_comm 1 k]

theorem Descent.foldl_names (d : Descent) (names : List (List Char)) :
    (names.map Part.name).foldl Descent.enter d = ⟨d.strays, d.names ++ names⟩ := by
  induction names generalizing d with
  | nil => rw [List.append_nil]; rfl
  | cons name rest ih =>
    rw [List.map_cons, List.foldl_cons, ih, Descent.enter, List.append_assoc,
      List.singleton_append]

theorem descent_normalize (p : Path) :
    p.normalize.descent = ⟨p.descent.strays % 2, p.descent.names⟩ := by
  have hfront : p.normalize.front = p.front := by
    unfold front
    rw [isAbsolute_normalize]
  have hparts : p.normalize.parts = p.normalize.front ++ p.descent.cancelled := by
    rw [hfront, parts_normalize]
  rw [descent_eq hparts, Descent.cancelled, List.foldl_append, Descent.foldl_parents,
    Descent.foldl_names, Nat.zero_add, List.nil_append]

theorem destination_eq_iff {p q : Path} (h : q.isAbsolute = p.isAbsolute) :
    q.destination = p.destination ↔ q.descent.names = p.descent.names ∧
      (p.isAbsolute = true ∨ q.descent.strays = p.descent.strays) := by
  unfold destination
  rw [h]
  split
  · rename_i habsolute
    simp [habsolute]
  · rename_i habsolute
    simp [habsolute, and_comm]

theorem beq_iff_parts_eq {p q : Path} : (p == q) = true ↔ p.parts = q.parts := by
  show (p.parts == q.parts) = true ↔ _
  exact beq_iff_eq

theorem cancelled_eq_iff {d e : Descent} (h : d.names = e.names) :
    d.cancelled = e.cancelled ↔ d.strays % 2 = e.strays % 2 := by
  unfold Descent.cancelled
  rw [h, List.append_cancel_right_eq]
  constructor
  · intro heq
    simpa using congrArg List.length heq
  · intro heq
    rw [heq]

/-- The normal form of a path is absolute when the path is.  It has the same destination, unless
more than one `..` leads above the start.  It has no `.`, and `..` only before all names; below
the root there is none if the number of those that found no name to drop is even.  Paths to one
destination that are both absolute or both relative have one normal form, unless they are absolute
and one has an even and the other an odd number of such `..`. -/
theorem normalize_keeps_destination_iff (p : Path) :
    p.normalize.isAbsolute = p.isAbsolute ∧
      (p.normalize.destination = p.destination ↔ p.isAbsolute = true ∨ p.descent.strays ≤ 1) ∧
      (∃ (k : Nat) (names : List (List Char)),
        p.normalize.parts = p.front ++ List.replicate k .parent ++ names.map .name) ∧
      (p.isAbsolute = true → (.parent ∉ p.normalize.parts ↔ p.descent.strays % 2 = 0)) ∧
      ∀ q : Path, q.isAbsolute = p.isAbsolute → q.destination = p.destination →
        ((q.normalize == p.normalize) = true ↔
          (p.isAbsolute = true → q.descent.strays % 2 = p.descent.strays % 2)) := by
  refine ⟨p.isAbsolute_normalize, ?_, ?_, ?_, ?_⟩
  · rw [destination_eq_iff p.isAbsolute_normalize, descent_normalize]
    have hstrays : p.descent.strays % 2 = p.descent.strays ↔ p.descent.strays ≤ 1 := by omega
    rw [hstrays, and_iff_right rfl]
  · exact ⟨_, _, p.parts_normalize.trans (List.append_assoc ..).symm⟩
  · intro habsolute
    rw [parts_normalize, front, if_pos habsolute]
    rcases Nat.mod_two_eq_zero_or_one p.descent.strays with heven | hodd
    · simp [Descent.cancelled, heven]
    · simp [Descent.cancelled, hodd]
  · intro q hsame hdestination
    obtain ⟨hnames, hstrays⟩ := (destination_eq_iff hsame).1 hdestination
    have hfront : q.front = p.front := by
      unfold front
      rw [hsame]
    rw [beq_iff_parts_eq, parts_normalize, parts_normalize, hfront, List.append_cancel_left_eq,
      cancelled_eq_iff hnames]
    rcases hstrays with habsolute | hstrays
    · simp [habsolute]
    · simp [hstrays]

/-- The second `..` takes the first back, and the one at the root stays. -/
theorem normalize_loses_second_parent :
    (⟨"../../x"⟩ : Path).destination = .fromStart 2 [['x']] ∧
      (⟨"../../x"⟩ : Path).normalize.destination = .fromStart 0 [['x']] ∧
      (⟨"/../x"⟩ : Path).destination = (⟨"/x"⟩ : Path).destination ∧
      ((⟨"/../x"⟩ : Path).normalize == (⟨"/x"⟩ : Path).normalize) = false := by
  decide +kernel

end DaoGen.Path
