import DaoGen.Workspace.Tree
import DaoGen.Proofs.Path.Parts
import Mathlib.Data.List.Induction
import Mathlib.Tactic.ByContra
set_option autoImplicit false

/-!
# What operations change in a file tree

Making directories adds directories on the way to a location and leaves everything that was there
(`Tree.makeDirectories_spec`); when nothing stands in the way the whole way is there afterwards, and
making it again changes nothing.  Writing a file changes its own location only, and whether it can
be written does not depend on the files that were written before it
(`Tree.writeObstacle?_put`).  What is read from other files stays in both cases
(`Tree.filterMap_putIn`, `Tree.filterMap_makeDirectories`).
-/

namespace DaoGen.Tree

/-! ## Entries -/

theorem get?_of_ne_nil (t : Tree) {l : Location} (hl : l ≠ []) : t.get? l = getIn l t.entries :=
  if_neg hl

theorem getIn_append (l : Location) (entries more : List (Location × Entry)) :
    getIn l (entries ++ more) = (getIn l entries).or (getIn l more) := by
  induction entries with
  | nil => rfl
  | cons entry rest ih =>
    obtain ⟨k, e⟩ := entry
    rw [List.cons_append, getIn, getIn]
    split
    · rfl
    · exact ih

theorem getIn_directories (l : Location) (made : List Location) :
    getIn l (made.map (·, Entry.directory)) = if l ∈ made then some .directory else none := by
  induction made with
  | nil => rfl
  | cons k rest ih =>
    rw [List.map_cons, getIn, ih]
    by_cases h : k = l
    · simp [h]
    · simp [h, Ne.symm h]

/-- The entries that a list of directories adds are those that were not there. -/
theorem get?_append_directories (t : Tree) (made : List Location) (l : Location) :
    (⟨t.entries ++ made.map (·, Entry.directory)⟩ : Tree).get? l =
      (t.get? l).or (if l ∈ made then some .directory else none) := by
  by_cases hl : l = []
  · subst hl
    rfl
  · rw [get?_of_ne_nil _ hl, get?_of_ne_nil _ hl, getIn_append, getIn_directories]

/-! ## Making directories -/

/-- Everything on the way to a location is a directory. -/
def LeadsTo (t : Tree) (l : Location) : Prop := ∀ k, k <+: l → t.get? k = some .directory

/-- What lies in something lies in a directory. -/
def Closed (t : Tree) : Prop :=
  ∀ l name, t.get? (l ++ [name]) ≠ none → t.get? l = some .directory

theorem leadsTo_nil (t : Tree) : t.LeadsTo [] := by
  intro k hk
  rw [List.prefix_nil.1 hk]
  rfl

theorem leadsTo_concat {t : Tree} {l : Location} {name : List Char} :
    t.LeadsTo (l ++ [name]) ↔ t.LeadsTo l ∧ t.get? (l ++ [name]) = some .directory := by
  constructor
  · intro h
    exact ⟨fun k hk => h k (hk.trans (List.prefix_append _ _)), h _ (List.prefix_refl _)⟩
  · rintro ⟨hway, hend⟩ k hk
    rcases List.prefix_concat_iff.1 hk with rfl | hk
    · exact hend
    · exact hway k hk

theorem exists_mem_of_getIn {l : Location} {e : Entry} {entries : List (Location × Entry)}
    (h : getIn l entries = some e) : (l, e) ∈ entries := by
  induction entries with
  | nil => cases h
  | cons entry rest ih =>
    obtain ⟨k, old⟩ := entry
    rw [getIn] at h
    split at h
    · rename_i heq
      cases h
      subst heq
      exact List.mem_cons_self
    · exact List.mem_cons_of_mem _ (ih h)

/-- It is enough that each entry lies in a directory. -/
theorem closed_of_entries {t : Tree}
    (h : ∀ entry ∈ t.entries, t.get? entry.1.dropLast = some .directory) : t.Closed := by
  intro l name hsome
  obtain ⟨e, he⟩ := Option.ne_none_iff_exists'.1 hsome
  rw [get?_of_ne_nil _ (by simp)] at he
  simpa using h _ (exists_mem_of_getIn he)

/-- Where nothing is, nothing lies below either. -/
theorem Closed.get?_append_eq_none {t : Tree} (hclosed : t.Closed) {l : Location}
    (h : t.get? l = none) (names : Location) : t.get? (l ++ names) = none := by
  induction names using List.reverseRecOn with
  | nil => rwa [List.append_nil]
  | append_singleton names name ih =>
    rw [← List.append_assoc]
    by_contra hsome
    rw [hclosed _ _ hsome] at ih
    cases ih

theorem mem_descend {above names l : Location} (h : l ∈ (descend above names).1) :
    l <+: above ++ names := by
  induction names generalizing above with
  | nil => cases h
  | cons name more ih =>
    rw [List.append_cons]
    unfold descend at h
    split at h
    · cases h
    · rcases List.mem_cons.1 h with rfl | h
      · exact List.prefix_append _ _
      · exact ih h

/-- A descent that nothing stands in the way of passes through everything on its way. -/
theorem mem_descend_of_prefix {above names : Location} (hfree : (descend above names).2 = none)
    {more : Location} (hne : more ≠ []) (hmore : more <+: names) :
    above ++ more ∈ (descend above names).1 := by
  induction names generalizing above more with
  | nil => exact absurd (List.prefix_nil.1 hmore) hne
  | cons name rest ih =>
    unfold descend at hfree ⊢
    split
    · rename_i hlong
      rw [if_pos hlong] at hfree
      cases hfree
    · rename_i hshort
      rw [if_neg hshort] at hfree
      obtain ⟨first, tail, rfl⟩ := List.exists_cons_of_ne_nil hne
      obtain ⟨rfl, htail⟩ := List.cons_prefix_cons.1 hmore
      by_cases hend : tail = []
      · rw [hend]
        exact List.mem_cons_self
      · have hbelow := ih hfree hend htail
        rw [← List.append_cons] at hbelow
        exact List.mem_cons_of_mem _ hbelow

/-- Making directories below a location adds directories on the way, and nothing else. -/
theorem makeBelow_spec (t : Tree) (above names : Location) (l : Location) :
    (t.makeBelow above names).1.get? l = t.get? l ∨
      t.get? l = none ∧ (t.makeBelow above names).1.get? l = some .directory ∧
        l <+: above ++ names := by
  induction names generalizing above with
  | nil => exact .inl rfl
  | cons name more ih =>
    unfold makeBelow
    dsimp only
    split
    · have hbelow := ih (above ++ [name])
      rwa [← List.append_cons] at hbelow
    · exact .inl rfl
    · rw [get?_append_directories]
      cases hget : t.get? l with
      | some e => exact .inl rfl
      | none =>
        rw [Option.none_or]
        split
        · rename_i hmem
          exact .inr ⟨rfl, rfl, mem_descend hmem⟩
        · exact .inl rfl

theorem makeDirectories_spec (t : Tree) (p : Path) (l : Location) :
    (t.makeDirectories p).1.get? l = t.get? l ∨
      t.get? l = none ∧ (t.makeDirectories p).1.get? l = some .directory ∧ l <+: p.location := by
  unfold makeDirectories
  split
  · exact .inl rfl
  · exact makeBelow_spec t [] p.location l

theorem directory_of_makeDirectories (t : Tree) (p : Path) {l : Location}
    (h : t.get? l = some .directory) : (t.makeDirectories p).1.get? l = some .directory := by
  rcases makeDirectories_spec t p l with heq | ⟨hnone, -⟩
  · rw [heq, h]
  · rw [h] at hnone
    cases hnone

/-- What leads on from a list either stops within it or goes through all of it. -/
theorem prefix_or_eq_append {α : Type} {k above names : List α} (h : k <+: above ++ names) :
    k <+: above ∨ ∃ rest, k = above ++ rest ∧ rest <+: names := by
  rcases List.prefix_or_prefix_of_prefix h (List.prefix_append above names) with hk | ⟨rest, rfl⟩
  · exact .inl hk
  · exact .inr ⟨rest, rfl, (List.prefix_append_right_inj above).1 h⟩

/-- When nothing stands in the way, the way is there afterwards. -/
theorem leadsTo_makeBelow {t : Tree} (hclosed : t.Closed) {above names : Location}
    (habove : t.LeadsTo above) (hfree : (t.makeBelow above names).2 = none) :
    (t.makeBelow above names).1.LeadsTo (above ++ names) := by
  induction names generalizing above with
  | nil => rwa [List.append_nil]
  | cons name more ih =>
    unfold makeBelow at hfree ⊢
    dsimp only at hfree ⊢
    cases hget : t.get? (above ++ [name]) with
    | some e =>
      cases e with
      | directory =>
        rw [hget] at hfree
        have hbelow := ih (leadsTo_concat.2 ⟨habove, hget⟩) hfree
        rwa [← List.append_cons] at hbelow
      | file content =>
        rw [hget] at hfree
        cases hfree
    | none =>
      rw [hget] at hfree
      intro k hk
      rw [get?_append_directories]
      rcases prefix_or_eq_append hk with hk | ⟨rest, rfl, hrest⟩
      · rw [habove k hk]
        rfl
      · by_cases hend : rest = []
        · rw [hend, List.append_nil, habove above (List.prefix_refl _)]
          rfl
        · obtain ⟨first, tail, rfl⟩ := List.exists_cons_of_ne_nil hend
          have hmem := mem_descend_of_prefix hfree hend hrest
          obtain ⟨rfl, -⟩ := List.cons_prefix_cons.1 hrest
          rw [if_pos hmem, List.append_cons, hclosed.get?_append_eq_none hget]
          rfl

/-- Making directories that are all there changes nothing. -/
theorem makeBelow_of_leadsTo {t : Tree} {above names : Location}
    (h : t.LeadsTo (above ++ names)) : t.makeBelow above names = (t, none) := by
  induction names generalizing above with
  | nil => rfl
  | cons name more ih =>
    rw [List.append_cons] at h
    have hhere : t.get? (above ++ [name]) = some .directory := h _ (List.prefix_append _ _)
    unfold makeBelow
    dsimp only
    rw [hhere]
    exact ih h

theorem leadsTo_makeDirectories {t : Tree} (hclosed : t.Closed) {p : Path}
    (hfree : (t.makeDirectories p).2 = none) : (t.makeDirectories p).1.LeadsTo p.location := by
  unfold makeDirectories at hfree ⊢
  split
  · rename_i hlong
    rw [if_pos hlong] at hfree
    cases hfree
  · rename_i hshort
    rw [if_neg hshort] at hfree
    exact leadsTo_makeBelow hclosed t.leadsTo_nil hfree

theorem isTooLong_of_makeDirectories {t : Tree} {p : Path}
    (hfree : (t.makeDirectories p).2 = none) : isTooLong p = false := by
  unfold makeDirectories at hfree
  split at hfree
  · cases hfree
  · rename_i hshort
    simpa using hshort

theorem makeDirectories_of_leadsTo {t : Tree} {p : Path} (hshort : isTooLong p = false)
    (h : t.LeadsTo p.location) : t.makeDirectories p = (t, none) := by
  unfold makeDirectories
  rw [if_neg (by simp [hshort])]
  exact makeBelow_of_leadsTo h

/-! ## Writing files -/

/-- What keeps a file from being written, whatever its text. -/
def writeObstacle? (t : Tree) (directory : Path) (name : String) : Option Obstacle :=
  if isTooLong (directory.join ⟨name⟩) then some .nameTooLong
  else if t.get? (directory.location ++ [name.toList]) = some .directory then some .isDirectory
  else if nameLimit < name.utf8ByteSize then some .nameTooLong
  else none

theorem writeText_eq (t : Tree) (directory : Path) (name text : String) :
    t.writeText directory name text =
      match t.writeObstacle? directory name with
      | some o => .error o
      | none => .ok (t.put (directory.location ++ [name.toList]) (.file (.text text))) := by
  unfold writeText writeObstacle?
  dsimp only
  by_cases hlong : isTooLong (directory.join ⟨name⟩) = true
  · rw [if_pos hlong, if_pos hlong]
  · rw [if_neg hlong, if_neg hlong]
    rcases t.get? (directory.location ++ [name.toList]) with _ | _ | content <;>
      by_cases hname : nameLimit < name.utf8ByteSize <;> simp [hname]

/-- Where a file can be written there is no directory. -/
theorem get?_ne_directory {t : Tree} {directory : Path} {name : String}
    (h : t.writeObstacle? directory name = none) :
    t.get? (directory.location ++ [name.toList]) ≠ some .directory := by
  intro hget
  rw [writeObstacle?, if_pos hget] at h
  split at h <;> cases h

/-- Trees with the same directories keep the same files from being written. -/
theorem writeObstacle?_congr {t t' : Tree} {directory : Path} {name : String}
    (h : t'.get? (directory.location ++ [name.toList]) = some .directory ↔
      t.get? (directory.location ++ [name.toList]) = some .directory) :
    t'.writeObstacle? directory name = t.writeObstacle? directory name := by
  unfold writeObstacle?
  simp only [h]

theorem get?_put_eq_directory_iff {t : Tree} {l : Location} (hl : l ≠ [])
    (hget : t.get? l ≠ some .directory) (content : Content) (k : Location) :
    (t.put l (.file content)).get? k = some .directory ↔ t.get? k = some .directory := by
  rw [get?_put t hl]
  split
  · rename_i heq
    subst heq
    exact iff_of_false (by simp) hget
  · rfl

/-- A file that was written does not change which files can be written. -/
theorem writeObstacle?_put {t : Tree} {l : Location} (hl : l ≠ [])
    (hget : t.get? l ≠ some .directory) (content : Content) (directory : Path) (name : String) :
    (t.put l (.file content)).writeObstacle? directory name = t.writeObstacle? directory name :=
  writeObstacle?_congr (get?_put_eq_directory_iff hl hget content _)

/-! ## Reading what lies elsewhere -/

/-- What is read from the entries without the one that is put stays. -/
theorem filterMap_putIn {β : Type} (f : Location × Entry → Option β) {l : Location}
    (hf : ∀ e, f (l, e) = none) (e : Entry) (entries : List (Location × Entry)) :
    (putIn l e entries).filterMap f = entries.filterMap f := by
  induction entries with
  | nil => simp [putIn, hf]
  | cons entry rest ih =>
    obtain ⟨k, old⟩ := entry
    rw [putIn]
    split
    · rename_i heq
      subst heq
      rw [List.filterMap_cons_none (hf e), List.filterMap_cons_none (hf old)]
    · rw [List.filterMap_cons, List.filterMap_cons, ih]

/-- What is read from the files stays when directories are made. -/
theorem filterMap_makeDirectories {β : Type} (f : Location × Entry → Option β)
    (hf : ∀ l, f (l, .directory) = none) (t : Tree) (p : Path) :
    (t.makeDirectories p).1.entries.filterMap f = t.entries.filterMap f := by
  have hadd : ∀ made : List Location,
      (t.entries ++ made.map (·, Entry.directory)).filterMap f = t.entries.filterMap f := by
    intro made
    have hnone : (made.map (·, Entry.directory)).filterMap f = [] := by
      rw [List.filterMap_map]
      exact List.filterMap_eq_nil_iff.2 fun l _ => hf l
    rw [List.filterMap_append, hnone, List.append_nil]
  have hbelow : ∀ names above : Location,
      (t.makeBelow above names).1.entries.filterMap f = t.entries.filterMap f := by
    intro names
    induction names with
    | nil => intro above; rfl
    | cons name more ih =>
      intro above
      unfold makeBelow
      dsimp only
      split
      · exact ih _
      · rfl
      · exact hadd _
  unfold makeDirectories
  split
  · rfl
  · exact hbelow p.location []

/-! ## Where a path leads -/

/-- Where a part of a path leads from a location. -/
def enter (l : Location) : Path.Part → Location
  | .name text => l ++ [text]
  | .parent => l.dropLast
  | .root | .here => l

theorem location_eq (p : Path) : p.location = p.parts.foldl enter [] := rfl

theorem foldl_enter_of_follow {t : Tree} {here l : Location} {pieces : List (List Char)}
    (h : t.follow here pieces = .ok l) : (Path.laterParts pieces).foldl enter here = l := by
  induction pieces generalizing here with
  | nil =>
    cases h
    rfl
  | cons piece more ih =>
    unfold follow at h
    cases hget : t.get? here with
    | none =>
      rw [hget] at h
      cases h
    | some e =>
      cases e with
      | file content =>
        rw [hget] at h
        cases h
      | directory =>
        rw [hget] at h
        dsimp only at h
        by_cases hvoid : Path.isVoid piece = true
        · rw [if_pos hvoid] at h
          rw [Path.laterParts_void hvoid]
          exact ih h
        · rw [if_neg hvoid] at h
          rw [Path.laterParts_solid (by simpa using hvoid), List.foldl_cons]
          unfold Path.partOfPiece
          by_cases hparent : piece = ['.', '.']
          · rw [if_pos hparent] at h
            rw [if_pos hparent]
            exact ih h
          · rw [if_neg hparent] at h
            rw [if_neg hparent]
            exact ih h

/-- Following the pieces of a path leads to its location, if it leads anywhere. -/
theorem location_of_follow {t : Tree} {p : Path} {l : Location}
    (h : t.follow [] (Path.pieces p.text.toList) = .ok l) : p.location = l := by
  have hlater := foldl_enter_of_follow h
  rw [location_eq]
  unfold Path.parts Path.partsOfText
  cases hpieces : Path.pieces p.text.toList with
  | nil => exact absurd hpieces (Path.pieces_ne_nil _)
  | cons first more =>
    rw [hpieces] at hlater
    dsimp only
    by_cases hroot : first = []
    · rw [if_pos hroot]
      subst hroot
      rw [Path.laterParts_void rfl] at hlater
      split
      · rename_i hmore
        subst hmore
        exact hlater
      · exact hlater
    · rw [if_neg hroot]
      by_cases hhere : first = ['.']
      · rw [if_pos hhere]
        rw [Path.laterParts_void (by simp [Path.isVoid, hhere])] at hlater
        exact hlater
      · rw [if_neg hhere]
        rw [Path.laterParts_solid (by simp [Path.isVoid, hroot, hhere])] at hlater
        exact hlater

/-! ## Directories that stay -/

theorem isDirectory_iff {t : Tree} {p : Path} :
    t.isDirectory p = true ↔ isTooLong p = false ∧
      ∃ l, t.follow [] (Path.pieces p.text.toList) = .ok l ∧ t.get? l = some .directory := by
  unfold isDirectory find
  cases isTooLong p with
  | true => simp [bind, Except.bind]
  | false =>
    cases t.follow [] (Path.pieces p.text.toList) with
    | error o => simp [bind, Except.bind]
    | ok l =>
      rcases hget : t.get? l with _ | _ | content <;>
        simp [hget, bind, Except.bind, pure, Except.pure]

/-- A path that leads to a directory leads to the one at its location. -/
theorem get?_location_of_isDirectory {t : Tree} {p : Path} (h : t.isDirectory p = true) :
    t.get? p.location = some .directory := by
  obtain ⟨-, l, hfollow, hget⟩ := isDirectory_iff.1 h
  rw [location_of_follow hfollow, hget]

section

variable {t t' : Tree} (hstay : ∀ l, t.get? l = some .directory → t'.get? l = some .directory)

include hstay

/-- Where the pieces of a path lead through directories, they lead while these stay. -/
theorem follow_of_directories {here l : Location} {pieces : List (List Char)}
    (h : t.follow here pieces = .ok l) : t'.follow here pieces = .ok l := by
  induction pieces generalizing here with
  | nil => exact h
  | cons piece more ih =>
    unfold follow at h ⊢
    cases hget : t.get? here with
    | none =>
      rw [hget] at h
      cases h
    | some e =>
      cases e with
      | file content =>
        rw [hget] at h
        cases h
      | directory =>
        rw [hget] at h
        rw [hstay here hget]
        dsimp only at h ⊢
        split
        · rename_i hvoid
          rw [if_pos hvoid] at h
          exact ih h
        · rename_i hvoid
          rw [if_neg hvoid] at h
          split
          · rename_i hparent
            rw [if_pos hparent] at h
            exact ih h
          · rename_i hparent
            rw [if_neg hparent] at h
            exact ih h

/-- A path to a directory leads there while the directories stay. -/
theorem isDirectory_of_directories {p : Path} (h : t.isDirectory p = true) :
    t'.isDirectory p = true := by
  obtain ⟨hshort, l, hfollow, hget⟩ := isDirectory_iff.1 h
  exact isDirectory_iff.2 ⟨hshort, l, follow_of_directories hstay hfollow, hstay l hget⟩

end

end DaoGen.Tree
