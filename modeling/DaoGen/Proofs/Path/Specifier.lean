import Mathlib.Data.List.Induction
import DaoGen.ModuleName
import DaoGen.Proofs.Path.Parts
set_option autoImplicit false

/-!
# Specifiers lead back to their modules

A generated file names a scanned file by the path that leads there from the output
directory, and a reader of that file follows the path back.  For ordinary paths the two ways
agree: the specifier starts with `./` or `../` and names the module that it was written for
(`specifier_leads_back`).  The path climbs out of all that the directory does not share with
the module (`exists_differenceParts`), and the normal form takes exactly these steps back
(`foldl_step_climb`).
-/

namespace DaoGen

namespace Path

/-! ## Ordinary paths -/

/-- A name without backslashes. -/
def Part.IsOrdinary (part : Part) : Prop := ∃ text, part = .name text ∧ '\\' ∉ text

/-- An absolute path of ordinary names. -/
def IsOrdinary (p : Path) : Prop :=
  ∃ names, p.parts = .root :: names ∧ ∀ part ∈ names, part.IsOrdinary

/-- The last name of a path carries no script extension. -/
def IsStem (p : Path) : Prop :=
  ∀ ext, p.extension = some ext → String.ofList ext ∉ scriptExtensions

theorem IsOrdinary.isAbsolute {p : Path} (h : p.IsOrdinary) : p.isAbsolute := by
  obtain ⟨names, hparts, -⟩ := h
  rw [isAbsolute_iff, hparts]
  rfl

/-- The parts after the root stand for themselves in any text. -/
theorem isLater_of_parts_eq {p : Path} {names : List Part} (h : p.parts = .root :: names) :
    ∀ part ∈ names, part.IsLater := by
  have habsolute : p.isAbsolute := by
    rw [isAbsolute_iff, h]
    rfl
  obtain ⟨text, -, hparts⟩ := exists_text_of_isAbsolute habsolute
  rw [h] at hparts
  intro part hpart
  rw [(List.cons.inj hparts).2] at hpart
  exact isLater_of_mem_laterParts hpart

/-- The text of an ordinary path's parts has these parts. -/
theorem IsOrdinary.parts_ofParts {p : Path} (h : p.IsOrdinary) :
    (ofParts p.parts).parts = p.parts := by
  obtain ⟨names, hparts, -⟩ := h
  rw [hparts, Path.parts_ofParts (isLater_of_parts_eq hparts)]

theorem beq_of_parts_eq {p q : Path} (h : p.parts = q.parts) : p == q := by
  show (p.parts == q.parts) = true
  exact beq_iff_eq.2 h

/-- A path whose last name carries no script extension is the path of a module. -/
theorem IsStem.moduleStem_eq {p : Path} (h : p.IsStem) : p.moduleStem = p := by
  unfold moduleStem
  cases hext : p.extension with
  | none => rfl
  | some ext =>
    dsimp only
    rw [if_neg (by simpa using h ext hext)]

/-- The extension of a path depends on its last name alone. -/
theorem IsStem.of_fileName {p q : Path} (hp : p.IsStem)
    (h : ∀ name, q.fileName = some name → p.fileName = some name) : q.IsStem := by
  intro ext hext
  obtain ⟨name, hname, hcut⟩ := Option.bind_eq_some_iff.1 hext
  exact hp ext (Option.bind_eq_some_iff.2 ⟨name, h name hname, hcut⟩)

/-! ## Climbing -/

/-- The steps up from names. -/
abbrev climbs (above : List Part) : List Part := List.replicate above.length .parent

section Climbing

variable {above base : List Part}

theorem climb_names (target : List Part) (h : ∀ part ∈ base, ∃ text, part = .name text) :
    climb target base = some (climbs base ++ target) := by
  induction base generalizing target with
  | nil => cases target <;> rfl
  | cons part rest ih =>
    obtain ⟨text, rfl⟩ := h part List.mem_cons_self
    cases target with
    | nil =>
      rw [climb, ih [] fun p hp => h p (List.mem_cons_of_mem _ hp)]
      rfl
    | cons first more => rfl

/-- The path from a base to a target climbs out of all of the base that is not shared. -/
theorem exists_differenceParts (target : List Part)
    (h : ∀ part ∈ base, ∃ text, part = .name text) :
    ∃ shared above rest, base = shared ++ above ∧ target = shared ++ rest ∧
      differenceParts target base = some (climbs above ++ rest) := by
  induction base generalizing target with
  | nil => exact ⟨[], [], target, rfl, rfl, by cases target <;> rfl⟩
  | cons other base ih =>
    cases target with
    | nil => exact ⟨[], other :: base, [], rfl, rfl, climb_names [] h⟩
    | cons part target =>
      by_cases heq : part = other
      · subst heq
        obtain ⟨shared, above, rest, rfl, rfl, hdifference⟩ :=
          ih target fun p hp => h p (List.mem_cons_of_mem _ hp)
        refine ⟨part :: shared, above, rest, rfl, rfl, ?_⟩
        rw [differenceParts, if_pos rfl, hdifference]
      · refine ⟨[], other :: base, part :: target, rfl, rfl, ?_⟩
        rw [differenceParts, if_neg heq]
        exact climb_names _ h

/-- Names are kept by the normal form. -/
theorem foldl_step_names (done : List Part) (h : ∀ part ∈ base, ∃ text, part = .name text) :
    base.foldl step done = done ++ base := by
  induction base generalizing done with
  | nil => exact (List.append_nil done).symm
  | cons part rest ih =>
    obtain ⟨text, rfl⟩ := h part List.mem_cons_self
    rw [List.foldl_cons, ih _ fun p hp => h p (List.mem_cons_of_mem _ hp)]
    exact List.append_cons done _ rest ▸ rfl

/-- Climbing out of names takes them back. -/
theorem foldl_step_climb (done : List Part) (h : ∀ part ∈ above, ∃ text, part = .name text) :
    (climbs above).foldl step (done ++ above) = done := by
  induction above using List.reverseRecOn with
  | nil => exact List.append_nil done
  | append_singleton rest part ih =>
    obtain ⟨text, rfl⟩ := h part (by simp)
    have hclimbs : climbs (rest ++ [.name text]) = .parent :: climbs rest := by
      simp [climbs, List.replicate_succ]
    have hstep : step (done ++ (rest ++ [.name text])) .parent = done ++ rest := by
      rw [← List.append_assoc, step, List.getLast?_concat, List.dropLast_concat]
    rw [hclimbs, List.foldl_cons, hstep]
    exact ih fun p hp => h p (List.mem_append_left _ hp)

/-- A name that the way to a target ends in is the last one of the target. -/
theorem getLast?_of_getLast?_climb {shared rest : List Part} {name : List Char}
    (h : (shared ++ above ++ (climbs above ++ rest)).getLast? = some (.name name)) :
    (shared ++ rest).getLast? = some (.name name) := by
  rcases List.eq_nil_or_concat rest with rfl | ⟨before, last, rfl⟩
  · cases above with
    | nil =>
      rw [List.append_nil, climbs, List.length_nil, List.replicate_zero, List.append_nil] at h
      exact h
    | cons part more =>
      -- a way that ends in a climb ends in no name
      rw [climbs, List.length_cons, List.replicate_succ', List.append_nil,
        ← List.append_assoc, List.getLast?_concat] at h
      cases h
  · rw [List.concat_eq_append, ← List.append_assoc, ← List.append_assoc,
      List.getLast?_concat] at h
    rw [List.concat_eq_append, ← List.append_assoc, List.getLast?_concat, h]

end Climbing

/-! ## Written differences -/

/-- The difference of ordinary paths as written: a relative path in slashes alone, whose
parts climb out of the base and lead down to the target. -/
theorem exists_difference {m dir : Path} (hm : m.IsOrdinary) (hdir : dir.IsOrdinary) :
    ∃ shared above rest,
      dir.parts = .root :: (shared ++ above) ∧ m.parts = .root :: (shared ++ rest) ∧
      m.difference? dir = some (ofParts (climbs above ++ rest)) ∧
      (∀ part ∈ climbs above ++ rest, part.IsLater ∧ '\\' ∉ part.spelling) ∧
      ∀ part ∈ shared ++ above ++ rest, ∃ text, part = .name text := by
  obtain ⟨names, hnames, hmnames⟩ := id hm
  obtain ⟨base, hbase, hdirnames⟩ := id hdir
  have hname : ∀ part ∈ base, ∃ text, part = .name text := by
    intro part hpart
    obtain ⟨text, htext, -⟩ := hdirnames part hpart
    exact ⟨text, htext⟩
  obtain ⟨shared, above, rest, rfl, rfl, hdifference⟩ := exists_differenceParts names hname
  refine ⟨shared, above, rest, hbase, hnames, ?_, ?_, ?_⟩
  · have hfrom : differenceParts m.parts dir.parts = some (climbs above ++ rest) := by
      rw [hnames, hbase, differenceParts, if_pos rfl, hdifference]
    unfold difference?
    rw [if_pos (by rw [hm.isAbsolute, hdir.isAbsolute]), hfrom, Option.map_some]
  · intro part hpart
    rcases List.mem_append.1 hpart with hpart | hpart
    · rw [List.eq_of_mem_replicate hpart]
      exact ⟨Part.isLater_parent, by decide⟩
    · have hmem : part ∈ shared ++ rest := List.mem_append_right _ hpart
      obtain ⟨text, rfl, hslash⟩ := hmnames part hmem
      exact ⟨isLater_of_parts_eq hnames _ hmem, hslash⟩
  · intro part hpart
    rcases List.mem_append.1 hpart with hpart | hpart
    · exact hname part hpart
    · obtain ⟨text, htext, -⟩ := hmnames part (List.mem_append_right _ hpart)
      exact ⟨text, htext⟩

end Path

namespace ModuleName

open DaoGen.Path

/-! ## Relative specifiers -/

section Relative

variable {way : List Part}

theorem text_ofParts (h : ∀ part ∈ way, part.IsLater) :
    (ofParts way).text.toList = joinText way := by
  unfold ofParts
  split
  · exact absurd (h _ List.mem_cons_self).2.1 (by decide)
  · exact String.toList_ofList

/-- A way of parts as a specifier: its text, behind `./` unless it starts with `../`. -/
theorem exists_toList_relativeSpecifier
    (h : ∀ part ∈ way, part.IsLater ∧ '\\' ∉ part.spelling) :
    leadsToFile (relativeSpecifier (ofParts way)).toList ∧
      ((relativeSpecifier (ofParts way)).toList = joinText way ∨
        (relativeSpecifier (ofParts way)).toList = '.' :: '/' :: joinText way) := by
  have hslashed : (joinText way).map slashed = joinText way := by
    refine (List.map_congr_left fun c hc => ?_).trans (List.map_id _)
    have hne : c ≠ '\\' := by
      rintro rfl
      rcases mem_joinText hc with hslash | ⟨part, hpart, hspelling⟩
      · exact absurd hslash (by decide)
      · exact (h part hpart).2 hspelling
    exact if_neg hne
  unfold relativeSpecifier
  rw [text_ofParts fun part hpart => (h part hpart).1, hslashed]
  dsimp only
  split
  · rename_i hleads
    rw [String.toList_ofList]
    exact ⟨hleads, .inl rfl⟩
  · rw [String.toList_ofList]
    exact ⟨rfl, .inr rfl⟩

/-- The parts of a specifier are those of the way that it writes. -/
theorem laterParts_relativeSpecifier
    (h : ∀ part ∈ way, part.IsLater ∧ '\\' ∉ part.spelling) :
    laterParts (pieces (relativeSpecifier (ofParts way)).toList) = way := by
  have hway : laterParts (pieces (joinText way)) = way :=
    laterParts_joinText fun part hpart => (h part hpart).1
  rcases (exists_toList_relativeSpecifier h).2 with htext | htext
  · rw [htext, hway]
  · have hhere : pieces ('.' :: '/' :: joinText way) = ['.'] :: pieces (joinText way) :=
      pieces_append_slash ['.'] (joinText way)
    rw [htext, hhere, laterParts_void rfl, hway]

end Relative

/-! ## There and back -/

variable {m dir : Path}

/-- A way that starts with `./` or `../` is followed from the directory it is read in. -/
theorem ofSpecifier_of_leadsToFile {written : String} (h : leadsToFile written.toList) :
    ofSpecifier dir written = file (dir.join ⟨written⟩).moduleStem.normalize := by
  unfold ofSpecifier isRelative
  rw [h, Bool.true_or, Bool.true_or, if_pos rfl]

theorem not_isAbsolute_of_leadsToFile {written : String} (h : leadsToFile written.toList) :
    ¬ (Path.mk written).isAbsolute := by
  unfold Path.isAbsolute
  generalize written.toList = text at h
  fun_cases leadsToFile text <;> simp_all [leadsToFile]

/-- The specifier of an ordinary module leads to a file, and the file is that module. -/
theorem ofSpecifier_specifier (hdir : dir.IsOrdinary) (hm : m.IsOrdinary) (hstem : m.IsStem) :
    leadsToFile (specifier dir (file m)).toList ∧
      ofSpecifier dir (specifier dir (file m)) = file (ofParts m.parts) := by
  obtain ⟨shared, above, rest, hbase, htarget, hdifference, hway, hnames⟩ :=
    exists_difference hm hdir
  have hspecifier : specifier dir (file m) = relativeSpecifier (ofParts (climbs above ++ rest)) := by
    rw [specifier, hdifference, Option.getD_some]
  have hleads : leadsToFile (specifier dir (file m)).toList := by
    rw [hspecifier]
    exact (exists_toList_relativeSpecifier hway).1
  refine ⟨hleads, ?_⟩
  have hjoined : (dir.join ⟨specifier dir (file m)⟩).parts =
      .root :: (shared ++ above ++ (climbs above ++ rest)) := by
    rw [parts_join hdir.isAbsolute (not_isAbsolute_of_leadsToFile hleads), hspecifier,
      laterParts_relativeSpecifier hway, hbase, List.cons_append]
  have hjoinedStem : (dir.join ⟨specifier dir (file m)⟩).IsStem := by
    refine hstem.of_fileName fun name hname => ?_
    rw [fileName_eq_some_iff] at hname ⊢
    have hroot : ∀ way, .root :: (shared ++ above ++ way) = .root :: shared ++ above ++ way :=
      fun _ => rfl
    rw [hjoined, hroot] at hname
    rw [htarget]
    exact getLast?_of_getLast?_climb hname
  have hnormal : (shared ++ above ++ (climbs above ++ rest)).foldl step [.root] =
      .root :: (shared ++ rest) := by
    rw [List.foldl_append, foldl_step_names _ fun p hp => hnames p (List.mem_append_left _ hp),
      List.foldl_append, ← List.append_assoc,
      foldl_step_climb _ fun p hp => hnames p (by simp [hp]),
      foldl_step_names _ fun p hp => hnames p (by simp [hp])]
    rfl
  rw [ofSpecifier_of_leadsToFile hleads, hjoinedStem.moduleStem_eq, Path.normalize, hjoined,
    List.foldl_cons, htarget]
  exact congrArg (fun parts => file (ofParts parts)) hnormal

/-- For every ordinary output directory and module the specifier leads back to the module: it
is a relative path that names the module's file where it is read.  So modules at different
paths have different specifiers, and none of them is the specifier of a package. -/
theorem specifier_leads_back (hdir : dir.IsOrdinary) (hm : m.IsOrdinary) (hstem : m.IsStem) :
    leadsToFile (specifier dir (file m)).toList ∧
      ofSpecifier dir (specifier dir (file m)) == file m ∧
      (∀ other : Path, other.IsOrdinary → other.IsStem →
        specifier dir (file other) = specifier dir (file m) → other == m) ∧
      ∀ (reader : Path) (name : String), ofSpecifier reader name = package name →
        specifier dir (package name) ≠ specifier dir (file m) := by
  obtain ⟨hleads, hmodule⟩ := ofSpecifier_specifier hdir hm hstem
  refine ⟨hleads, ?_, ?_, ?_⟩
  · rw [hmodule]
    exact beq_of_parts_eq hm.parts_ofParts
  · intro other hother hotherStem heq
    have hback := (ofSpecifier_specifier hdir hother hotherStem).2
    rw [heq, hmodule] at hback
    have hparts : (ofParts m.parts).parts = (ofParts other.parts).parts :=
      congrArg parts (ModuleName.file.inj hback)
    rw [hm.parts_ofParts, hother.parts_ofParts] at hparts
    exact beq_of_parts_eq hparts.symm
  · intro reader name hpackage heq
    rw [specifier] at heq
    rw [heq, ofSpecifier_of_leadsToFile hleads] at hpackage
    cases hpackage

/-- A module aside from its output directory, with dots in its names, is found again. -/
theorem specifier_leads_back_dotted :
    let dir : Path := ⟨"/app/src//generated/"⟩
    let m : Path := ⟨"/app/./.db/..notes.v2"⟩
    dir.IsOrdinary ∧ m.IsOrdinary ∧ m.IsStem ∧
      specifier dir (file m) = "../../.db/..notes.v2" ∧
      leadsToFile (specifier dir (file m)).toList ∧
      ofSpecifier dir (specifier dir (file m)) == file m ∧
      (∀ other : Path, other.IsOrdinary → other.IsStem →
        specifier dir (file other) = specifier dir (file m) → other == m) ∧
      ∀ (reader : Path) (name : String), ofSpecifier reader name = package name →
        specifier dir (package name) ≠ specifier dir (file m) := by
  intro dir m
  have hdir : dir.IsOrdinary := by
    refine ⟨[.name "app".toList, .name "src".toList, .name "generated".toList], by decide, ?_⟩
    simp [Part.IsOrdinary]
  have hm : m.IsOrdinary := by
    refine ⟨[.name "app".toList, .name ".db".toList, .name "..notes.v2".toList], by decide, ?_⟩
    simp [Part.IsOrdinary]
  have hstem : m.IsStem := by
    intro ext hext
    have hv2 : m.extension = some "v2".toList := by decide
    rw [hv2] at hext
    obtain rfl := Option.some.inj hext
    decide
  exact ⟨hdir, hm, hstem, by decide, specifier_leads_back hdir hm hstem⟩

end ModuleName

end DaoGen
