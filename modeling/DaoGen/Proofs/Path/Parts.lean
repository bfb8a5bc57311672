import Mathlib.Data.List.TakeWhile
import DaoGen.Path
set_option autoImplicit false

/-!
# Texts and parts of paths

A path is known by its parts, and its text is one of many that spell them.  Here is how the
two belong together: a path joined to a directory has the parts of both (`parts_join`), a
text written from parts spells these parts (`laterParts_joinText`, `parts_ofParts`), and the
last name of a path is its last part (`fileName_eq_some_iff`).
-/

namespace DaoGen.Path

/-! ## Pieces -/

theorem pieces_ne_nil (text : List Char) : pieces text ≠ [] := by
  cases text with
  | nil => exact List.cons_ne_nil _ _
  | cons c rest =>
    unfold pieces
    split
    · exact List.cons_ne_nil _ _
    · split <;> exact List.cons_ne_nil _ _

theorem pieces_slash (text : List Char) : pieces ('/' :: text) = [] :: pieces text := by
  rw [pieces, if_pos rfl]

theorem exists_pieces_cons {c : Char} (hc : c ≠ '/') (text : List Char) :
    ∃ piece more, pieces text = piece :: more ∧ pieces (c :: text) = (c :: piece) :: more := by
  obtain ⟨piece, more, hpieces⟩ := List.exists_cons_of_ne_nil (pieces_ne_nil text)
  refine ⟨piece, more, hpieces, ?_⟩
  rw [pieces, if_neg hc, hpieces]

/-- A separator ends a piece. -/
theorem pieces_append_slash (a b : List Char) : pieces (a ++ '/' :: b) = pieces a ++ pieces b := by
  induction a with
  | nil => exact pieces_slash b
  | cons c rest ih =>
    by_cases hc : c = '/'
    · rw [hc, List.cons_append, pieces_slash, pieces_slash, ih, List.cons_append]
    · obtain ⟨piece, more, hrest, hcons⟩ := exists_pieces_cons hc rest
      rw [hcons, List.cons_append, pieces, if_neg hc, ih, hrest]
      rfl

theorem pieces_of_not_mem {text : List Char} (h : '/' ∉ text) : pieces text = [text] := by
  induction text with
  | nil => rfl
  | cons c rest ih =>
    obtain ⟨hc, hrest⟩ := not_or.1 (mt List.mem_cons.2 h)
    rw [pieces, if_neg (Ne.symm hc), ih hrest]

theorem not_mem_of_mem_pieces {text piece : List Char} (h : piece ∈ pieces text) :
    '/' ∉ piece := by
  induction text generalizing piece with
  | nil =>
    rw [List.mem_singleton.1 h]
    exact List.not_mem_nil
  | cons c rest ih =>
    by_cases hc : c = '/'
    · rw [hc, pieces_slash] at h
      rcases List.mem_cons.1 h with rfl | h
      · exact List.not_mem_nil
      · exact ih h
    · obtain ⟨first, more, hrest, hcons⟩ := exists_pieces_cons hc rest
      rw [hcons] at h
      rcases List.mem_cons.1 h with rfl | h
      · have hfirst := ih (hrest ▸ List.mem_cons_self)
        simpa [Ne.symm hc] using hfirst
      · exact ih (hrest ▸ List.mem_cons_of_mem _ h)

/-! ## Parts after the first piece -/

/-- A part that its own spelling stands for, wherever it comes in a text. -/
def Part.IsLater (part : Part) : Prop :=
  isVoid part.spelling = false ∧ '/' ∉ part.spelling ∧ partOfPiece part.spelling = part

theorem Part.isLater_parent : Part.parent.IsLater := by
  refine ⟨by decide, by decide, rfl⟩

theorem spelling_partOfPiece (piece : List Char) : (partOfPiece piece).spelling = piece := by
  unfold partOfPiece
  split
  · rename_i h
    exact h.symm
  · rfl

theorem laterParts_append (as bs : List (List Char)) :
    laterParts (as ++ bs) = laterParts as ++ laterParts bs := by
  unfold laterParts
  rw [List.filter_append, List.map_append]

theorem laterParts_void {piece : List Char} (h : isVoid piece) (more : List (List Char)) :
    laterParts (piece :: more) = laterParts more := by
  unfold laterParts
  rw [List.filter_cons_of_neg (by simp [h])]

theorem laterParts_solid {piece : List Char} (h : isVoid piece = false)
    (more : List (List Char)) :
    laterParts (piece :: more) = partOfPiece piece :: laterParts more := by
  unfold laterParts
  rw [List.filter_cons_of_pos (by simp [h]), List.map_cons]

theorem laterParts_of_all_void {more : List (List Char)} (h : ∀ piece ∈ more, isVoid piece) :
    laterParts more = [] := by
  unfold laterParts
  rw [List.filter_eq_nil_iff.2 fun piece hpiece => by simp [h piece hpiece], List.map_nil]

theorem isLater_of_mem_laterParts {text : List Char} {part : Part}
    (h : part ∈ laterParts (pieces text)) : part.IsLater := by
  obtain ⟨piece, hpiece, rfl⟩ := List.mem_map.1 h
  obtain ⟨hmem, hvoid⟩ := List.mem_filter.1 hpiece
  unfold Part.IsLater
  rw [spelling_partOfPiece]
  exact ⟨by simpa using hvoid, not_mem_of_mem_pieces hmem, rfl⟩

/-- A text written from parts spells them. -/
theorem laterParts_joinText {parts : List Part} (h : ∀ part ∈ parts, part.IsLater) :
    laterParts (pieces (joinText parts)) = parts := by
  have hone : ∀ part ∈ parts, laterParts (pieces part.spelling) = [part] := by
    intro part hpart
    obtain ⟨hvoid, hslash, hspelling⟩ := h part hpart
    rw [pieces_of_not_mem hslash, laterParts_solid hvoid, hspelling]
    rfl
  clear h
  fun_induction joinText parts with
  | case1 => rfl
  | case2 part => exact hone part List.mem_cons_self
  | case3 part rest _ ih =>
    rw [pieces_append_slash, laterParts_append, hone part List.mem_cons_self,
      ih fun p hp => hone p (List.mem_cons_of_mem _ hp), List.singleton_append]

theorem mem_joinText {parts : List Part} {c : Char} (h : c ∈ joinText parts) :
    c = '/' ∨ ∃ part ∈ parts, c ∈ part.spelling := by
  fun_induction joinText parts with
  | case1 => cases h
  | case2 part => exact .inr ⟨part, List.mem_cons_self, h⟩
  | case3 part rest _ ih =>
    rcases List.mem_append.1 h with h | h
    · exact .inr ⟨part, List.mem_cons_self, h⟩
    · rcases List.mem_cons.1 h with rfl | h
      · exact .inl rfl
      · exact (ih h).imp_right fun ⟨p, hp, hc⟩ => ⟨p, List.mem_cons_of_mem _ hp, hc⟩

/-! ## Absolute paths -/

theorem partsOfText_slash (text : List Char) :
    partsOfText ('/' :: text) = .root :: laterParts (pieces text) := by
  unfold partsOfText
  rw [pieces_slash]
  simp only [pieces_ne_nil, if_true, if_false]

theorem partOfPiece_ne_root (piece : List Char) : partOfPiece piece ≠ .root := by
  unfold partOfPiece
  split <;> exact Part.noConfusion

/-- An absolute path is one whose first part is the root. -/
theorem isAbsolute_iff {p : Path} : p.isAbsolute ↔ p.parts.head? = some .root := by
  unfold isAbsolute parts
  generalize p.text.toList = text
  cases text with
  | nil => simp [partsOfText, pieces]
  | cons c rest =>
    by_cases hc : c = '/'
    · rw [hc, partsOfText_slash]
      simp
    · obtain ⟨piece, more, -, hpieces⟩ := exists_pieces_cons hc rest
      unfold partsOfText
      rw [hpieces]
      have hne : c :: piece ≠ [] := List.cons_ne_nil c piece
      simp only [hne, if_false]
      split
      · simp [hc]
      · simp [hc, partOfPiece_ne_root]

theorem exists_text_of_isAbsolute {p : Path} (h : p.isAbsolute) :
    ∃ text, p.text.toList = '/' :: text ∧ p.parts = .root :: laterParts (pieces text) := by
  obtain ⟨text, htext⟩ := List.head?_eq_some_iff.1 (of_decide_eq_true h)
  refine ⟨text, htext, ?_⟩
  rw [parts, htext, partsOfText_slash]

/-- The parts of a path that leads on from an absolute directory are those of both. -/
theorem parts_join {dir q : Path} (hdir : dir.isAbsolute) (hq : ¬ q.isAbsolute) :
    (dir.join q).parts = dir.parts ++ laterParts (pieces q.text.toList) := by
  obtain ⟨text, htext, hparts⟩ := exists_text_of_isAbsolute hdir
  have hne : dir.text.isEmpty = false := by
    rw [String.isEmpty_eq_false_iff]
    rintro hempty
    rw [hempty] at htext
    cases htext
  unfold join
  rw [if_neg hq, hne, Bool.false_or, hparts]
  split
  · rename_i hlast
    have hlast : ('/' :: text).getLast? = some '/' := by
      rw [← htext]
      exact of_decide_eq_true hlast
    -- the separator that the directory ends in is its root or ends its last piece
    rcases List.eq_nil_or_concat text with rfl | ⟨before, last, rfl⟩
    · rw [parts, String.toList_append, htext, List.singleton_append, partsOfText_slash]
      rfl
    · rw [List.concat_eq_append, ← List.cons_append, List.getLast?_concat] at hlast
      obtain rfl := Option.some.inj hlast
      have hjoined : '/' :: (before ++ ['/']) ++ q.text.toList =
          '/' :: (before ++ '/' :: q.text.toList) := by simp
      rw [parts, String.toList_append, htext, List.concat_eq_append, hjoined, partsOfText_slash,
        pieces_append_slash, pieces_append_slash, laterParts_append, laterParts_append]
      have hend : laterParts (pieces []) = [] := rfl
      rw [hend, List.append_nil, List.cons_append]
  · have hjoined : ('/' :: text) ++ "/".toList ++ q.text.toList =
        '/' :: (text ++ '/' :: q.text.toList) := by simp
    rw [parts, String.toList_append, String.toList_append, htext, hjoined, partsOfText_slash,
      pieces_append_slash, laterParts_append, List.cons_append]

/-- The path of an absolute list of parts has these parts. -/
theorem parts_ofParts {rest : List Part} (h : ∀ part ∈ rest, part.IsLater) :
    (ofParts (.root :: rest)).parts = .root :: rest := by
  rw [parts, ofParts, String.toList_ofList, partsOfText_slash, laterParts_joinText h]

/-! ## The last name -/

/-- Void pieces at the end make no parts. -/
theorem laterParts_eq_of_solid (more : List (List Char)) :
    laterParts more = laterParts (more.reverse.dropWhile isVoid).reverse := by
  have hmore : more = (more.reverse.dropWhile isVoid).reverse ++
      (more.reverse.takeWhile isVoid).reverse := by
    rw [← List.reverse_append, List.takeWhile_append_dropWhile, List.reverse_reverse]
  have hvoids : laterParts (more.reverse.takeWhile isVoid).reverse = [] :=
    laterParts_of_all_void fun piece hpiece => List.mem_takeWhile_imp (List.mem_reverse.1 hpiece)
  refine (congrArg laterParts hmore).trans ?_
  rw [laterParts_append, hvoids, List.append_nil]

/-- The last piece that is not void makes the last part. -/
theorem laterParts_of_last {more before : List (List Char)} {last : List Char}
    (hsolid : more.reverse.dropWhile isVoid = last :: before) :
    isVoid last = false ∧ laterParts more = laterParts before.reverse ++ [partOfPiece last] := by
  have hlast : isVoid last = false := by
    have hhead := List.head?_dropWhile_not isVoid more.reverse
    rw [hsolid] at hhead
    simpa using hhead
  refine ⟨hlast, ?_⟩
  rw [laterParts_eq_of_solid, hsolid, List.reverse_cons, laterParts_append, laterParts_solid hlast]
  rfl

/-- The parts of a text whose first piece is given, and the part that this piece makes. -/
theorem exists_partsOfText_eq {text first : List Char} {more : List (List Char)}
    (hpieces : pieces text = first :: more) (hmore : more ≠ []) :
    ∃ head, partsOfText text = head :: laterParts more := by
  unfold partsOfText
  rw [hpieces]
  dsimp only
  rw [if_neg hmore]
  split
  · exact ⟨_, rfl⟩
  · split <;> exact ⟨_, rfl⟩

/-- The file name of a path is the name that its parts end in. -/
theorem fileName_eq_some_iff {p : Path} {name : List Char} :
    p.fileName = some name ↔ p.parts.getLast? = some (.name name) := by
  obtain ⟨first, more, hpieces⟩ := List.exists_cons_of_ne_nil (pieces_ne_nil p.text.toList)
  unfold fileName splitName solidPieces parts
  rw [hpieces]
  dsimp only
  cases hsolid : more.reverse.dropWhile isVoid with
  | nil =>
    -- only the first piece can be a name
    have hnone : laterParts more = [] := by
      rw [laterParts_eq_of_solid, hsolid]
      rfl
    rw [List.reverse_nil, List.reverse_singleton]
    unfold partsOfText
    rw [hpieces]
    dsimp only
    rw [hnone]
    by_cases hempty : first = []
    · rw [hempty]
      by_cases hone : more = [] <;> simp [hone, isVoid]
    · by_cases hhere : first = ['.']
      · simp [hhere, isVoid]
      · by_cases hparent : first = ['.', '.'] <;>
          simp [hempty, hhere, hparent, isVoid, partOfPiece]
  | cons last before =>
    obtain ⟨hlast, hend⟩ := laterParts_of_last hsolid
    have hne : more ≠ [] := by
      rintro rfl
      cases hsolid
    have hreverse : (first :: (last :: before).reverse).reverse = last :: (before ++ [first]) := by
      simp
    obtain ⟨head, hparts⟩ := exists_partsOfText_eq hpieces hne
    have hgetLast : (head :: laterParts more).getLast? = some (partOfPiece last) := by
      rw [hend, ← List.cons_append, List.getLast?_concat]
    rw [hreverse, hparts, hgetLast]
    dsimp only
    rw [hlast, Bool.false_or]
    by_cases hparent : last = ['.', '.'] <;> simp [hparent, partOfPiece]

end DaoGen.Path
