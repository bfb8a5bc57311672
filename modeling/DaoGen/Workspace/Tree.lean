import DaoGen.Path
import DaoGen.Sorted
import DaoGen.Text.Position
set_option autoImplicit false

/-!
# File trees

A tree maps locations, the names that lead down from the root, to directories and
files.  Every operation is a function of the tree; one that cannot be carried out
says what stands in its way.
-/

namespace DaoGen

/-- The names that lead from the root to a file or directory. -/
abbrev Location := List (List Char)

/-- Locations are ordered name by name. -/
def Location.le : Location → Location → Bool
  | [], _ => true
  | _ :: _, [] => false
  | a :: as, b :: bs => if a = b then Location.le as bs else a < b

/-- What a file holds: a text, or bytes that are the UTF-8 form of none. -/
inductive Content where
  | text (text : String)
  | bytes (bytes : List UInt8)
  deriving DecidableEq, Repr, Inhabited

/-- The content that bytes make. -/
def Content.ofBytes (bytes : List UInt8) : Content :=
  match String.fromUTF8? ⟨bytes.toArray⟩ with
  | some decoded => .text decoded
  | none => .bytes bytes

/-- What a location holds. -/
inductive Entry where
  | directory
  | file (content : Content)
  deriving DecidableEq, Repr, Inhabited

/-- What stands in the way of an operation. -/
inductive Obstacle where
  /-- nothing is there -/
  | absent
  /-- a file stands where a new directory should be -/
  | occupied
  /-- the way leads through a file -/
  | notDirectory
  | isDirectory
  | nameTooLong
  /-- the file holds no text -/
  | notText
  deriving DecidableEq, Repr, Inhabited

/-- How an obstacle is called. -/
def Obstacle.message : Obstacle → String
  | absent => "No such file or directory (os error 2)"
  | occupied => "File exists (os error 17)"
  | notDirectory => "Not a directory (os error 20)"
  | isDirectory => "Is a directory (os error 21)"
  | nameTooLong => "File name too long (os error 36)"
  | notText => "stream did not contain valid UTF-8"

/-- Directories and files by location, each location once.  The root is always a
directory and has no entry. -/
structure Tree where
  entries : List (Location × Entry) := []
  deriving Repr, Inhabited

/-- The location that an absolute path in normal form spells. -/
def Path.location (p : Path) : Location :=
  p.parts.foldl (fun l part =>
    match part with
    | .name text => l ++ [text]
    | .parent => l.dropLast
    | .root | .here => l) []

namespace Tree

/-- The entry at a location. -/
def getIn (l : Location) : List (Location × Entry) → Option Entry
  | [] => none
  | (k, e) :: rest => if k = l then some e else getIn l rest

/-- What a location holds. -/
def get? (t : Tree) (l : Location) : Option Entry :=
  if l = [] then some .directory else getIn l t.entries

/-- Entries with one more, or with another in its place. -/
def putIn (l : Location) (e : Entry) : List (Location × Entry) → List (Location × Entry)
  | [] => [(l, e)]
  | (k, old) :: rest => if k = l then (l, e) :: rest else (k, old) :: putIn l e rest

/-- The tree with another entry at a location. -/
def put (t : Tree) (l : Location) (e : Entry) : Tree := ⟨putIn l e t.entries⟩

theorem getIn_putIn (l k : Location) (e : Entry) (entries : List (Location × Entry)) :
    getIn k (putIn l e entries) = if l = k then some e else getIn k entries := by
  induction entries with
  | nil => rfl
  | cons entry rest ih =>
    obtain ⟨m, old⟩ := entry
    by_cases hm : m = l
    · subst hm
      by_cases h : m = k <;> simp [putIn, getIn, h]
    · by_cases hk : m = k
      · subst hk
        simp [putIn, getIn, hm, Ne.symm hm]
      · simp [putIn, getIn, hm, hk, ih]

theorem get?_put (t : Tree) {l : Location} (hl : l ≠ []) (e : Entry) (k : Location) :
    (t.put l e).get? k = if l = k then some e else t.get? k := by
  unfold get? put
  by_cases hk : k = []
  · subst hk; simp [hl]
  · simp [hk, getIn_putIn]

/-- The tree without a location and all below it. -/
def remove (t : Tree) (l : Location) : Tree :=
  ⟨t.entries.filter fun entry => !l.isPrefixOf entry.1⟩

/-! ## Following a path -/

/-- Where the pieces of a path lead from a location.  Each piece is looked up in a
directory, so nothing leads on through a file or through what is not there. -/
def follow (t : Tree) (here : Location) : List (List Char) → Except Obstacle Location
  | [] => .ok here
  | piece :: more =>
    match t.get? here with
    | none => .error .absent
    | some (.file _) => .error .notDirectory
    | some .directory =>
      if Path.isVoid piece then follow t here more
      else if piece = ['.', '.'] then follow t here.dropLast more
      else follow t (here ++ [piece]) more

/-- The greatest number of bytes in a path. -/
def pathLimit : Nat := 4095

/-- Whether a path has too many bytes. -/
def isTooLong (p : Path) : Bool := pathLimit < p.text.utf8ByteSize

/-- What an absolute path leads to. -/
def find (t : Tree) (p : Path) : Except Obstacle Entry := do
  if isTooLong p then throw .nameTooLong
  let l ← t.follow [] (Path.pieces p.text.toList)
  match t.get? l with
  | some e => return e
  | none => throw .absent

/-- Whether an absolute path leads to a directory. -/
def isDirectory (t : Tree) (p : Path) : Bool :=
  match t.find p with
  | .ok .directory => true
  | _ => false

/-- Whether an absolute path leads anywhere. -/
def contains (t : Tree) (p : Path) : Bool := (t.find p).isOk

/-- The text of an entry. -/
def readEntry : Entry → Except Obstacle String
  | .directory => .error .isDirectory
  | .file (.bytes _) => .error .notText
  | .file (.text text) => .ok text

/-- The text of the file that an absolute path leads to. -/
def readText (t : Tree) (p : Path) : Except Obstacle String := t.find p >>= readEntry

/-! ## Walking -/

/-- The files below a directory, by the names that lead to them from there.  They are
in ascending order of these names, so the files of a directory stand together. -/
def filesBelow (t : Tree) (directory : Location) : List (Location × Content) :=
  sortBy (fun a b => a.1.le b.1) (t.entries.filterMap fun (l, e) =>
    match e with
    | .directory => none
    | .file content =>
      if directory.isPrefixOf l then some (l.drop directory.length, content) else none)

/-! ## Writing -/

/-- The greatest number of bytes in a name. -/
def nameLimit : Nat := 255

/-- The directories that lead from a location down through names, and what stands in the
way of the next one. -/
def descend (above : Location) : List (List Char) → List Location × Option Obstacle
  | [] => ([], none)
  | name :: more =>
    if nameLimit < Text.byteLength name then ([], some .nameTooLong)
    else
      let here := above ++ [name]
      let (below, obstacle) := descend here more
      (here :: below, obstacle)

/-- Makes the directories that names lead to from one that is there. -/
def makeBelow (t : Tree) (above : Location) : List (List Char) → Tree × Option Obstacle
  | [] => (t, none)
  | name :: more =>
    let here := above ++ [name]
    match t.get? here with
    | some .directory => makeBelow t here more
    | some (.file _) => (t, some (if more.isEmpty then .occupied else .notDirectory))
    | none =>
      let (made, obstacle) := descend above (name :: more)
      (⟨t.entries ++ made.map (·, .directory)⟩, obstacle)

/-- Makes a directory, by an absolute path in normal form, with all that lead to it.  What
was made before something stood in the way stays. -/
def makeDirectories (t : Tree) (p : Path) : Tree × Option Obstacle :=
  if isTooLong p then (t, some .nameTooLong) else t.makeBelow [] p.location

/-- Writes a text to a file in a directory that is there. -/
def writeText (t : Tree) (directory : Path) (name text : String) : Except Obstacle Tree :=
  let l := directory.location ++ [name.toList]
  if isTooLong (directory.join ⟨name⟩) then .error .nameTooLong
  else match t.get? l with
    | some .directory => .error .isDirectory
    | _ =>
      if nameLimit < name.utf8ByteSize then .error .nameTooLong
      else .ok (t.put l (.file (.text text)))

end Tree

/-- The path that leads on from a path through names. -/
def Path.below (p : Path) (names : Location) : Path :=
  names.foldl (fun q name => q.join ⟨String.ofList name⟩) p

end DaoGen
