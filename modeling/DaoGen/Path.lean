set_option autoImplicit false

/-!
# Paths

A path is a text with `/` between its parts.  Two paths are the same when their
parts are: repeated and trailing separators and inner `.` parts mean nothing.
The text itself is kept, because a path is shown the way it was given.

Nothing here looks at a file system: `..` is resolved by dropping the part
before it.
-/

namespace DaoGen

/-- One part of a path. -/
inductive Path.Part where
  /-- the separator that an absolute path starts with -/
  | root
  /-- a leading `.` -/
  | here
  /-- `..` -/
  | parent
  /-- any other name -/
  | name (text : List Char)
  deriving DecidableEq, Repr

/-- A path as given. -/
structure Path where
  text : String
  deriving Repr, Inhabited

namespace Path

namespace Part

/-- How a part is spelled. -/
def spelling : Part → List Char
  | root => ['/']
  | here => ['.']
  | parent => ['.', '.']
  | name text => text

/-- Kinds of parts in ascending order: the root first, names last. -/
def rank : Part → Nat
  | root => 0
  | here => 1
  | parent => 2
  | name _ => 3

/-- Parts are ordered by kind, names among themselves by their characters. -/
def compare (a b : Part) : Ordering :=
  (Ord.compare a.rank b.rank).then
    (compareOfLessAndEq a.spelling b.spelling)

end Part

/-! ## Parts -/

/-- The stretches between separators; there is always at least one. -/
def pieces : List Char → List (List Char)
  | [] => [[]]
  | c :: rest =>
    if c = '/' then [] :: pieces rest
    else match pieces rest with
      | [] => [[c]]
      | piece :: more => (c :: piece) :: more

/-- A piece that stands for no part unless it comes first. -/
def isVoid (piece : List Char) : Bool := piece = [] || piece = ['.']

/-- The part a piece that is not void spells. -/
def partOfPiece (piece : List Char) : Part :=
  if piece = ['.', '.'] then .parent else .name piece

/-- The parts after the first piece. -/
def laterParts (more : List (List Char)) : List Part :=
  (more.filter (!isVoid ·)).map partOfPiece

/-- The parts of a text. -/
def partsOfText (text : List Char) : List Part :=
  match pieces text with
  | [] => []
  | first :: more =>
    if first = [] then (if more = [] then [] else .root :: laterParts more)
    else if first = ['.'] then .here :: laterParts more
    else partOfPiece first :: laterParts more

/-- The parts of a path. -/
def parts (p : Path) : List Part := partsOfText p.text.toList

/-- Paths are compared by their parts. -/
instance : BEq Path := ⟨fun a b => a.parts == b.parts⟩

/-- Paths are ordered part by part. -/
def compareParts : List Part → List Part → Ordering
  | [], [] => .eq
  | [], _ :: _ => .lt
  | _ :: _, [] => .gt
  | a :: as, b :: bs => (a.compare b).then (compareParts as bs)

instance : Ord Path := ⟨fun a b => compareParts a.parts b.parts⟩

/-- An absolute path starts at the root. -/
def isAbsolute (p : Path) : Bool := p.text.toList.head? = some '/'

/-! ## Paths from parts -/

/-- The text of a relative list of parts: the parts with separators between. -/
def joinText : List Part → List Char
  | [] => []
  | [part] => part.spelling
  | part :: rest => part.spelling ++ '/' :: joinText rest

/-- The path whose parts are given; a root is followed by no further separator. -/
def ofParts : List Part → Path
  | .root :: rest => ⟨String.ofList ('/' :: joinText rest)⟩
  | rest => ⟨String.ofList (joinText rest)⟩

/-- The path `q` seen from `p`: an absolute `q` replaces `p`. -/
def join (p q : Path) : Path :=
  if q.isAbsolute then q
  else if p.text.isEmpty || p.text.toList.getLast? = some '/' then ⟨p.text ++ q.text⟩
  else ⟨p.text ++ "/" ++ q.text⟩

/-- The directory a path lies in; a path with a single part or none lies in the
empty path. -/
def directory (p : Path) : Path := ofParts p.parts.dropLast

/-! ## Normal form -/

/-- One more part after the parts of a normal form.  `.` stays, `..` drops the
last part that can be dropped and is kept when there is none. -/
def step (done : List Part) : Part → List Part
  | .here => done
  | .parent =>
    match done.getLast? with
    | none | some .root => done ++ [.parent]
    | some _ => done.dropLast
  | part => done ++ [part]

/-- The path without `.` and with every `..` resolved where it can be. -/
def normalize (p : Path) : Path := ofParts (p.parts.foldl step [])

/-! ## Extensions -/

/-- The pieces of a text without the void ones at its end. -/
def solidPieces (text : List Char) : List (List Char) :=
  match pieces text with
  | [] => []
  | first :: more => first :: (more.reverse.dropWhile isVoid).reverse

/-- What stands before the last name of a path, and that name; nothing for a path
that ends in the root, `.` or `..`. -/
def splitName (text : List Char) : Option (List (List Char) × List Char) :=
  match (solidPieces text).reverse with
  | [] => none
  | last :: before =>
    if isVoid last || last = ['.', '.'] then none else some (before.reverse, last)

/-- The last name of a path. -/
def fileName (p : Path) : Option (List Char) := (splitName p.text.toList).map (·.2)

/-- A name before its last dot, and after it when that dot is not the first
character. -/
def splitExtension (name : List Char) : List Char × Option (List Char) :=
  match name.reverse.dropWhile (· ≠ '.') with
  | [] => (name, none)
  | [_] => (name, none)
  | _ :: before => (before.reverse, some (name.reverse.takeWhile (· ≠ '.')).reverse)

/-- The extension of a path's last name. -/
def extension (p : Path) : Option (List Char) := p.fileName.bind fun n => (splitExtension n).2

/-- Pieces with separators between them. -/
def joinPieces : List (List Char) → List Char
  | [] => []
  | [piece] => piece
  | piece :: rest => piece ++ '/' :: joinPieces rest

/-- A text cut after the stem of its last name. -/
def cutAfterStem (text : List Char) : List Char :=
  match splitName text with
  | none => text
  | some (before, name) => joinPieces (before ++ [(splitExtension name).1])

/-- Extensions of script files. -/
def scriptExtensions : List String := ["ts", "tsx", "js", "jsx", "mjs", "cjs", "mts", "cts"]

/-- The path of a script file as a module: without its script extension.  As many
characters as the extension has go from the end of the text, and then all that
follows the stem of the last name that is left. -/
def moduleStem (p : Path) : Path :=
  match p.extension with
  | none => p
  | some ext =>
    if scriptExtensions.contains (String.ofList ext) then
      let text := p.text.toList
      ⟨String.ofList (cutAfterStem (text.take (text.length - ext.length)))⟩
    else p

/-! ## Difference -/

/-- The parts that lead from a base to a target once the two have parted.  A base
that starts with `.` climbs over nothing there; one with `..` cannot be climbed. -/
def climb : List Part → List Part → Option (List Part)
  | target, [] => some target
  | [], _ :: base => (climb [] base).map (.parent :: ·)
  | part :: target, .here :: base => (climb target base).map (part :: ·)
  | _ :: _, .parent :: _ => none
  | part :: target, _ :: base =>
    some (List.replicate (base.length + 1) Part.parent ++ part :: target)

/-- The parts that lead from a base to a target: shared leading parts vanish. -/
def differenceParts : List Part → List Part → Option (List Part)
  | part :: target, other :: base =>
    if part = other then differenceParts target base else climb (part :: target) (other :: base)
  | target, base => climb target base

/-- The path that leads from `base` to `target`.  A target that alone is absolute
leads there itself; a base that alone is absolute leads nowhere. -/
def difference? (target base : Path) : Option Path :=
  if target.isAbsolute = base.isAbsolute then
    (differenceParts target.parts base.parts).map ofParts
  else if target.isAbsolute then some target
  else none

end Path

end DaoGen
