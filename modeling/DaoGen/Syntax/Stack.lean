import DaoGen.Syntax.Derivation
import DaoGen.Syntax.Scan
set_option autoImplicit false

/-!
# Stacks

What has been read of a text so far is a stack of derivations with states in between.
Several stacks that come to the same state at the same place go on as one, which then
has more than one way down.
-/

namespace DaoGen.Syntax

/-- A place in a text: what follows, and where that starts. -/
structure Place where
  rest : List Char
  position : Text.Position
  deriving Inhabited

mutual

/-- A stack: a number that tells it from others, its state, its place, and how good its
best reading is. -/
inductive Stack where
  | top (number : Nat) (state : State) (place : Place) (weight : Int) (links : List Link)

/-- A way down from a stack. -/
inductive Link where
  | over (derivation : Derivation) (below : Stack)

end

instance : Inhabited Stack := ⟨.top 0 default default 0 []⟩

namespace Stack

def number : Stack → Nat
  | top number .. => number

def state : Stack → State
  | top _ state .. => state

def place : Stack → Place
  | top _ _ place .. => place

/-- How many bytes of the text have been read. -/
def offset (s : Stack) : Nat := s.place.position.offset

def weight : Stack → Int
  | top _ _ _ weight _ => weight

def links : Stack → List Link
  | top _ _ _ _ links => links

/-- A stack with one more derivation on it. -/
def push (number : Nat) (state : State) (place : Place) (d : Derivation) (s : Stack) : Stack :=
  top number state place (s.weight + d.weight) [.over d s]

/-- A way down that a stack can take: what is left below, and the derivations above that,
lowest first, each with the place after it. -/
abbrev Descent := Stack × List (Derivation × Place)

mutual

/-- All ways to take a number of parts off a stack.  Comments are no parts. -/
def pop (above : List (Derivation × Place)) (count : Nat) : Stack → List Descent
  | top number state place weight links =>
    match count with
    | 0 => [(top number state place weight links, above)]
    | count + 1 => popLinks above count place links

/-- All ways to take one part and some more off a stack with the given place and links. -/
def popLinks (above : List (Derivation × Place)) (count : Nat) (place : Place) :
    List Link → List Descent
  | [] => []
  | .over d below :: rest =>
    pop ((d, place) :: above) (if d.isExtra then count + 1 else count) below ++
      popLinks above count place rest

end

mutual

/-- All ways down to the bottom of a stack. -/
def popAll (above : List Derivation) : Stack → List (List Derivation)
  | top _ _ _ _ links => if links.isEmpty then [above] else popAllLinks above links

/-- All ways down to the bottom by the given links. -/
def popAllLinks (above : List Derivation) : List Link → List (List Derivation)
  | [] => []
  | .over d below :: rest => popAll (d :: above) below ++ popAllLinks above rest

end

/-! ## Stacks that meet -/

/-- Whether two stacks can go on as one. -/
def meets (a b : Stack) : Bool := a.offset = b.offset && a.state.same b.state

/-- The most ways down that a stack keeps. -/
def linkLimit : Nat := 8

/-- Whether two derivations on top of two stacks read the same text as the same phrase, as
far as that can be told without looking into them. -/
def alike (d : Derivation) (below : Stack) (e : Derivation) (under : Stack) : Bool :=
  d.order = e.order && d.start? = e.start? && below.offset = under.offset &&
    d.children.length = e.children.length && d.isExtra = e.isExtra

/-- The links of a stack with one more, unless that reads the same as one that is there;
`join` makes one of the new way down and another.  Nothing if there is no such link. -/
def joinLinks (d : Derivation) (below : Stack) (join : Stack → Stack) :
    List Link → Option (List Link)
  | [] => none
  | .over e under :: rest =>
    if alike d below e under && under.number = below.number then
      some (.over (if e.weight < d.weight then d else e) under :: rest)
    else if alike d below e under && under.meets below then
      some (.over e (join under) :: rest)
    else (joinLinks d below join rest).map (Link.over e under :: ·)

/-- A stack with one more way down. -/
def addLink (d : Derivation) (below : Stack) (join : Stack → Stack) : Stack → Stack
  | top number state place weight links =>
    let best := max weight (below.weight + d.weight)
    match joinLinks d below join links with
    | some links => top number state place best links
    | none =>
      if linkLimit ≤ links.length then top number state place weight links
      else top number state place best (links ++ [.over d below])

mutual

/-- One stack for two that meet. -/
def merge (a : Stack) : Stack → Stack
  | top _ _ _ _ links => mergeLinks a links

/-- A stack with more links. -/
def mergeLinks (a : Stack) : List Link → Stack
  | [] => a
  | .over d below :: rest => mergeLinks (addLink d below (fun under => merge under below) a) rest

end

end Stack

end DaoGen.Syntax
