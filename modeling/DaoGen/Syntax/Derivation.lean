import DaoGen.Syntax.Automaton
set_option autoImplicit false

/-!
# Derivations

How a text follows from the productions of a grammar: a tree with a branch for every
phrase, also for those that have no nodes of their own.  Of two derivations of the same
text one can be better than the other.  What is left without the branches of hidden
phrases is the syntax tree.
-/

namespace DaoGen.Syntax

/-- How a stretch of text is read. -/
inductive Derivation where
  /-- a token, or a comment -/
  | leaf (number : Nat) (isExtra isHidden : Bool) (node : Node)
  /-- a phrase, the kind of its nodes if it has any, how good its reading is, and what its
  parts are to its node -/
  | branch (phrase : Nat) (kind : Option Kind) (weight : Int) (parts : List Part)
      (children : List Derivation)
  deriving Inhabited

namespace Derivation

/-- Comments do not count as parts of a phrase. -/
def isExtra : Derivation → Bool
  | leaf _ isExtra .. => isExtra
  | branch .. => false

/-- How good a reading is. -/
def weight : Derivation → Int
  | leaf .. => 0
  | branch _ _ weight .. => weight

/-- The order of symbols: tokens before phrases. -/
def order : Derivation → Nat × Nat
  | leaf number .. => (0, number)
  | branch phrase .. => (1, phrase)

/-- The derivations below one. -/
def children : Derivation → List Derivation
  | leaf .. => []
  | branch _ _ _ _ children => children

mutual

/-- Where the text of a derivation starts. -/
def start? : Derivation → Option Nat
  | leaf _ _ _ node => some node.start.offset
  | branch _ _ _ _ children => startOfAny? children

/-- Where the text of the first of some derivations starts. -/
def startOfAny? : List Derivation → Option Nat
  | [] => none
  | d :: _ => start? d

end

/-- A phrase with its children. -/
def ofItem (item : Item) (children : List Derivation) : Derivation :=
  branch item.dotted.head item.dotted.kind (children.foldl (fun sum d => sum + d.weight) item.dotted.weight)
    item.dotted.done children

mutual

/-- Whether a derivation comes before another of the same text: symbols are compared from
the top to the leaves and from left to right, and fewer children come first. -/
def compare : Derivation → Derivation → Ordering
  | leaf m .., leaf n .. => Ord.compare m n
  | leaf .., branch .. => .lt
  | branch .., leaf .. => .gt
  | branch p _ _ _ as, branch q _ _ _ bs =>
    ((Ord.compare p q).then (Ord.compare as.length bs.length)).then (compareAll as bs)

/-- Compares derivations one after the other. -/
def compareAll : List Derivation → List Derivation → Ordering
  | [], [] => .eq
  | [], _ => .lt
  | _, [] => .gt
  | a :: as, b :: bs => (compare a b).then (compareAll as bs)

end

/-- The better of two derivations of the same text; the first one if they are equally
good. -/
def better (a b : Derivation) : Derivation :=
  if a.weight < b.weight then b
  else if b.weight < a.weight then a
  else if compare a b = .gt then b else a

/-! ## The syntax tree of a derivation -/

/-- A node in the role and of the kind that it has as a part. -/
def place (part : Part) (n : Node) : Node :=
  let n := if part.role = .plain then n else n.withRole part.role
  match part.kind, n with
  | some kind, .leaf role _ before start text => .leaf role kind before start text
  | _, _ => n

mutual

/-- The nodes of a derivation that is a part of another one. -/
def nodes (part : Part) : Derivation → List Node
  | leaf _ _ isHidden node => if isHidden then [] else [place part node]
  | branch _ kind _ parts children =>
    let inner := nodesOf parts children
    match part.kind <|> kind with
    | some kind => [.branch part.role kind inner]
    | none => if part.role = .plain then inner else Node.assign part.role inner

/-- The nodes of the derivations below one; comments are no parts. -/
def nodesOf : List Part → List Derivation → List Node
  | _, [] => []
  | parts, leaf number true isHidden node :: rest =>
    nodes {} (leaf number true isHidden node) ++ nodesOf parts rest
  | parts, child :: rest => nodes (parts.headD {}) child ++ nodesOf parts.tail rest

end
end Derivation

end DaoGen.Syntax
