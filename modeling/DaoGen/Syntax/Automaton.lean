import DaoGen.Syntax.Production
set_option autoImplicit false

/-!
# The automaton of a grammar

What can follow at a point of a text is known from the items there: productions read up
to some step, each with the tokens that may come after it.  A state is the set of the
items that have been entered; what those wait for is worked out from them.

In a state, a token can be taken in, or one of the items that are complete can be made a
phrase.  Where more than one of that is possible, how tightly the items bind decides;
where it does not, all of it is tried.
-/

namespace DaoGen.Syntax

/-! ## Sets of tokens -/

/-- A set of token numbers. -/
abbrev TokenSet := Nat

namespace TokenSet

/-- The set with one member. -/
def single (n : Nat) : TokenSet := Nat.shiftLeft 1 n

/-- Members of either set. -/
def union (a b : TokenSet) : TokenSet := Nat.lor a b

/-- Whether a number is a member. -/
def has (set : TokenSet) (n : Nat) : Bool := Nat.testBit set n

end TokenSet

/-! ## Items -/

/-- A production read up to some step.  What was read is kept as far as it matters later,
so that productions which differ only in what was read have items in common. -/
structure Dotted where
  head : Nat
  kind : Option Kind
  rank : Option Rank
  side : Option Side
  weight : Int
  done : List Part
  rest : List (Symbol × Part)
  deriving DecidableEq, Hashable, Repr, Inhabited

/-- An item of the automaton. -/
structure Item where
  dotted : Dotted
  /-- the number of steps that were read -/
  length : Nat
  next : Option Symbol
  /-- the item after the next step -/
  after : Nat
  deriving Repr, Inhabited

/-- The items of all productions. -/
structure Items where
  items : Array Item := #[]
  number : Std.HashMap Dotted Nat := {}
  /-- for the first symbol of a production, its head and the item after that symbol -/
  starts : Std.HashMap Symbol (List (Nat × Nat)) := {}
  /-- for the head of a production, its first symbol and, if there is one, its second -/
  corners : Std.HashMap Nat (List (Symbol × Option Symbol)) := {}
  deriving Inhabited

namespace Items

/-- Adds an item unless it is known, and gives its number. -/
def add (all : Items) (dotted : Dotted) (after : Nat) : Nat × Items :=
  match all.number[dotted]? with
  | some n => (n, all)
  | none =>
    let n := all.items.size
    let item : Item := ⟨dotted, dotted.done.length, dotted.rest.head?.map (·.1), after⟩
    (n, { all with items := all.items.push item, number := all.number.insert dotted n })

/-- Adds the items of a production from some step on. -/
def addFrom (all : Items) (p : Production) (done : List Part) :
    List (Symbol × Part) → Nat × Items
  | [] => all.add ⟨p.head, p.kind, p.rank, p.side, p.weight, done, []⟩ 0
  | step :: rest =>
    let (after, all) := all.addFrom p (done ++ [step.2]) rest
    all.add ⟨p.head, p.kind, p.rank, p.side, p.weight, done, step :: rest⟩ after

/-- Adds the items of a production. -/
def addProduction (all : Items) (p : Production) : Items :=
  match p.steps with
  | [] => all
  | step :: rest =>
    let (n, all) := all.addFrom p [step.2] rest
    let starts := all.starts.getD step.1 []
    let corners := all.corners.getD p.head []
    let corner := (step.1, rest.head?.map (·.1))
    { all with
      starts :=
        if starts.contains (p.head, n) then all.starts
        else all.starts.insert step.1 ((p.head, n) :: starts)
      corners :=
        if corners.contains corner then all.corners
        else all.corners.insert p.head (corner :: corners) }

/-- The items of some productions. -/
def ofProductions (productions : List Production) : Items :=
  productions.foldl addProduction {}

end Items

/-! ## What starts a phrase -/

/-- A phrase that another one may start with: the tokens that may come after it inside of
the other one, and whether it may also end the other one. -/
structure Corner where
  phrase : Nat
  follow : TokenSet
  ends : Bool
  deriving Repr, Inhabited

/-- The tables of an automaton. -/
structure Table where
  alphabet : Alphabet
  items : Array Item
  starts : Std.HashMap Symbol (List (Nat × Nat))
  /-- the tokens that a phrase may start with -/
  first : Array TokenSet
  /-- the phrases that a phrase may start with, itself included -/
  corners : Array (List Corner)
  /-- the complete items of the whole text, to start with -/
  beginnings : List Nat
  /-- the marks among the tokens -/
  marks : List (String × List Char)

/-- The tokens that a symbol may start with. -/
def firstOf (first : Array TokenSet) : Symbol → TokenSet
  | .token n => .single n
  | .phrase n => first.getD n 0

/-- Adds the first tokens of a phrase as far as those of its first symbols are known. -/
def growFirst (corners : Std.HashMap Nat (List (Symbol × Option Symbol)))
    (first : Array TokenSet) (phrase : Nat) : Array TokenSet :=
  let tokens := (corners.getD phrase []).foldl
    (fun set (s, _) => set.union (firstOf first s)) (first.getD phrase 0)
  first.setIfInBounds phrase tokens

/-- Repeats a step until it changes nothing, at most as often as a bound says. -/
def settle {α : Type} [BEq α] (step : α → α) : Nat → α → α
  | 0, a => a
  | bound + 1, a => let b := step a; if b == a then a else settle step bound b

/-- The first tokens of all phrases. -/
def firstTokens (corners : Std.HashMap Nat (List (Symbol × Option Symbol))) (count : Nat) :
    Array TokenSet :=
  settle (fun first => (List.range count).foldl (growFirst corners) first) count
    (Array.replicate count 0)

/-- What is known of the corners of one phrase: for every phrase its follow set, if it is a
corner, and whether it may end the phrase. -/
abbrev Reach := Array (Option (TokenSet × Bool))

/-- Adds the corners that a corner has itself. -/
def Reach.grow (corners : Std.HashMap Nat (List (Symbol × Option Symbol)))
    (first : Array TokenSet) (reach : Reach) (phrase : Nat) : Reach :=
  match reach.getD phrase none with
  | none => reach
  | some (follow, ends) =>
    (corners.getD phrase []).foldl (fun reach (s, next) =>
      match s with
      | .token _ => reach
      | .phrase n =>
        let (oldFollow, oldEnds) := (reach.getD n none).getD (0, false)
        match next with
        | some next =>
          reach.setIfInBounds n (some (oldFollow.union (firstOf first next), oldEnds))
        | none => reach.setIfInBounds n (some (oldFollow.union follow, oldEnds || ends)))
      reach

/-- The corners of a phrase. -/
def cornersOf (corners : Std.HashMap Nat (List (Symbol × Option Symbol)))
    (first : Array TokenSet) (count phrase : Nat) : List Corner :=
  let start : Reach := (Array.replicate count none).setIfInBounds phrase (some (0, true))
  let reach := settle (fun r => (List.range count).foldl (Reach.grow corners first) r) count start
  reach.toList.zipIdx.filterMap fun (found, n) => found.map fun (follow, ends) => ⟨n, follow, ends⟩

namespace Table

/-- The tables of the automaton of some rules. -/
def ofRules (rules : List Rule) : Table :=
  let alphabet := Alphabet.ofRules rules
  let productions := alphabet.productions rules
  let program := Phrase.program.number
  let all := Items.ofProductions productions
  let count := Alphabet.phraseCount + alphabet.repetitions.length
  let first := firstTokens all.corners count
  let (beginnings, all) := (productions.filter (·.head = program)).foldl
    (fun (found, all) p =>
      let (n, all) := Items.addFrom all p [] p.steps
      (n :: found, all)) (([] : List Nat), all)
  { alphabet
    items := all.items
    starts := all.starts
    first
    corners := ((List.range count).map (cornersOf all.corners first count)).toArray
    beginnings
    marks := alphabet.tokens.toList.filterMap fun t =>
      match t with
      | .mark text => some (text, text.toList)
      | _ => none }

end Table

/-! ## States -/

/-- A point of a text: the items that have been entered, each with the tokens that may come
after it. -/
structure State where
  kernel : Array (Nat × TokenSet)
  /-- items that are complete, shorter ones first -/
  complete : List (Item × TokenSet)
  /-- items that wait for a symbol -/
  open_ : List (Item × TokenSet)
  /-- tokens that can be taken in -/
  shiftable : TokenSet
  /-- tokens on which a complete item can be made a phrase -/
  reducible : TokenSet
  /-- for every phrase that is waited for, the tokens that may come after it -/
  wanted : Thunk (Array TokenSet)
  deriving Inhabited

namespace Table

/-- The tokens that may come after the next symbol of an item. -/
def followOf (table : Table) (item : Item) (ahead : TokenSet) : TokenSet :=
  match item.dotted.rest with
  | _ :: (s, _) :: _ => firstOf table.first s
  | _ => ahead

/-- The phrases that some items wait for, with the tokens that may come after them. -/
def wantedBy (table : Table) (items : List (Item × TokenSet)) : Array TokenSet :=
  let count := table.first.size
  let direct := items.foldl (fun (found : Array TokenSet) (item, ahead) =>
    match item.next with
    | some (.phrase n) =>
      found.setIfInBounds n ((found.getD n 0).union (table.followOf item ahead))
    | _ => found) (Array.replicate count 0)
  (List.range count).foldl (fun wanted n =>
    let follow := direct.getD n 0
    if follow = 0 then wanted
    else (table.corners.getD n []).foldl (fun wanted corner =>
      let more := if corner.ends then corner.follow.union follow else corner.follow
      wanted.setIfInBounds corner.phrase ((wanted.getD corner.phrase 0).union more)) wanted)
    (Array.replicate count 0)

/-- Whether a complete item comes before another one: shorter ones do, and of two of the
same length the one with the earlier head. -/
def comesBefore (a b : Item) : Bool :=
  a.length < b.length || (a.length = b.length && a.dotted.head < b.dotted.head)

/-- Puts a complete item in its place among others. -/
def insertComplete (entry : Item × TokenSet) : List (Item × TokenSet) → List (Item × TokenSet)
  | [] => [entry]
  | other :: rest =>
    if comesBefore entry.1 other.1 then entry :: other :: rest
    else other :: insertComplete entry rest

/-- The state with the given items. -/
def state (table : Table) (kernel : Array (Nat × TokenSet)) : State :=
  let items := kernel.toList.map fun (n, ahead) => (table.items.getD n default, ahead)
  let open_ := items.filter fun (item, _) => item.next.isSome
  let complete := items.filter fun (item, _) => item.next.isNone
  { kernel
    complete := complete.foldr insertComplete []
    open_
    shiftable := open_.foldl (fun set (item, _) =>
      match item.next with
      | some s => set.union (firstOf table.first s)
      | none => set) 0
    reducible := complete.foldl (fun set (_, ahead) => set.union ahead) 0
    wanted := Thunk.mk fun _ => table.wantedBy open_ }

/-- The state before the first token. -/
def initial (table : Table) : State :=
  table.state ((table.beginnings.map fun n => (n, TokenSet.single 0)).toArray)

/-- The state after a symbol. -/
def step (table : Table) (s : State) (symbol : Symbol) : State :=
  let advanced := s.kernel.filterMap fun (n, ahead) =>
    let item := table.items.getD n default
    if item.next = some symbol then some (item.after, ahead) else none
  let wanted := s.wanted.get
  let entered := (table.starts.getD symbol []).filterMap fun (head, n) =>
    let ahead := wanted.getD head 0
    if ahead = 0 then none else some (n, ahead)
  table.state (advanced ++ entered.toArray)

end Table

/-- Whether two states have the same items. -/
def State.same (a b : State) : Bool :=
  a.kernel.size = b.kernel.size &&
    (a.kernel == b.kernel || a.kernel.all fun entry => b.kernel.contains entry)

/-! ## Choice between actions -/

/-- How tightly an item binds. -/
structure Binding where
  rank : Option Rank
  heads : List Nat
  deriving Repr, Inhabited

/-- Whether a member of a row of bindings stands for a binding. -/
def Grammar.Binder.fits (b : Grammar.Binder) (x : Binding) : Bool :=
  match b with
  | .rank r => x.rank = some r
  | .phrase p => x.heads.contains p.number

/-- Compares two bindings by one row, if both stand in it.  The arguments after the first
two say whether one or the other of them was found already. -/
def compareInRow (a b : Binding) : Bool → Bool → List Grammar.Binder → Option Ordering
  | _, _, [] => none
  | seenA, seenB, binder :: rest =>
    if binder.fits a then
      if seenB then some .lt else compareInRow a b true seenB rest
    else if binder.fits b then
      if seenA then some .gt else compareInRow a b seenA true rest
    else compareInRow a b seenA seenB rest

/-- The level of a rank that is a number. -/
def Rank.level? : Option Rank → Option Int
  | none => some 0
  | some (.level n) => some n
  | some _ => none

/-- Compares two bindings: numbers as numbers, all others by the first row that has both. -/
def Binding.compare (a b : Binding) : Ordering :=
  let byRow := (Grammar.bindings.findSome? (compareInRow a b false false)).getD .eq
  match Rank.level? a.rank, Rank.level? b.rank with
  | some m, some n => if m = 0 && n = 0 then byRow else Ord.compare m n
  | _, _ => byRow

/-- What can be done with the next token. -/
structure Choice where
  /-- complete items to make phrases of -/
  reduced : List Item := []
  /-- whether the token can be taken in -/
  shifts : Bool := false
  deriving Inhabited

/-- The items that can be made phrases of, of those that bind most tightly. -/
def tightest : List Item → List Item × Binding
  | items =>
    items.foldl (fun (kept, binding) item =>
      let own : Binding := ⟨item.dotted.rank, [item.dotted.head]⟩
      if kept.isEmpty then ([item], own)
      else
        match own.compare binding with
        | .gt => ([item], own)
        | .eq => (kept ++ [item], ⟨item.dotted.rank, item.dotted.head :: binding.heads⟩)
        | .lt => (kept, binding)) (([] : List Item), (⟨none, []⟩ : Binding))

/-- What can be done in a state with a token. -/
def Table.choice (table : Table) (s : State) (token : Nat) : Choice :=
  let ready := (s.complete.filter fun (_, ahead) => ahead.has token).map (·.1)
  let shifts := s.shiftable.has token
  match ready with
  | [] => { shifts }
  | _ =>
    let (reduced, binding) := tightest ready
    if !shifts then { reduced }
    else
      let waiting := (s.open_.filter fun (item, _) =>
        0 < item.length && (item.next.map fun n => (firstOf table.first n).has token) = some true)
          |>.map (·.1)
      let heads := (waiting ++ ready).map (·.dotted.head)
      let isRepetition : Bool :=
        match heads with
        | head :: rest => Alphabet.phraseCount ≤ head && rest.all (· = head)
        | [] => false
      if isRepetition then { reduced }
      else
        let orders := waiting.map fun item =>
          (Binding.mk item.dotted.rank [item.dotted.head]).compare binding
        let more := orders.contains .gt
        let less := orders.contains .lt
        if more && !less then { shifts }
        else if less && !more then { reduced }
        else if less && more then { reduced, shifts }
        else
          let sides := reduced.map (·.dotted.side)
          if sides.all (· = some .left) then { reduced }
          else if sides.all (· = some .right) then { shifts }
          else { reduced, shifts }

end DaoGen.Syntax
