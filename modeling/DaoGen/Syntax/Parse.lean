import DaoGen.Syntax.Stack
set_option autoImplicit false

/-!
# Reading a source text

A text is read by several stacks side by side, for as long as it can be read in several
ways.  A stack takes a token in, or makes a phrase of what lies on top of it, as the
automaton says; one that can do neither is given up.  The text follows the grammar if one
of them comes to its end.
-/

namespace DaoGen.Syntax

/-- The state of reading a text. -/
structure Run where
  /-- the stacks, the most promising first; none for one that was given up -/
  readers : Array (Option Stack)
  /-- the number of the next stack -/
  next : Nat := 1
  /-- how far the text has been read -/
  reached : Nat := 0
  /-- the best reading of the whole text so far -/
  finished : Option Derivation := none
  deriving Inhabited

namespace Run

/-- The most stacks that are kept. -/
def stackLimit : Nat := 6

/-- How many more stacks there may be for a while. -/
def spareStacks : Nat := 4

/-- The stack with a number. -/
def stack? (run : Run) (i : Nat) : Option Stack := run.readers.getD i none

/-- The run with another stack in a place. -/
def set (run : Run) (i : Nat) (s : Option Stack) : Run :=
  { run with readers := run.readers.setIfInBounds i s }

/-! ## Making phrases -/

/-- Adds a stack, or joins it with one that it meets, other than the given one. -/
def enter (run : Run) (from_ : Nat) (s : Stack) : Run :=
  let met := (List.range run.readers.size).find? fun j =>
    j ≠ from_ && ((run.stack? j).map (·.meets s)).getD false
  match met with
  | some j => run.set j ((run.stack? j).map (·.merge s))
  | none => { run with readers := run.readers.push (some s) }

/-- Ways down put together by what is left below. -/
def group (descents : List Stack.Descent) :
    List (Stack × List (List (Derivation × Place))) :=
  descents.foldl (fun groups (base, parts) =>
    if groups.any fun (other, _) => other.number = base.number then
      groups.map fun (other, found) =>
        if other.number = base.number then (other, found ++ [parts]) else (other, found)
    else groups ++ [(base, [parts])]) []

/-- The phrase that some parts make, with the comments after it. -/
def phraseOf (item : Item) (parts : List (Derivation × Place)) :
    Derivation × List (Derivation × Place) :=
  let inner := (parts.reverse.dropWhile (·.1.isExtra)).reverse
  (.ofItem item (inner.map (·.1)), parts.drop inner.length)

/-- Makes a phrase of the parts on top of a stack, of the best ones if there are several
ways down to the same stack. -/
def reduceOnto (table : Table) (item : Item) (from_ : Nat) (run : Run)
    (descents : Stack × List (List (Derivation × Place))) : Run :=
  let (base, found) := descents
  match found with
  | [] => run
  | first :: others =>
    if stackLimit + spareStacks < run.readers.size then run
    else
      let (phrase, comments) := phraseOf item first
      let phrase := others.foldl (fun best parts => best.better (phraseOf item parts).1) phrase
      let place :=
        ((first.take (first.length - comments.length)).getLast?.map (·.2)).getD base.place
      let state := table.step base.state (.phrase item.dotted.head)
      let pushed := base.push run.next state place phrase
      let (s, next) := comments.foldl (fun (s, next) (comment, place) =>
        (Stack.push next state place comment s, next + 1)) (pushed, run.next + 1)
      { run with next }.enter from_ s

/-- Makes a phrase of the parts on top of a stack. -/
def reduce (table : Table) (i : Nat) (item : Item) (run : Run) : Run :=
  match run.stack? i with
  | none => run
  | some s => (group (s.pop [] item.length)).foldl (reduceOnto table item i) run

/-- Ends a stack that has read the whole text. -/
def accept (i : Nat) (item : Item) (run : Run) : Run :=
  match run.stack? i with
  | none => run
  | some s =>
    let readings := (s.popAll []).map (Derivation.ofItem item)
    let finished := readings.foldl (fun best d =>
      match best with
      | some b => some (b.better d)
      | none => some d) run.finished
    { run with finished }.set i none

/-! ## Taking tokens in -/

/-- A token as a derivation, with the place after it. -/
def leafOf (table : Table) (place : Place) (lexed : Lexed) (token : Token) : Derivation × Place :=
  let start := place.position.advance lexed.before
  (.leaf (table.alphabet.number.getD token 0) token.isExtra token.isEmpty
      (.leaf .plain token.kind lexed.before start lexed.text),
    ⟨lexed.rest, start.advance lexed.text⟩)

/-- The stack with a token on it. -/
def shift (table : Table) (i : Nat) (lexed : Lexed) (token : Token) (run : Run) : Run :=
  match run.stack? i with
  | none => run
  | some s =>
    let (leaf, place) := leafOf table s.place lexed token
    let state :=
      if token.isExtra then s.state
      else table.step s.state (table.alphabet.symbol token)
    { run with next := run.next + 1 }.set i (some (s.push run.next state place leaf))

/-- Puts a later stack in the place of another one. -/
def replace (run : Run) (i j : Nat) : Run :=
  { run with readers := (run.readers.setIfInBounds i (run.stack? j)).eraseIdxIfInBounds j }

/-- Does what can be done with a token: phrases are made until it can be taken in. -/
def consume (table : Table) (i : Nat) (lexed : Lexed) : Nat → Token → Run → Run
  | 0, _, run => run.set i none
  | bound + 1, token, run =>
    match run.stack? i with
    | none => run
    | some s =>
      if token.isExtra then run.shift table i lexed token
      else
        let choice := table.choice s.state (table.alphabet.number.getD token 0)
        match choice.reduced.find? (·.dotted.head = Phrase.program.number) with
        | some item => run.accept i item
        | none =>
          let (after, last) := choice.reduced.foldl (fun (run, last) item =>
            let after := reduce table i item run
            (after, if run.readers.size < after.readers.size then some run.readers.size else last))
            (run, (none : Option Nat))
          if choice.shifts then after.shift table i lexed token
          else
            match last with
            | some j => consume table i lexed bound token (after.replace i j)
            | none =>
              match token with
              | .word _ =>
                let named := table.choice s.state (table.alphabet.number.getD .name 0)
                if choice.reduced.isEmpty && (named.shifts || !named.reduced.isEmpty) then
                  consume table i lexed bound .name run
                else after.set i none
              | _ => after.set i none

/-- Whether a token is valid in a state. -/
def valid (table : Table) (s : State) (token : Token) : Bool :=
  token.isExtra ||
    match table.alphabet.number[token]? with
    | some n => s.shiftable.has n || s.reducible.has n
    | none => false

/-- Lets a stack take one token in. -/
def advance (table : Table) (bound i : Nat) (run : Run) : Run :=
  match run.stack? i with
  | none => run
  | some s =>
    match scan bound (valid table s.state) table.marks s.place.rest with
    | none => run.set i none
    | some lexed => run.consume table i lexed bound lexed.token

/-- Lets a stack take tokens in until it is as far as the others. -/
def advanceFar (table : Table) (limit i : Nat) : Nat → Run → Run
  | 0, run => run.set i none
  | bound + 1, run =>
    let after := run.advance table limit i
    match after.stack? i with
    | none => after
    | some s =>
      if run.reached < s.offset || (0 < i && s.offset = run.reached) then
        { after with reached := s.offset }
      else advanceFar table limit i bound after

/-- Lets all stacks take tokens in, from some stack on. -/
def round (table : Table) (limit : Nat) : Nat → Nat → Run → Run
  | 0, _, run => run
  | bound + 1, i, run =>
    if run.readers.size ≤ i then run
    else round table limit bound (i + 1) (run.advanceFar table limit i limit)

/-! ## Keeping the most promising stacks -/

/-- Puts a stack among those that are kept: it is joined with one that it meets, and moves
in front of those that are worse. -/
def keep (kept : List Stack) (s : Stack) : List Stack := go s.weight kept s
where
  /-- goes on with the stack that is left over, whose first place had a stack of the given
  weight -/
  go (weight : Int) : List Stack → Stack → List Stack
    | [], s => [s]
    | other :: rest, s =>
      if other.meets s then other.merge s :: rest
      else if other.weight < weight then s :: go weight rest other
      else other :: go weight rest s

/-- Joins stacks that meet and gives up those that are too many. -/
def condense (run : Run) : Run :=
  let kept := (run.readers.toList.filterMap id).foldl keep []
  { run with readers := ((kept.take stackLimit).map some).toArray }

/-- Reads on until no stack is left. -/
def toEnd (table : Table) (limit : Nat) : Nat → Run → Run
  | 0, run => run
  | bound + 1, run =>
    if run.readers.isEmpty then run
    else toEnd table limit bound (run.round table limit limit 0).condense

end Run

/-- The tables of the grammar. -/
def grammarTable : Table := .ofRules Grammar.rules

/-- What a text may need of anything while it is read. -/
def boundFor (text : List Char) : Nat := 64 * (text.length + 16)

/-- The best reading of a text.  No token holds the character with the number zero, so a
text that does has no reading. -/
def derivation? (text : List Char) : Option Derivation :=
  if text.contains '\x00' then none
  else
    let first := Stack.top 0 grammarTable.initial ⟨text, .start⟩ 0 []
    let bound := boundFor text
    (Run.toEnd grammarTable bound bound { readers := #[some first] }).finished

/-- The syntax tree of a source text, when the text follows the grammar. -/
def parse? (text : List Char) : Option Node :=
  (derivation? text).bind fun d => (d.nodes {}).head?

end DaoGen.Syntax
