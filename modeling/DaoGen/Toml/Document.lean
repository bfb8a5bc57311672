import DaoGen.Toml.Scan
set_option autoImplicit false

/-!
# TOML documents

A document is made of key and value lines and of headers that open tables.  A table
is written once: a header may open one that other headers only implied, a dotted key
may add to one that dotted keys made, and no name is given twice.
-/

namespace DaoGen.Toml

open Scan

/-! ## Tables by path -/

/-- Changes the table that a path leads to, making what is missing on the way.  The
change sees how the table came to be; `start` is how the outermost one did. -/
def changeAt (dotted : Bool) (change : TableForm → Entries → Option Entries) (start : TableForm) :
    List Key → Entries → Option Entries
  | [], entries => change start entries
  | key :: path, entries =>
    match entries.find? key.name with
    | none =>
      let form := if dotted then TableForm.dotted else .implied
      (changeAt dotted change form path []).map fun inner =>
        entries ++ [(key, .table none form inner)]
    | some (.table range form inner) =>
      if form = .complete || (dotted && form = .written) then none
      else
        (changeAt dotted change form path inner).map fun inner =>
          entries.replace key.name (.table range form inner)
    | some (.tables range items) =>
      match items.getLast? with
      | some (.table lastRange form inner) =>
        (changeAt dotted change form path inner).map fun inner =>
          entries.replace key.name
            (.tables range (items.dropLast ++ [.table lastRange form inner]))
      | _ => none
    | some _ => none

/-- Gives a key a value in a table that its line stands in.  The last table on the way
has to be one that dotted keys made, or the line's own. -/
def assign (path : List Key) (value : Value) (entries : Entries) : Option Entries :=
  match path.getLast? with
  | none => none
  | some key =>
    let outer := path.dropLast
    changeAt true
      (fun form inner =>
        if outer.isEmpty || form = .dotted then inner.insert key value else none)
      .written outer entries

/-! ## Values -/

/-- A value that holds no others. -/
def plainValue : Scan Value := do
  match ← peek with
  | some '"' => let (range, text) ← ranged string; return .string range text
  | some '\'' => let (range, text) ← ranged string; return .string range text
  | some 't' => let (range, _) ← ranged (text "true"); return .boolean range true
  | some 'f' => let (range, _) ← ranged (text "false"); return .boolean range false
  | _ =>
    (do let (range, _) ← ranged dateTime; return .dateTime range) <|>
      (do let (range, value) ← ranged float; return .float range value) <|>
      (do let (range, value) ← ranged integer; return .integer range value)

/-- A value nested no deeper than the given number of levels. -/
def valueWithin : Nat → Scan Value
  | 0 => plainValue
  | bound + 1 => do
    match ← peek with
    | some '[' =>
      let (range, items) ← ranged do
        char '['
        let items ← optional (separated (gaps *> char ',') (gaps *> valueWithin bound))
        if items.isSome then discard (optional (gaps *> char ','))
        gaps
        char ']'
        return items.getD []
      return .array range items
    | some '{' =>
      let (range, pairs) ← ranged do
        char '{'
        let pairs ← optional (separated (char ',') do
          let path ← key
          char '='
          blanks
          let value ← valueWithin bound
          blanks
          return (path, value))
        blanks
        char '}'
        return pairs.getD []
      match pairs.foldlM (fun entries (path, value) => assign path value entries) [] with
      | some entries => return .table (some range) .complete entries
      | none => failure
    | _ => plainValue

/-! ## Documents -/

/-- A document that is being read: the tables so far, and the one that lines are being
added to. -/
structure Draft where
  root : Entries := []
  /-- where the open table goes; the empty path is the document itself -/
  path : List Key := []
  /-- whether the open table is one of several under its header -/
  repeated : Bool := false
  /-- from the open table's header to its last value -/
  range : Option Range := none
  entries : Entries := []
  deriving Inhabited

namespace Draft

/-- Puts the open table in its place. -/
def close (d : Draft) : Option Entries :=
  match d.path.getLast? with
  | none => some d.entries
  | some key =>
    let table := Value.table d.range .written d.entries
    let range := d.range.getD default
    changeAt false
      (fun _ inner =>
        if d.repeated then
          match inner.find? key.name with
          | none => inner.insert key (.tables range [table])
          | some (.tables first items) =>
            some (inner.replace key.name (.tables ⟨first.start, range.stop⟩ (items ++ [table])))
          | some _ => none
        else inner.insert key table)
      .written d.path.dropLast d.root

/-- Opens a table; one that was only implied is taken out of its place to be opened. -/
def openTable (d : Draft) (path : List Key) (range : Range) : Option Draft := do
  let root ← d.close
  let key ← path.getLast?
  let inside (entries : Entries) : Option Value := entries.find? key.name
  let found ← valuesAt path.dropLast root
  match inside found with
  | none =>
    let root ← changeAt false (fun _ inner => some inner) .written path.dropLast root
    return { root, path, range := some range }
  | some (.table _ .implied entries) =>
    let root ← changeAt false (fun _ inner => some (inner.remove key.name)) .written
      path.dropLast root
    return { root, path, range := some range, entries }
  | some _ => none
where
  /-- the entries of the table that a path leads to, if there are any yet -/
  valuesAt : List Key → Entries → Option Entries
    | [], entries => some entries
    | key :: path, entries =>
      match entries.find? key.name with
      | none => some []
      | some (.table _ _ inner) => valuesAt path inner
      | some (.tables _ items) =>
        match items.getLast? with
        | some (.table _ _ inner) => valuesAt path inner
        | _ => none
      | some _ => none

/-- Opens one more of the tables under a header. -/
def openRepeated (d : Draft) (path : List Key) (range : Range) : Option Draft := do
  let root ← d.close
  let key ← path.getLast?
  let root ← changeAt false
    (fun _ inner =>
      match inner.find? key.name with
      | none => some inner
      | some (.tables ..) => some inner
      | some _ => none)
    .written path.dropLast root
  return { root, path, repeated := true, range := some range }

end Draft

/-- A scanner's answer taken from elsewhere. -/
def accept {α : Type} : Option α → Scan α
  | some a => pure a
  | none => failure

/-- A line or a header. -/
def line (d : Draft) : Scan Draft := do
  blanks
  match ← peek with
  | some '#' => comment; lineEnd; return d
  | some '\n' => newline; return d
  | some '\r' => newline; return d
  | some '[' =>
    if ← sees "[[" then
      let (range, path) ← ranged (text "[[" *> key <* text "]]")
      lineEnd
      accept (d.openRepeated path range)
    else
      let (range, path) ← ranged (char '[' *> key <* char ']')
      lineEnd
      accept (d.openTable path range)
  | some _ =>
    let path ← key
    char '='
    blanks
    let value ← valueWithin (levelLimit - 1)
    lineEnd
    let entries ← accept (assign path value d.entries)
    return { d with entries, range := d.range.map fun r => ⟨r.start, (value.range?.getD r).stop⟩ }
  | none => failure

/-- The lines of a document, at most the given number of them. -/
def lines : Nat → Draft → Scan Draft
  | 0, d => pure d
  | bound + 1, d => do
    blanks
    match ← peek with
    | none => return d
    | some _ => lines bound (← line d)

/-- The entries of a document, if it is one. -/
def parse? (text : List Char) : Option Entries :=
  let start : Input :=
    match text with
    | '\uFEFF' :: rest => ⟨rest, 1⟩
    | _ => ⟨text, 0⟩
  match (lines (text.length + 1) {} <* finish) start with
  | some (d, _) => d.close
  | none => none

end DaoGen.Toml
