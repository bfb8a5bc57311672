import DaoGen.Path
import DaoGen.Upgrade.Step
set_option autoImplicit false

/-!
# Command lines

A command line names a command.  Flags in front of the command hold for every
command, and may also stand behind it; the later place wins.  A flag is given at most
once in each place, and its value is checked as soon as it is read.
-/

namespace DaoGen.Cli

/-! ## Flags -/

/-- What a flag takes. -/
inductive FlagKind where
  | switch
  | text
  /-- a path, which is not empty -/
  | path
  /-- the number of a version -/
  | version
  /-- a switch that asks for something else than a command -/
  | asksVersion
  | asksHelp
  deriving DecidableEq, Repr, Inhabited

/-- A flag by its name and, if it has one, its letter. -/
structure Flag where
  name : String
  letter : Option Char
  kind : FlagKind
  deriving DecidableEq, Repr, Inhabited

namespace FlagKind

/-- Whether a flag is followed by a value. -/
def takesValue : FlagKind → Bool
  | text | path | version => true
  | switch | asksVersion | asksHelp => false

/-- A number with or without a sign in front. -/
def readInteger (text : String) : Option Int :=
  match text.toList with
  | '-' :: digits => (readDigits digits).map fun n => -(n : Int)
  | '+' :: digits => (readDigits digits).map fun n => (n : Int)
  | digits => (readDigits digits).map fun n => (n : Int)
where
  /-- a number in base ten; there is at least one digit -/
  readDigits (digits : List Char) : Option Nat :=
    if digits.isEmpty || !digits.all Char.isDigit then none
    else some (digits.foldl (fun n d => 10 * n + (d.toNat - '0'.toNat)) 0)

/-- The version that a text spells. -/
def readVersion (text : String) : Option Upgrade.Version :=
  (readInteger text).bind Upgrade.Version.ofInt?

/-- Whether a value will do. -/
def accepts (value : String) : FlagKind → Bool
  | path => !value.isEmpty
  | version => (readVersion value).isSome
  | text | switch | asksVersion | asksHelp => true

end FlagKind

/-- Flags that hold for every command. -/
def commonFlags : List Flag :=
  [⟨"config", none, .path⟩, ⟨"verbose", some 'v', .switch⟩, ⟨"help", some 'h', .asksHelp⟩]

/-- Flags in front of the command. -/
def leadingFlags : List Flag := commonFlags ++ [⟨"version", some 'V', .asksVersion⟩]

/-- Flags that say where sources are. -/
def sourceFlags : List Flag := [⟨"source", some 's', .path⟩, ⟨"language", some 'l', .text⟩]

/-- The flags of each command. -/
def commandFlags : String → Option (List Flag)
  | "generate" => some (commonFlags ++ sourceFlags ++
      [⟨"output", some 'o', .path⟩, ⟨"print", none, .switch⟩])
  | "check" => some (commonFlags ++ sourceFlags)
  | "plan" => some (commonFlags ++ sourceFlags ++
      [⟨"helper", none, .text⟩, ⟨"from", none, .version⟩, ⟨"json", none, .switch⟩])
  | _ => none

/-! ## Reading one place -/

/-- The flags given so far, with their values; a switch has an empty one. -/
abbrev Given := List (String × String)

/-- How reading one place ends. -/
inductive Ending where
  /-- at the end of the line -/
  | done (given : Given)
  /-- at a word that is no flag -/
  | word (given : Given) (word : String) (rest : List String)
  /-- at a flag that asks for the version -/
  | version
  | help
  deriving DecidableEq, Repr, Inhabited

/-- How reading goes on after a flag. -/
inductive Progress where
  | given (given : Given)
  /-- the next word is the value of the flag -/
  | awaits (flag : Flag)
  | stop (ending : Ending)
  deriving DecidableEq, Repr, Inhabited

/-- One more flag with its value. -/
def give (given : Given) (flag : Flag) (value : String) : Option Given :=
  if given.any (·.1 = flag.name) || !flag.kind.accepts value then none
  else some (given ++ [(flag.name, value)])

/-- A flag without a value. -/
def giveSwitch (given : Given) (flag : Flag) : Option Progress :=
  match flag.kind with
  | .asksVersion => some (.stop .version)
  | .asksHelp => some (.stop .help)
  | _ => (give given flag "").map .given

/-- A text before and after its first equals sign. -/
def cutAtEquals (text : List Char) : List Char × Option (List Char) :=
  match text.dropWhile (· ≠ '=') with
  | [] => (text, none)
  | _ :: after => (text.takeWhile (· ≠ '='), some after)

/-- A flag by name, after its two dashes. -/
def readLong (flags : List Flag) (given : Given) (body : List Char) : Option Progress :=
  let (name, value) := cutAtEquals body
  (flags.find? (·.name = String.ofList name)).bind fun flag =>
    match flag.kind.takesValue, value with
    | true, some value => (give given flag (String.ofList value)).map .given
    | true, none => some (.awaits flag)
    | false, some _ => none
    | false, none => giveSwitch given flag

/-- Flags by letter, after their dash.  A letter whose flag takes a value has the rest
of the word for it. -/
def readShort (flags : List Flag) (given : Given) : List Char → Option Progress
  | [] => some (.given given)
  | c :: rest =>
    (flags.find? (·.letter = some c)).bind fun flag =>
      if flag.kind.takesValue then
        match rest with
        | [] => some (.awaits flag)
        | '=' :: value => (give given flag (String.ofList value)).map .given
        | value => (give given flag (String.ofList value)).map .given
      else
        (giveSwitch given flag).bind fun progress =>
          match progress with
          | .given given => readShort flags given rest
          | other => some other

/-- Whether a word is not taken for a flag. -/
def isPlain (word : String) : Bool :=
  match word.toList with
  | '-' :: _ :: _ => false
  | _ => true

/-- Reads flags up to a word that is none, or to the end; nothing when a flag is not
known, not complete, or given twice. -/
def readPlace (flags : List Flag) (given : Given) : List String → Option Ending
  | [] => some (.done given)
  | word :: rest =>
    let progress : Option Progress :=
      match word.toList with
      | ['-', '-'] => if rest.isEmpty then some (.given given) else none
      | '-' :: '-' :: body => readLong flags given body
      | '-' :: c :: body => readShort flags given (c :: body)
      | _ => some (.stop (.word given word rest))
    match progress with
    | none => none
    | some (.stop ending) => some ending
    | some (.given given) => readPlace flags given rest
    | some (.awaits flag) =>
      match rest with
      | [] => none
      | value :: rest =>
        if isPlain value then
          match give given flag value with
          | none => none
          | some given => readPlace flags given rest
        else none

/-! ## Commands -/

/-- Where sources are. -/
structure SourceOptions where
  source : Option Path := none
  language : Option String := none
  deriving Repr, Inhabited

/-- A command with its flags. -/
inductive Command where
  | generate (sources : SourceOptions) (output : Option Path) (print : Bool)
  | check (sources : SourceOptions)
  | plan (sources : SourceOptions) (helper : Option String) (start : Option Upgrade.Version)
      (json : Bool)
  deriving Repr, Inhabited

/-- What a command line asks for. -/
inductive Request where
  | run (settingsFile : Option Path) (command : Command)
  | version
  | help
  deriving Repr, Inhabited

/-- The path given with a flag. -/
def pathOf (given : Given) (name : String) : Option Path := (given.lookup name).map .mk

/-- The command of a word and its flags. -/
def commandOf (given : Given) : String → Option Command
  | "generate" => some (.generate sources (pathOf given "output") (given.any (·.1 = "print")))
  | "check" => some (.check sources)
  | "plan" => some (.plan sources (given.lookup "helper")
      ((given.lookup "from").bind FlagKind.readVersion) (given.any (·.1 = "json")))
  | _ => none
where
  /-- where the given flags say that sources are -/
  sources : SourceOptions := ⟨pathOf given "source", given.lookup "language"⟩

/-- What the words after `help` ask for. -/
def readHelp : List String → Option Request
  | [] => some .help
  | topic :: rest =>
    if rest.isEmpty && (topic = "help" || (commandFlags topic).isSome) then some .help else none

/-- What a command line asks for; nothing when it does not follow the rules. -/
def parse? (args : List String) : Option Request :=
  match readPlace leadingFlags [] args with
  | none | some (.done _) => none
  | some .version => some .version
  | some .help => some .help
  | some (.word leading word rest) =>
    if word = "help" then readHelp rest
    else
      (commandFlags word).bind fun flags =>
        match readPlace flags [] rest with
        | some .help => some .help
        | some (.done given) =>
          (commandOf given word).map fun command =>
            .run (pathOf given "config" <|> pathOf leading "config") command
        | _ => none

end DaoGen.Cli
