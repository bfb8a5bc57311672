import DaoGen.Syntax.Phrase
import DaoGen.Syntax.Token
set_option autoImplicit false

/-!
# The language of grammars

A rule of the grammar is a form: tokens and phrases, one after the other or one instead
of the other, possibly repeated.  A form can say what its parts are to the node around
them, and how tightly it binds, which decides between two readings of a text.
-/

namespace DaoGen.Syntax

/-- How tightly a form binds. -/
inductive Rank where
  | level (n : Int)
  | member | templateCall | construction | call | unaryWord | power | times | plus | shift
  | comparison | equality | bitAnd | bitXor | bitOr | and | or | choice | assignment
  | declaration | literal | object
  | instantiation | unary | binary | extension | declared
  deriving DecidableEq, Hashable, Repr, Inhabited

/-- The side that is grouped first when two operators bind equally. -/
inductive Side where
  | left | right
  deriving DecidableEq, Hashable, Repr, Inhabited

/-- The right side of a rule. -/
inductive Form where
  | blank
  | token (t : Token)
  | phrase (p : Phrase)
  | seq (forms : List Form)
  | choice (forms : List Form)
  /-- one or more times -/
  | repeated (form : Form)
  /-- as tight as a rank, and grouped from a side -/
  | bound (rank : Option Rank) (side : Option Side) (form : Form)
  /-- better or worse than other readings of the same text -/
  | weighed (weight : Int) (form : Form)
  | inRole (role : Role) (form : Form)
  | ofKind (kind : Kind) (form : Form)
  deriving Repr, Inhabited

namespace Form

mutual

/-- Whether two forms are the same. -/
def isSame : Form → Form → Bool
  | blank, blank => true
  | token s, token t => s = t
  | phrase p, phrase q => p = q
  | seq forms, seq others => areSame forms others
  | choice forms, choice others => areSame forms others
  | repeated form, repeated other => isSame form other
  | bound rank side form, bound rank' side' other => rank = rank' && side = side' && isSame form other
  | weighed weight form, weighed weight' other => weight = weight' && isSame form other
  | inRole role form, inRole role' other => role = role' && isSame form other
  | ofKind kind form, ofKind kind' other => kind = kind' && isSame form other
  | _, _ => false

/-- Whether two lists of forms are the same. -/
def areSame : List Form → List Form → Bool
  | [], [] => true
  | form :: rest, other :: others => isSame form other && areSame rest others
  | _, _ => false

end

instance : BEq Form := ⟨isSame⟩

mutual

theorem isSame_iff : (form other : Form) → (form.isSame other = true ↔ form = other)
  | blank, other => by cases other <;> simp [isSame]
  | token _, other => by cases other <;> simp [isSame]
  | phrase _, other => by cases other <;> simp [isSame]
  | seq forms, other => by cases other <;> simp [isSame, areSame_iff forms]
  | choice forms, other => by cases other <;> simp [isSame, areSame_iff forms]
  | repeated form, other => by cases other <;> simp [isSame, isSame_iff form]
  | bound _ _ form, other => by cases other <;> simp [isSame, isSame_iff form, and_assoc]
  | weighed _ form, other => by cases other <;> simp [isSame, isSame_iff form]
  | inRole _ form, other => by cases other <;> simp [isSame, isSame_iff form]
  | ofKind _ form, other => by cases other <;> simp [isSame, isSame_iff form]

theorem areSame_iff : (forms others : List Form) → (areSame forms others = true ↔ forms = others)
  | [], others => by cases others <;> simp [areSame]
  | form :: rest, others => by
    cases others <;> simp [areSame, isSame_iff form, areSame_iff rest]

end

instance : LawfulBEq Form where
  eq_of_beq {form other} h := (isSame_iff form other).1 h
  rfl {form} := (isSame_iff form form).2 rfl

instance : Coe String Form := ⟨fun text => token (.ofText text)⟩

/-- A phrase as a form. -/
abbrev of (p : Phrase) : Form := phrase p

/-- A form that may be left out. -/
def opt (f : Form) : Form := choice [f, blank]

/-- A form any number of times. -/
def many (f : Form) : Form := opt (repeated f)

/-- A form one or more times with a mark in between. -/
def separated (mark : Form) (f : Form) : Form := seq [f, many (seq [mark, f])]

/-- A form one or more times with commas in between. -/
def commaList (f : Form) : Form := separated "," f

/-- A form that groups from the left. -/
def left (f : Form) : Form := bound none (some .left) f

/-- A form that groups from the right. -/
def right (f : Form) : Form := bound none (some .right) f

/-- A form of a rank. -/
def ranked (r : Rank) (f : Form) : Form := bound (some r) none f

/-- A form of a rank that groups from the left. -/
def leftAt (r : Rank) (f : Form) : Form := bound (some r) (some .left) f

/-- A form of a rank that groups from the right. -/
def rightAt (r : Rank) (f : Form) : Form := bound (some r) (some .right) f

end Form

/-- A rule of the grammar. -/
abbrev Rule := Phrase × Form

end DaoGen.Syntax
