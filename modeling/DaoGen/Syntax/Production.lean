import DaoGen.Syntax.Grammar
import Std.Data.HashMap
set_option autoImplicit false

/-!
# Productions

A rule with choices and repetitions is taken apart into productions, which are plain
lists of symbols.  What a rule repeats becomes a symbol of its own, with a production
that joins two repetitions to one.
-/

namespace DaoGen.Syntax

/-- What a production is made of.  Tokens and phrases are numbered; the numbers after those
of the phrases belong to repetitions. -/
inductive Symbol where
  | token (number : Nat)
  | phrase (number : Nat)
  deriving DecidableEq, Hashable, Repr, Inhabited

/-- What a part of a production is to the node of the production. -/
structure Part where
  role : Role := .plain
  kind : Option Kind := none
  deriving DecidableEq, Hashable, Repr, Inhabited

/-- A list of symbols that a phrase may stand for. -/
structure Production where
  head : Nat
  kind : Option Kind := none
  rank : Option Rank := none
  side : Option Side := none
  weight : Int := 0
  steps : List (Symbol × Part) := []
  deriving DecidableEq, Repr, Inhabited

/-! ## Tokens and repetitions of a grammar -/

namespace Form

mutual

/-- The tokens of a form. -/
def tokens : Form → List Token
  | blank => []
  | token t => [t]
  | phrase _ => []
  | seq forms => tokensOf forms
  | choice forms => tokensOf forms
  | repeated form => tokens form
  | bound _ _ form => tokens form
  | weighed _ form => tokens form
  | inRole _ form => tokens form
  | ofKind _ form => tokens form

/-- The tokens of a list of forms. -/
def tokensOf : List Form → List Token
  | [] => []
  | form :: rest => tokens form ++ tokensOf rest

end

mutual

/-- What a form repeats. -/
def repetitions : Form → List Form
  | blank => []
  | token _ => []
  | phrase _ => []
  | seq forms => repetitionsOf forms
  | choice forms => repetitionsOf forms
  | repeated form => repetitions form ++ [form]
  | bound _ _ form => repetitions form
  | weighed _ form => repetitions form
  | inRole _ form => repetitions form
  | ofKind _ form => repetitions form

/-- What the forms of a list repeat. -/
def repetitionsOf : List Form → List Form
  | [] => []
  | form :: rest => repetitions form ++ repetitionsOf rest

end

end Form

/-- A list without what it has said before. -/
def distinct {α : Type} [BEq α] (items : List α) : List α :=
  (items.foldl (fun seen item => if seen.contains item then seen else item :: seen) []).reverse

/-- The numbers of tokens and repetitions. -/
structure Alphabet where
  tokens : Array Token
  number : Std.HashMap Token Nat
  repetitions : List Form

namespace Alphabet

/-- The alphabet of some rules: the end of the text and names come first. -/
def ofRules (rules : List Rule) : Alphabet :=
  let forms := rules.map (·.2)
  let tokens := distinct ([.stop, .name, .comment, .arrowComment] ++ Form.tokensOf forms)
  { tokens := tokens.toArray
    number := Std.HashMap.ofList tokens.zipIdx
    repetitions := distinct (Form.repetitionsOf forms) }

/-- The number of phrases that are no repetitions. -/
def phraseCount : Nat := Phrase.functionType.number + 1

/-- The symbol of a token. -/
def symbol (a : Alphabet) (t : Token) : Symbol := .token (a.number.getD t 0)

/-- The symbol of a repetition. -/
def repetition (a : Alphabet) (form : Form) : Symbol :=
  .phrase (phraseCount + a.repetitions.idxOf form)

end Alphabet

/-! ## Productions of a form -/

/-- A production without its head. -/
structure Draft where
  rank : Option Rank := none
  side : Option Side := none
  weight : Int := 0
  steps : List (Symbol × Part) := []
  deriving Inhabited

namespace Draft

/-- One draft after the other. -/
def append (a b : Draft) : Draft :=
  { rank := b.rank <|> a.rank
    side := b.side <|> a.side
    weight := if b.weight = 0 then a.weight else b.weight
    steps := a.steps ++ b.steps }

/-- The draft with a change to all its parts. -/
def mapParts (f : Part → Part) (d : Draft) : Draft :=
  { d with steps := d.steps.map fun (s, p) => (s, f p) }

/-- The draft with a head. -/
def production (head : Nat) (kind : Option Kind) (d : Draft) : Production :=
  ⟨head, kind, d.rank, d.side, d.weight, d.steps⟩

end Draft

mutual

/-- All ways to read a form as a list of symbols.  What is said further outside about a
part wins. -/
def Form.drafts (a : Alphabet) : Form → List Draft
  | .blank => [{}]
  | .token t => [{ steps := [(a.symbol t, {})] }]
  | .phrase p => [{ steps := [(.phrase p.number, {})] }]
  | .seq forms => Form.draftsInRow a forms
  | .choice forms => Form.draftsOfAny a forms
  | .repeated form => [{ steps := [(a.repetition form, {})] }]
  | .bound rank side form =>
    (Form.drafts a form).map fun d => { d with rank := d.rank <|> rank, side := d.side <|> side }
  | .weighed weight form => (Form.drafts a form).map fun d => { d with weight }
  | .inRole role form => (Form.drafts a form).map (·.mapParts fun p => { p with role })
  | .ofKind kind form => (Form.drafts a form).map (·.mapParts fun p => { p with kind := some kind })

/-- All ways to read forms one after the other. -/
def Form.draftsInRow (a : Alphabet) : List Form → List Draft
  | [] => [{}]
  | form :: rest =>
    let after := Form.draftsInRow a rest
    (Form.drafts a form).flatMap fun first => after.map first.append

/-- All ways to read one of some forms. -/
def Form.draftsOfAny (a : Alphabet) : List Form → List Draft
  | [] => []
  | form :: rest => Form.drafts a form ++ Form.draftsOfAny a rest

end

/-- The productions of a rule. -/
def Alphabet.productionsOf (a : Alphabet) (rule : Rule) : List Production :=
  (rule.2.drafts a).map (·.production rule.1.number rule.1.kind?)

/-- The productions of a repetition: two repetitions, or what is repeated. -/
def Alphabet.productionsOfRepetition (a : Alphabet) (form : Form) : List Production :=
  match a.repetition form with
  | .token _ => []
  | .phrase head =>
    ⟨head, none, none, none, 0, [(.phrase head, {}), (.phrase head, {})]⟩ ::
      (form.drafts a).map (·.production head none)

/-- The productions of some rules. -/
def Alphabet.productions (a : Alphabet) (rules : List Rule) : List Production :=
  rules.flatMap a.productionsOf ++ a.repetitions.flatMap a.productionsOfRepetition

end DaoGen.Syntax
