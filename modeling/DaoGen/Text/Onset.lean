import DaoGen.Text.Columns
import DaoGen.Text.Pictures
set_option autoImplicit false

/-!
# Characters drawn together

Some characters are drawn as one with those that follow: the two letters of a pair,
a picture and its colour of skin, pictures with joiners between them.  A text is
read from its end, so what a character adds to the width depends on how the text
after it begins: on its onset.
-/

namespace DaoGen.Text

/-- The letters that a letter before them may be drawn together with. -/
inductive PairLetter where
  | alef
  | lamed
  | ya
  /-- a `ya` with its vowel sign before it -/
  | vowelledYa
  | consonant
  /-- a consonant with a joiner of its script before it -/
  | linkedConsonant
  | tone
  | orkhonI
  /-- a letter that can be written below the one before it -/
  | subscript
  deriving DecidableEq, Repr

/-- What a text begins with. -/
inductive Head where
  /-- nothing that matters -/
  | plain
  | lineFeed
  | letter (letter : PairLetter) (joined : Bool)
  | vowelE
  | vowelAI
  | skinColour
  | flagLetter
  | flagLetters
  | picture
  /-- a joiner and a picture -/
  | joinedPicture
  /-- the sign of a key before a joiner and a picture -/
  | joinedKey
  /-- letters of flags before a joiner and a picture -/
  | joinedFlagLetters (count : Nat)
  /-- the end of a tagged flag, after some tags, before a joiner and a picture -/
  | joinedTags (count : Nat)
  deriving DecidableEq, Repr

/-- The form of a character that a selector chooses. -/
inductive Form where
  | plain
  | picture
  deriving DecidableEq, Repr

/-- How a text begins: what stands first, after a selector if there is one. -/
structure Onset where
  head : Head := .plain
  selected : Option Form := none
  deriving DecidableEq, Repr

/-! ## Pairs of letters -/

/-- The stretches of letters that turn into one with a `lam` before them. -/
def alefRanges : List (Nat × Nat) :=
  [(0x622, 0x623), (0x625, 0x625), (0x627, 0x627), (0x671, 0x673), (0x675, 0x675),
   (0x773, 0x774), (0x870, 0x882)]

/-- The stretches of letters of the kind of `lam`. -/
def lamRanges : List (Nat × Nat) :=
  [(0x644, 0x644), (0x6B5, 0x6B8), (0x76A, 0x76A), (0x8A6, 0x8A6), (0x8C7, 0x8C7)]

/-- The stretches of letters that a sign turns into small ones below the letter before. -/
def subscriptRanges : List (Nat × Nat) :=
  [(0x1780, 0x1782), (0x1784, 0x1787), (0x1789, 0x178C), (0x178E, 0x1793), (0x1795, 0x1798),
   (0x179B, 0x179D), (0x17A0, 0x17A0), (0x17A2, 0x17A2), (0x17A7, 0x17A7), (0x17AB, 0x17AC),
   (0x17AF, 0x17AF)]

/-- The stretches of characters without columns that part `lam` from an `alef`: marks with
a place of their own, parts of syllables and joiners. -/
def partingRanges : List (Nat × Nat) :=
  [(0x605, 0x605), (0x890, 0x891), (0x8E2, 0x8E2), (0x9BE, 0x9BE), (0x9D7, 0x9D7),
   (0xB3E, 0xB3E), (0xB57, 0xB57), (0xBBE, 0xBBE), (0xBD7, 0xBD7), (0xCC0, 0xCC0),
   (0xCC2, 0xCC2), (0xCC7, 0xCC8), (0xCCA, 0xCCB), (0xCD5, 0xCD6), (0xD3E, 0xD3E),
   (0xD57, 0xD57), (0xDCF, 0xDCF), (0xDDF, 0xDDF), (0x1160, 0x11FF), (0x1715, 0x1715),
   (0x1734, 0x1734), (0x180E, 0x180E), (0x1B35, 0x1B35), (0x1B3B, 0x1B3B), (0x1B3D, 0x1B3D),
   (0x1B43, 0x1B44), (0x1BAA, 0x1BAA), (0x1BF2, 0x1BF3), (0x200C, 0x200D), (0x2065, 0x2069),
   (0x302E, 0x302F), (0x3164, 0x3164), (0xA8FA, 0xA8FA), (0xA953, 0xA953), (0xA9C0, 0xA9C0),
   (0xD7B0, 0xD7C6), (0xD7CB, 0xD7FB), (0xFF9E, 0xFFA0), (0xFFF0, 0xFFF8), (0x111C0, 0x111C0),
   (0x11235, 0x11235), (0x1133E, 0x1133E), (0x1134D, 0x1134D), (0x11357, 0x11357),
   (0x113B8, 0x113B8), (0x113C2, 0x113C2), (0x113C5, 0x113C5), (0x113C7, 0x113C9),
   (0x113CF, 0x113CF), (0x114B0, 0x114B0), (0x114BD, 0x114BD), (0x115AF, 0x115AF),
   (0x116B6, 0x116B6), (0x11930, 0x11930), (0x1193D, 0x1193D), (0x11F41, 0x11F41),
   (0x16FF0, 0x16FF1), (0x1D165, 0x1D166), (0x1D16D, 0x1D172), (0xE0000, 0xE0000),
   (0xE0002, 0xE001F), (0xE0080, 0xE00FF), (0xE01F0, 0xE0FFF)]

/-- Whether a character without columns leaves `lam` and `alef` together. -/
def isTransparent (c : Char) : Bool := columns c = 0 && !inRanges partingRanges c.toNat

/-- Whether a character leaves the letters around it together in any script: a selector
or a joiner that asks for no connection. -/
def isSelector (c : Char) : Bool :=
  inRanges [(0x34F, 0x34F), (0x17B4, 0x17B5), (0x180B, 0x180D), (0x180F, 0x180F),
    (0xFE00, 0xFE0F), (0xE0100, 0xE01EF)] c.toNat

/-- Whether a character is a consonant of the script whose joiner links two of them. -/
def isLinkable (c : Char) : Bool := inRanges [(0x2D31, 0x2D65), (0x2D6F, 0x2D6F)] c.toNat

/-- The joiner of characters that are drawn as one. -/
def joiner : Char := '\u200d'

/-- What a character adds before a letter that it is drawn together with. -/
def beforeLetter (c : Char) (letter : PairLetter) (joined : Bool) : Option (Int × Head) :=
  let n := c.toNat
  if letter = .alef then
    if inRanges lamRanges n then some (0, .plain)
    else if isTransparent c then some (0, .letter .alef joined)
    else none
  else if c = joiner then some (0, .letter letter true)
  else if isSelector c then some (0, .letter letter joined)
  else match letter, joined with
    | .lamed, true => if n = 0x5D0 then some (0, .plain) else none
    | .subscript, _ => if n = 0x17D2 then some (-1, .plain) else none
    | .ya, true => if n = 0x1A17 then some (0, .letter .vowelledYa true) else none
    | .vowelledYa, _ => if n = 0x1A15 then some (0, .plain) else none
    | .consonant, _ =>
      if n = 0x2D7F then some (1, .letter .linkedConsonant true)
      else if joined && isLinkable c then some (0, .plain)
      else none
    | .linkedConsonant, _ => if isLinkable c then some (-1, .plain) else none
    | .tone, _ => if 0xA4F8 ≤ n && n ≤ 0xA4FB then some (0, .plain) else none
    | .orkhonI, true => if n = 0x10C32 then some (0, .plain) else none
    | _, _ => none

/-- What a vowel sign adds before another that it is drawn together with. -/
def beforeVowelE (c : Char) : Option (Int × Head) :=
  match c.toNat with
  | 0x16D63 | 0x16D69 => some (0, .plain)
  | 0x16D67 => some (0, .vowelAI)
  | 0x16D68 => some (1, .vowelE)
  | _ => none

/-! ## Pictures -/

/-- Whether a character is a tag: a letter or digit in the code of a flag. -/
def isTag (c : Char) : Bool :=
  inRanges [(0xE0030, 0xE0039), (0xE0061, 0xE007A)] c.toNat

/-- What a character adds before a joiner and a picture. -/
def beforeJoined (c : Char) : Option (Int × Head) :=
  let n := c.toNat
  if n = 0x20E3 then some (0, .joinedKey)
  else if isFlagLetter c then some (1, .joinedFlagLetters 1)
  else if isSkinColour c then some (0, .skinColour)
  else if n = 0xE007F then some (0, .joinedTags 0)
  else if isPicture c then some (0, .picture)
  else none

/-- What a character adds that is drawn together with what follows. -/
def beforeHead (c : Char) : Head → Option (Int × Head)
  | .letter letter joined => beforeLetter c letter joined
  | .vowelE => beforeVowelE c
  | .vowelAI => if c.toNat = 0x16D63 then some (0, .plain) else none
  | .skinColour =>
    if takesSkinColour c then some (0, .picture)
    else if c = joiner then some (0, .joinedPicture)
    else none
  | .flagLetter => if isFlagLetter c then some (1, .flagLetters) else none
  | .flagLetters =>
    if isFlagLetter c then some (1, .flagLetters)
    else if c = joiner then some (0, .joinedPicture)
    else none
  | .picture => if c = joiner then some (0, .joinedPicture) else none
  | .joinedPicture => beforeJoined c
  | .joinedFlagLetters count =>
    if isFlagLetter c then some (if count % 2 = 1 then -1 else 3, .joinedFlagLetters (count + 1))
    else if c = joiner && 1 < count then some (0, .joinedPicture)
    else none
  | .joinedTags count =>
    if isTag c && count < 6 then some (0, .joinedTags (count + 1))
    else if c.toNat = 0x1F3F4 && 2 < count then some (0, .picture)
    else none
  | .plain | .lineFeed | .joinedKey => none

/-! ## Onsets -/

/-- The onset of a text by its first character alone. -/
def Head.ofChar (c : Char) : Head :=
  let n := c.toNat
  if n < 0x5DC then .plain
  else if inRanges alefRanges n then .letter .alef false
  else if n = 0x5DC then .letter .lamed false
  else if n = 0x1A10 then .letter .ya false
  else if isLinkable c then .letter .consonant false
  else if n = 0xA4FC || n = 0xA4FD then .letter .tone false
  else if n = 0x10C03 then .letter .orkhonI false
  else if inRanges subscriptRanges n then .letter .subscript false
  else if n = 0x16D67 then .vowelE
  else if n = 0x16D68 then .vowelAI
  else if isSkinColour c then .skinColour
  else if isFlagLetter c then .flagLetter
  else if isPicture c then .picture
  else .plain

/-- The onset before which a selector stands.  Pairs of letters hold across it, joined
pictures across one for the picture. -/
def Head.select (h : Head) (form : Form) : Onset :=
  match h, form with
  | .letter _ _, _ | .joinedPicture, .picture | .joinedKey, .picture => ⟨h, some form⟩
  | _, _ => ⟨.plain, some form⟩

/-- What a picture adds that a selector has made one. -/
def selectedColumns : Head → Int
  | .joinedPicture | .joinedKey => 0
  | _ => 2

/-- What a character adds to the width of the text that follows it, and the onset of both
together. -/
def Onset.before (c : Char) (next : Onset) : Int × Onset :=
  if next.selected = some .picture && hasPictureForm c then
    (selectedColumns next.head, { head := .picture })
  else if c = '\n' then (1, { head := .lineFeed })
  else if c = '\r' && next.head = .lineFeed then (0, {})
  else if c.toNat ≤ 0xA0 then (1, {})
  else if c = '\ufe0f' then (0, next.head.select .picture)
  else if c = '\ufe0e' then (0, next.head.select .plain)
  else if next.selected = some .plain && hasPlainForm c then (1, {})
  else match beforeHead c next.head with
    | some (added, head) => (added, { head })
    | none => (columns c, { head := Head.ofChar c })

end DaoGen.Text
