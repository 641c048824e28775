import RemoteObjects.Json.Draft

/-!
# What a JSON text is

The grammar of JSON, said without a reader: how numbers, strings and the other tokens are spelled,
how tokens and blanks make up a text, and which tokens spell a document.  A byte that is no
character may stand in a string, which then has no value; so it is with half of a surrogate pair.
-/

namespace RemoteObjects.Json

open Token

/-! ## Numbers -/

/-- One digit or more, the most significant first. -/
def Digits (ds : List Nat) : Prop := ds ≠ [] ∧ ∀ d ∈ ds, d < 10

def digitsText (ds : List Nat) : List Char := ds.map Nat.digitChar

/-- The power of ten behind a number. -/
structure Power where
  mark : Char
  sign : Option Char
  digits : List Nat

namespace Power

structure Valid (p : Power) : Prop where
  mark : p.mark = 'e' ∨ p.mark = 'E'
  sign : ∀ c, p.sign = some c → c = '+' ∨ c = '-'
  digits : Digits p.digits

def text (p : Power) : List Char := p.mark :: (p.sign.toList ++ digitsText p.digits)

end Power

/-- A number as it is spelled. -/
structure Literal where
  negative : Bool
  whole : List Nat
  fraction : Option (List Nat)
  power : Option Power

namespace Literal

structure Valid (l : Literal) : Prop where
  whole : Digits l.whole
  /-- A number begins with a zero only if no other digit stands before the point. -/
  zero : l.whole.head? = some 0 → l.whole = [0]
  fraction : ∀ ds, l.fraction = some ds → Digits ds
  power : ∀ p, l.power = some p → p.Valid

def wholeText (l : Literal) : List Char := (if l.negative then ['-'] else []) ++ digitsText l.whole

def fractionText (l : Literal) : List Char := l.fraction.elim [] fun ds ↦ '.' :: digitsText ds

def powerText (l : Literal) : List Char := l.power.elim [] Power.text

def text (l : Literal) : List Char := l.wholeText ++ l.fractionText ++ l.powerText

def wholeNumeral (l : Literal) : Numeral := l.whole.foldl .pushWhole (.start l.negative 0)

def fractionNumeral (l : Literal) : Numeral :=
  l.fraction.elim l.wholeNumeral fun ds ↦ ds.foldl .pushFraction l.wholeNumeral.pushPoint

/-- The number before its power is read, of which only the sign is known. -/
def signed (l : Literal) (sign : Option Char) : Numeral :=
  { l.fractionNumeral with whole := false, exponentNegative := sign == some '-' }

/-- What the literal says, digit by digit. -/
def numeral (l : Literal) : Numeral :=
  l.power.elim l.fractionNumeral fun p ↦ p.digits.foldl .pushExponent (l.signed p.sign)

end Literal

/-! ## Strings -/

/-- What a string is made of. -/
inductive Piece where
  | char (c : Char)
  /-- A 16-bit unit, named by an escape. -/
  | unit (n : Nat)
  /-- A byte that is no character. -/
  | stray

inductive Piece.SpelledBy : Piece → List (Option Char) → Prop where
  | plain {c : Char} (hquote : c ≠ '"') (hslash : c ≠ '\\') (hcontrol : 0x20 ≤ c.toNat) :
    SpelledBy (.char c) [some c]
  | letter {l c : Char} (h : Quoted.escaped? l = some c) :
    SpelledBy (.char c) [some '\\', some l]
  | unit {a b c d : Char} {i j k l : Nat} (ha : Quoted.hexValue? a = some i)
    (hb : Quoted.hexValue? b = some j) (hc : Quoted.hexValue? c = some k)
    (hd : Quoted.hexValue? d = some l) :
    SpelledBy (.unit (((i * 16 + j) * 16 + k) * 16 + l))
      [some '\\', some 'u', some a, some b, some c, some d]
  | stray : SpelledBy .stray [none]

inductive PiecesSpelledBy : List Piece → List (Option Char) → Prop where
  | nil : PiecesSpelledBy [] []
  | cons {p : Piece} {pieces : List Piece} {s text : List (Option Char)} (hp : p.SpelledBy s)
    (hpieces : PiecesSpelledBy pieces text) : PiecesSpelledBy (p :: pieces) (s ++ text)

/-- Whether a unit is the first half of a surrogate pair. -/
abbrev Leading (n : Nat) : Prop := 0xd800 ≤ n ∧ n < 0xdc00

/-- Whether a unit is the second half of a surrogate pair. -/
abbrev Trailing (n : Nat) : Prop := 0xdc00 ≤ n ∧ n < 0xe000

/-- The character that a surrogate pair stands for. -/
def paired (high low : Nat) : Char := .ofNat (0x10000 + (high - 0xd800) * 0x400 + (low - 0xdc00))

/-- The characters of a string, if it has a value. -/
def meaning : List Piece → Option (List Char)
  | [] => some []
  | .char c :: rest => (meaning rest).map (c :: ·)
  | .stray :: _ => none
  | .unit n :: rest =>
    if Leading n then
      match rest with
      | .unit low :: rest => if Trailing low then (meaning rest).map (paired n low :: ·) else none
      | _ => none
    else if Trailing n then none
    else (meaning rest).map (.ofNat n :: ·)

theorem meaning_pair {n low : Nat} (hn : Leading n) (hlow : Trailing low) (rest : List Piece) :
    meaning (.unit n :: .unit low :: rest) = (meaning rest).map (paired n low :: ·) := by
  rw [meaning, if_pos hn, if_pos hlow]

theorem meaning_leading {n : Nat} (hn : Leading n) {rest : List Piece}
    (h : ∀ low others, rest = .unit low :: others → ¬Trailing low) :
    meaning (.unit n :: rest) = none := by
  rcases rest with _ | ⟨_ | low | _, others⟩
  case cons.unit => rw [meaning, if_pos hn, if_neg (h low others rfl)]
  all_goals exact if_pos hn

theorem meaning_unit {n : Nat} (hn : ¬Leading n) (rest : List Piece) :
    meaning (.unit n :: rest) =
      if Trailing n then none else (meaning rest).map (.ofNat n :: ·) := by
  rcases rest with _ | ⟨_ | _ | _, others⟩ <;> exact if_neg hn

/-! ## Tokens -/

/-- The only spelling of a token that has just one. -/
def Token.word? : Token → Option String
  | .openArray => "["
  | .closeArray => "]"
  | .openObject => "\x7b"
  | .closeObject => "\x7d"
  | .comma => ","
  | .colon => ":"
  | .null => "null"
  | .bool b => if b then "true" else "false"
  | _ => none

inductive Token.SpelledBy : Token → List (Option Char) → Prop where
  | word {t : Token} {s : String} (h : t.word? = some s) : SpelledBy t (s.toList.map some)
  | number {l : Literal} (h : l.Valid) : SpelledBy (.number l.numeral.number?) (l.text.map some)
  | text {pieces : List Piece} {s : List (Option Char)} (h : PiecesSpelledBy pieces s) :
    SpelledBy (.text ((meaning pieces).map .ofList)) (some '"' :: s ++ [some '"'])

def Blank (c : Char) : Prop := c = ' ' ∨ c = '\n' ∨ c = '\t' ∨ c = '\r'

/-- How a text is made up of tokens, with blanks anywhere between them. -/
inductive Spells : List (Option Char) → List Token → Prop where
  | nil : Spells [] []
  | blank {c : Char} {text : List (Option Char)} {tokens : List Token} (hc : Blank c)
    (h : Spells text tokens) : Spells (some c :: text) tokens
  | token {t : Token} {s text : List (Option Char)} {tokens : List Token} (ht : t.SpelledBy s)
    (h : Spells text tokens) : Spells (s ++ text) (t :: tokens)

/-! ## Documents -/

namespace Draft

mutual

/-- The tokens of a document; what is cut off has none that can be read. -/
def tokens : Draft → List Token
  | .null => [.null]
  | .bool b => [.bool b]
  | .number n => [.number n]
  | .text s => [.text s]
  | .array items => .openArray :: tokensItems true items ++ [.closeArray]
  | .object members => .openObject :: tokensMembers true members ++ [.closeObject]
  | .cut => [.bad]

def tokensItems (first : Bool) : List Draft → List Token
  | [] => []
  | d :: rest => (if first then [] else [.comma]) ++ d.tokens ++ tokensItems false rest

def tokensMembers (first : Bool) : List (Option String × Draft) → List Token
  | [] => []
  | (name, d) :: rest =>
    (if first then [] else [.comma]) ++ .text name :: .colon :: d.tokens ++
      tokensMembers false rest

end

/-- Whether a text is JSON and holds this document, with blanks anywhere between its tokens. -/
def SpelledBy (d : Draft) (text : List (Option Char)) : Prop := d.closed ∧ Spells text d.tokens

end Draft

end RemoteObjects.Json
