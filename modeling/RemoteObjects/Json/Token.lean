import RemoteObjects.Json.Number

/-!
# JSON tokens

A text is read one character at a time; where its bytes are no character, none is read.  Some faults
do not stop the reading, since whoever skips the token never notices them: a number beyond all
finite ones, and a string with a byte that is no character or with one half of a surrogate pair
alone.  Every other fault ends the tokens with `bad`.
-/

namespace RemoteObjects.Json

inductive Token where
  | openArray
  | closeArray
  | openObject
  | closeObject
  | comma
  | colon
  | null
  | bool (b : Bool)
  /-- Nothing if the number is out of range. -/
  | number (n : Option Number)
  /-- Nothing if the string is not sound. -/
  | text (s : Option String)
  | bad
  deriving DecidableEq

namespace Token

/-! ## Numbers -/

/-- Where in a number the reading stands, named by what was read last. -/
inductive Phase where
  | minus
  | zero
  | whole
  | point
  | fraction
  | exponent
  | exponentSign
  | power
  deriving DecidableEq

namespace Phase

/-- Whether the number may end here. -/
def complete : Phase → Bool
  | zero | whole | fraction | power => true
  | minus | point | exponent | exponentSign => false

end Phase

/-- The value of a decimal digit. -/
def digit? (c : Char) : Option Nat := if c.isDigit then some (c.toNat - 48) else none

/-- One more character of a number, if it belongs to it. -/
def extend? (phase : Phase) (n : Numeral) (c : Char) : Option (Phase × Numeral) :=
  match digit? c with
  | some d =>
    match phase with
    | .minus => some (if d = 0 then .zero else .whole, n.pushWhole d)
    | .zero => none
    | .whole => some (.whole, n.pushWhole d)
    | .point | .fraction => some (.fraction, n.pushFraction d)
    | .exponent | .exponentSign | .power => some (.power, n.pushExponent d)
  | none =>
    if c = '.' ∧ (phase = .zero ∨ phase = .whole) then some (.point, n.pushPoint)
    else if (c = 'e' ∨ c = 'E') ∧ (phase = .zero ∨ phase = .whole ∨ phase = .fraction) then
      some (.exponent, { n with whole := false })
    else if (c = '+' ∨ c = '-') ∧ phase = .exponent then
      some (.exponentSign, { n with exponentNegative := c == '-' })
    else none

/-! ## Strings -/

inductive Escape where
  | none
  /-- A backslash was read. -/
  | started
  /-- So many hexadecimal digits are still to come. -/
  | hex (left : Nat) (value : Nat)
  deriving DecidableEq

/-- A string being read. -/
structure Quoted where
  text : String
  /-- Whether no half of a surrogate pair stood alone, and all bytes were characters. -/
  sound : Bool
  /-- The leading half of a surrogate pair, if it was read last. -/
  leading : Option Nat
  escape : Escape

namespace Quoted

def start : Quoted := ⟨"", true, none, .none⟩

/-- One more character of the text; a leading half before it stands alone. -/
def push (q : Quoted) (c : Char) : Quoted :=
  ⟨q.text.push c, q.sound && q.leading.isNone, none, .none⟩

/-- One more 16-bit unit, named by a complete escape. -/
def pushUnit (q : Quoted) (unit : Nat) : Quoted :=
  if 0xd800 ≤ unit ∧ unit < 0xdc00 then
    ⟨q.text, q.sound && q.leading.isNone, some unit, .none⟩
  else if 0xdc00 ≤ unit ∧ unit < 0xe000 then
    match q.leading with
    | some high =>
      ⟨q.text.push (.ofNat (0x10000 + (high - 0xd800) * 0x400 + (unit - 0xdc00))), q.sound, none,
        .none⟩
    | none => ⟨q.text, false, none, .none⟩
  else q.push (.ofNat unit)

def token (q : Quoted) : Token := .text (if q.sound && q.leading.isNone then some q.text else none)

/-- The character that a one-letter escape stands for. -/
def escaped? : Char → Option Char
  | '"' => some '"'
  | '\\' => some '\\'
  | '/' => some '/'
  | 'b' => some '\x08'
  | 'f' => some '\x0c'
  | 'n' => some '\n'
  | 'r' => some '\r'
  | 't' => some '\t'
  | _ => none

def hexValue? (c : Char) : Option Nat :=
  if c.isDigit then some (c.toNat - 48)
  else if 'a' ≤ c ∧ c ≤ 'f' then some (c.toNat - 87)
  else if 'A' ≤ c ∧ c ≤ 'F' then some (c.toNat - 55)
  else none

/-- One more byte between the quotes that is no character; none belongs to an escape. -/
def pushStray? (q : Quoted) : Option Quoted :=
  match q.escape with
  | .none => some { q with sound := false, leading := none }
  | .started | .hex _ _ => none

/-- One more character between the quotes. -/
def step? (q : Quoted) (c : Char) : Option Quoted :=
  match q.escape with
  | .none =>
    if c = '\\' then some { q with escape := .started }
    else if c.toNat < 0x20 then none
    else some (q.push c)
  | .started =>
    if c = 'u' then some { q with escape := .hex 4 0 } else (escaped? c).map q.push
  | .hex left value =>
    (hexValue? c).map fun d ↦
      let value := value * 16 + d
      if left ≤ 1 then q.pushUnit value else { q with escape := .hex (left - 1) value }

end Quoted

/-! ## Texts -/

/-- What is being read. -/
inductive Mode where
  /-- Nothing, between two tokens. -/
  | gap
  /-- A word of which these letters are still to come. -/
  | word (left : List Char) (token : Token)
  | number (phase : Phase) (n : Numeral)
  | string (q : Quoted)
  /-- Nothing any more. -/
  | bad

structure Scan where
  /-- The complete tokens, the last one first. -/
  tokens : List Token
  mode : Mode

namespace Scan

def stop (tokens : List Token) : Scan := ⟨.bad :: tokens, .bad⟩

/-- A character that does not belong to the token before it. -/
def between (tokens : List Token) (c : Char) : Scan :=
  match c with
  | ' ' | '\n' | '\t' | '\r' => ⟨tokens, .gap⟩
  | '[' => ⟨.openArray :: tokens, .gap⟩
  | ']' => ⟨.closeArray :: tokens, .gap⟩
  | '\x7b' => ⟨.openObject :: tokens, .gap⟩
  | '\x7d' => ⟨.closeObject :: tokens, .gap⟩
  | ',' => ⟨.comma :: tokens, .gap⟩
  | ':' => ⟨.colon :: tokens, .gap⟩
  | 'n' => ⟨tokens, .word ['u', 'l', 'l'] .null⟩
  | 't' => ⟨tokens, .word ['r', 'u', 'e'] (.bool true)⟩
  | 'f' => ⟨tokens, .word ['a', 'l', 's', 'e'] (.bool false)⟩
  | '"' => ⟨tokens, .string .start⟩
  | '-' => ⟨tokens, .number .minus (.start true 0)⟩
  | c =>
    match digit? c with
    | some d => ⟨tokens, .number (if d = 0 then .zero else .whole) (.start false d)⟩
    | none => stop tokens

/-- Goes on with a byte that is no character. -/
def stepStray (s : Scan) : Scan :=
  match s.mode with
  | .string q =>
    match q.pushStray? with
    | some q => ⟨s.tokens, .string q⟩
    | none => stop s.tokens
  | .number phase n => stop (if phase.complete then .number n.number? :: s.tokens else s.tokens)
  | .bad => s
  | .gap | .word _ _ => stop s.tokens

def stepChar (s : Scan) (c : Char) : Scan :=
  match s.mode with
  | .gap => between s.tokens c
  | .word (l :: left) token =>
    if c ≠ l then stop s.tokens
    else if left.isEmpty then ⟨token :: s.tokens, .gap⟩
    else ⟨s.tokens, .word left token⟩
  | .word [] token => between (token :: s.tokens) c
  | .number phase n =>
    match extend? phase n c with
    | some (phase, n) => ⟨s.tokens, .number phase n⟩
    | none =>
      if phase.complete ∧ ¬(phase = .zero ∧ c.isDigit) then
        between (.number n.number? :: s.tokens) c
      else stop s.tokens
  | .string q =>
    if c = '"' ∧ q.escape = .none then ⟨q.token :: s.tokens, .gap⟩
    else match q.step? c with
      | some q => ⟨s.tokens, .string q⟩
      | none => stop s.tokens
  | .bad => s

def step (s : Scan) : Option Char → Scan
  | some c => s.stepChar c
  | none => s.stepStray

def finish (s : Scan) : List Token :=
  match s.mode with
  | .gap | .bad => s.tokens
  | .number phase n => if phase.complete then .number n.number? :: s.tokens else .bad :: s.tokens
  | .word _ _ | .string _ => .bad :: s.tokens

end Scan

/-- The tokens of a text. -/
def scan (text : List (Option Char)) : List Token :=
  (text.foldl Scan.step ⟨[], .gap⟩).finish.reverse

end Token

end RemoteObjects.Json
