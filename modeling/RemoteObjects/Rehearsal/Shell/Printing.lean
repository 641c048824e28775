import RemoteObjects.Binary64
import RemoteObjects.Rehearsal.Shell.Sum

/-!
# What commands write

The texts that `echo` and `printf` make of their words.
-/

namespace RemoteObjects.Rehearsal.Shell.Printing

/-- The character that a letter after a backslash stands for. -/
def escaped? : Char → Option Char
  | 'a' => some '\x07'
  | 'b' => some '\x08'
  | 'f' => some '\x0c'
  | 'n' => some '\n'
  | 'r' => some '\r'
  | 't' => some '\t'
  | 'v' => some '\x0b'
  | '\\' => some '\\'
  | _ => none

def isOctal (c : Char) : Bool := '0' ≤ c && c ≤ '7'

def octal (digits : List Char) : Char :=
  .ofNat (digits.foldl (fun n c ↦ n * 8 + (c.toNat - 48)) 0 % 256)

/-- The text without its escapes, and whether one of them was the end of all writing. -/
def unescape : Nat → List Char → List Char × Bool
  | 0, _ => ([], false)
  | _, [] => ([], false)
  | _, '\\' :: 'c' :: _ => ([], true)
  | fuel + 1, '\\' :: c :: rest =>
    match escaped? c with
    | some d => let (text, stop) := unescape fuel rest; (d :: text, stop)
    | none =>
      if isOctal c then
        let start := if c = '0' then rest else c :: rest
        let digits := (start.take 3).takeWhile isOctal
        let (text, stop) := unescape fuel (start.drop digits.length)
        (octal digits :: text, stop)
      else let (text, stop) := unescape fuel rest; ('\\' :: c :: text, stop)
  | fuel + 1, c :: rest => let (text, stop) := unescape fuel rest; (c :: text, stop)

def echo (words : List String) : String :=
  let (ended, words) := match words with
    | "-n" :: words => (false, words)
    | words => (true, words)
  let text := (" ".intercalate words).toList
  let (text, stop) := unescape (text.length + 1) text
  String.ofList text ++ if ended && !stop then "\n" else ""

/-! ## Numbers in words -/

/-- The integer that a word spells, and whether it spells no more than that.  After a quotation mark
a character spells its code. -/
def integer (word : String) : Int × Bool :=
  match word.toList with
  | '"' :: rest | '\'' :: rest =>
    (((String.ofList (rest.take 1)).toUTF8.data.toList.headD 0).toNat, true)
  | text =>
    let text := text.dropWhile Char.isWhitespace
    let negative := text.head? = some '-'
    let digits := if negative || text.head? = some '+' then text.drop 1 else text
    let (n, rest) := Sum.natural digits
    (if negative then -n else n,
      word.isEmpty || (digits.head?.any Char.isDigit && rest.isEmpty))

/-- An integer brought into the range of 64 bits with a sign, and whether it was in there. -/
def signed (n : Int) : Int × Bool :=
  let m := max (-0x8000000000000000) (min 0x7fffffffffffffff n)
  (m, m = n)

/-- An integer brought into the range of 64 bits without a sign, where negative integers wrap
around, and whether that could be done. -/
def unsigned (n : Int) : Nat × Bool :=
  if n.natAbs < UInt64.size then ((n.emod UInt64.size).toNat, true) else (UInt64.size - 1, false)

/-- The number that a word spells without an exponent, and whether it spells no more than that. -/
def fractional (word : String) : Binary64 × Bool :=
  let text := word.toList.dropWhile Char.isWhitespace
  let negative := text.head? = some '-'
  let text := if negative || text.head? = some '+' then text.drop 1 else text
  let whole := text.takeWhile Char.isDigit
  let rest := text.drop whole.length
  let (fraction, rest) := match rest with
    | '.' :: rest => let digits := rest.takeWhile Char.isDigit; (digits, rest.drop digits.length)
    | rest => ([], rest)
  let digits := whole ++ fraction
  let n := digits.foldl (fun n c ↦ n * 10 + (c.toNat - 48)) 0
  (.ofRatio negative n (Nat.pow 10 fraction.length),
    word.isEmpty || (!digits.isEmpty && rest.isEmpty))

/-! ## Formats -/

/-- How a word is written. -/
structure Conversion where
  flags : List Char
  width : Nat
  precision : Option Nat

namespace Conversion

/-- Fills a text up to the width, behind it if the flags say so. -/
def fill (c : Conversion) (s : String) : String :=
  let missing := "".pushn ' ' (c.width - s.length)
  if '-' ∈ c.flags then s ++ missing else missing ++ s

/-- What stands before a number. -/
def sign (c : Conversion) (negative : Bool) : String :=
  if negative then "-" else if '+' ∈ c.flags then "+" else if ' ' ∈ c.flags then " " else ""

/-- Fills a number up to the width, with zeros behind its sign if the flags say so. -/
def fillNumber (c : Conversion) (sign digits : String) : String :=
  let zeros := if '0' ∈ c.flags && '-' ∉ c.flags then c.width - sign.length - digits.length else 0
  c.fill (sign ++ "".pushn '0' zeros ++ digits)

/-- An integer, whose precision is the least number of digits; then the width is filled with
blanks. -/
def integer (c : Conversion) (sign digits : String) : String :=
  match c.precision with
  | none => c.fillNumber sign digits
  | some n =>
    let digits := if n = 0 && digits = "0" then "" else digits
    c.fill (sign ++ "".pushn '0' (n - digits.length) ++ digits)

/-- An integer without a sign in a base, which is marked if the flags say so. -/
def inBase (c : Conversion) (base : Nat) (mark : String) (n : Nat) : String :=
  c.integer (if '#' ∈ c.flags && n ≠ 0 then mark else "") (String.ofList (Nat.toDigits base n))

/-- A number with as many digits behind its point as the precision says, rounded to the nearest. -/
def fraction (c : Conversion) (x : Binary64) : String :=
  match x with
  | .finite x =>
    let places := c.precision.getD 6
    let digits := toString (roundEven (x.units * Nat.pow 10 places) (1 <<< 1074))
    let digits := "".pushn '0' (places + 1 - digits.length) ++ digits
    let whole := digits.toList.take (digits.length - places)
    let rest := digits.toList.drop (digits.length - places)
    let point := if rest.isEmpty && '#' ∉ c.flags then [] else ['.']
    c.fillNumber (c.sign x.negative) (String.ofList (whole ++ point ++ rest))
  | .infinite negative => c.fill (c.sign negative ++ "inf")
  | .nan => c.fill "nan"

end Conversion

/-- What a format has written, and the words that it has not used. -/
structure Page where
  text : String
  words : List String
  status : UInt8
  /-- Whether nothing more is written. -/
  ended : Bool

namespace Page

def write (p : Page) (s : String) : Page := { p with text := p.text ++ s }

/-- Uses the next word, or an empty one if there is none. -/
def take (p : Page) : String × Page := (p.words.headD "", { p with words := p.words.drop 1 })

/-- Remembers a word that does not fit. -/
def judge (p : Page) (fits : Bool) : Page := if fits then p else { p with status := 1 }

/-- The end because of a fault in the format. -/
def refuse (p : Page) : Page := { p with status := 2, ended := true }

/-- A number in a format: its digits, or a star for the next word. -/
def size (p : Page) : List Char → Int × List Char × Page
  | '*' :: rest =>
    let (w, p) := p.take
    let (n, fits) := integer w
    (n, rest, p.judge fits)
  | text =>
    let digits := text.takeWhile Char.isDigit
    (((String.ofList digits).toNat?.getD 0 : Nat), text.drop digits.length, p)

/-- Writes the next word as a letter says. -/
def convert (p : Page) (c : Conversion) (letter : Char) : Page :=
  let (w, next) := p.take
  let (n, spelled) := integer w
  let (m, inRange) := signed n
  let (k, fits) := unsigned n
  let cut (s : String) : String := c.precision.elim s fun n ↦ String.ofList (s.toList.take n)
  match letter with
  | 's' => next.write (c.fill (cut w))
  | 'b' =>
    let (text, stop) := unescape (w.length + 1) w.toList
    { next.write (c.fill (cut (String.ofList text))) with ended := stop }
  | 'c' => next.write (c.fill (String.ofList (w.toList.take 1)))
  | 'd' | 'i' =>
    (next.judge (spelled && inRange)).write (c.integer (c.sign (m < 0)) (toString m.natAbs))
  | 'u' => (next.judge (spelled && fits)).write (c.inBase 10 "" k)
  | 'o' => (next.judge (spelled && fits)).write (c.inBase 8 "0" k)
  | 'x' => (next.judge (spelled && fits)).write (c.inBase 16 "0x" k)
  | 'X' => (next.judge (spelled && fits)).write ((c.inBase 16 "0x" k).map Char.toUpper)
  | 'f' | 'F' =>
    let (x, spelled) := fractional w
    (next.judge spelled).write (c.fraction x)
  | _ => p.refuse

/-- One pass over a format. -/
def format : Nat → List Char → Page → Page
  | 0, _, p => p
  | _, [], p => p
  | fuel + 1, '%' :: '%' :: rest, p => format fuel rest (p.write "%")
  | fuel + 1, '%' :: rest, p =>
    let flags := rest.takeWhile (· ∈ ['-', '+', ' ', '0', '#'])
    let (width, rest, p) := p.size (rest.drop flags.length)
    let flags := if width < 0 then '-' :: flags else flags
    let (precision, rest, p) : Option Int × List Char × Page := match rest with
      | '.' :: rest => let (n, rest, p) := p.size rest; (some n, rest, p)
      | rest => (none, rest, p)
    let c : Conversion := ⟨flags, width.natAbs, (precision.filter (0 ≤ ·)).map Int.toNat⟩
    match rest with
    | [] => p.refuse
    | letter :: rest =>
      let p := p.convert c letter
      if p.ended then p else format fuel rest p
  | fuel + 1, '\\' :: c :: rest, p =>
    match escaped? c with
    | some d => format fuel rest (p.write (String.ofList [d]))
    | none =>
      if isOctal c then
        let digits := ((c :: rest).take 3).takeWhile isOctal
        format fuel ((c :: rest).drop digits.length) (p.write (String.ofList [octal digits]))
      else format fuel rest (p.write (String.ofList ['\\', c]))
  | fuel + 1, c :: rest, p => format fuel rest (p.write (String.ofList [c]))

/-- Repeats a format as long as it uses words up. -/
def repeated (pattern : List Char) : Nat → Page → Page
  | 0, p => p
  | fuel + 1, p =>
    let q := format (pattern.length + 1) pattern p
    if q.ended || q.words.isEmpty || q.words.length = p.words.length then q
    else repeated pattern fuel q

end Page

/-- The text that a format makes of words, and its status. -/
def printf (pattern : String) (words : List String) : String × UInt8 :=
  let page := Page.repeated pattern.toList (words.length + 1) ⟨"", words, 0, false⟩
  (page.text, page.status)

end RemoteObjects.Rehearsal.Shell.Printing
