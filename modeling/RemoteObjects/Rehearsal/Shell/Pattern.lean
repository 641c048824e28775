/-!
# Patterns

A pattern stands for texts: a star for any text, a question mark for any character, and brackets for
one of some characters.
-/

namespace RemoteObjects.Rehearsal.Shell

inductive Glyph where
  | literal (c : Char)
  | anyOne
  | anyText
  /-- One of the characters in some ranges, or none of them. -/
  | oneOf (negated : Bool) (ranges : List (Char × Char))
  deriving DecidableEq

abbrev Pattern : Type := List Glyph

def Glyph.holds (c : Char) : Glyph → Bool
  | .literal d => c == d
  | .anyOne => true
  | .anyText => false
  | .oneOf negated ranges => negated != ranges.any fun r ↦ r.1 ≤ c && c ≤ r.2

namespace Pattern

/-- The end of a text, the whole of it included, after each of its beginnings. -/
def tails : List Char → List (List Char)
  | [] => [[]]
  | c :: rest => (c :: rest) :: tails rest

/-- Whether the pattern stands for the text. -/
def holds : Pattern → List Char → Bool
  | [], text => text.isEmpty
  | .anyText :: rest, text => (tails text).any (Pattern.holds rest)
  | g :: rest, c :: text => g.holds c && Pattern.holds rest text
  | _ :: _, [] => false

/-- The ranges of characters that have a name. -/
def classes : List (String × List (Char × Char)) :=
  let upper := ('A', 'Z')
  let lower := ('a', 'z')
  let digit := ('0', '9')
  [("upper", [upper]), ("lower", [lower]), ("digit", [digit]), ("alpha", [upper, lower]),
    ("alnum", [digit, upper, lower]), ("xdigit", [digit, ('A', 'F'), ('a', 'f')]),
    ("blank", [('\t', '\t'), (' ', ' ')]), ("space", [('\t', '\r'), (' ', ' ')]),
    ("punct", [('!', '/'), (':', '@'), ('[', Char.ofNat 96), ('\x7b', '~')]),
    ("cntrl", [('\x00', '\x1f'), ('\x7f', '\x7f')]), ("graph", [('!', '~')]),
    ("print", [(' ', '~')])]

/-- The ranges that the name of a class at the front stands for, and how long it is. -/
def class? (text : List Char) : Option (List (Char × Char) × Nat) :=
  classes.findSome? fun (name, ranges) ↦
    if ("[:" ++ name ++ ":]").toList.isPrefixOf text then some (ranges, name.length + 4) else none

/-- The ranges between brackets, after those that were read, and what follows the bracket that
closes them; each character says whether it is quoted. -/
def bracket? (read : List (Char × Char)) : Nat → List (Char × Bool) →
    Option (List (Char × Char) × List (Char × Bool))
  | 0, _ => none
  | _, [] => none
  | fuel + 1, (c, quoted) :: rest =>
    if c = ']' && !quoted && !read.isEmpty then some (read, rest)
    else match class? (c :: rest.map Prod.fst), rest with
      | some (ranges, size), _ => bracket? (read ++ ranges) fuel (rest.drop (size - 1))
      | none, ('-', false) :: (b, escaped) :: after =>
        if b = ']' && !escaped then bracket? (read ++ [(c, c)]) fuel rest
        else bracket? (read ++ [(c, b)]) fuel after
      | none, _ => bracket? (read ++ [(c, c)]) fuel rest

/-- The pattern that characters spell, of which the quoted ones mean themselves. -/
def ofChars : Nat → List (Char × Bool) → Pattern
  | 0, _ => []
  | _, [] => []
  | fuel + 1, (c, quoted) :: rest =>
    let single : Pattern := .literal c :: ofChars fuel rest
    if quoted then single
    else match c with
      | '*' => .anyText :: ofChars fuel rest
      | '?' => .anyOne :: ofChars fuel rest
      | '[' =>
        let (negated, list) := match rest with
          | ('!', false) :: list => (true, list)
          | list => (false, list)
        match bracket? [] (list.length + 1) list with
        | some (inside, rest) => .oneOf negated inside :: ofChars fuel rest
        | none => single
      | _ => single

/-- The text without the shortest or longest beginning or end that the pattern stands for. -/
def trim (p : Pattern) (atEnd longest : Bool) (text : List Char) : List Char :=
  let lengths := List.range (text.length + 1)
  let lengths := if longest then lengths.reverse else lengths
  let part (n : Nat) : List Char := if atEnd then text.drop (text.length - n) else text.take n
  match lengths.find? fun n ↦ p.holds (part n) with
  | some n => if atEnd then text.take (text.length - n) else text.drop n
  | none => text

end Pattern

end RemoteObjects.Rehearsal.Shell
