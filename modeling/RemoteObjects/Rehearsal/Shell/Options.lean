/-!
# Options among words

Options are letters behind a minus sign.  Several may share a word, and an argument is what follows
its letter in the word or else the next word.  They are read one at a time, so the place is kept
where the reading stands.
-/

namespace RemoteObjects.Rehearsal.Shell

/-- Where the reading of options stands. -/
structure OptionPlace where
  /-- How many words are behind. -/
  words : Nat
  /-- How many characters of the last of them were read, if there may be more to read. -/
  letters : Option Nat

namespace OptionPlace

def start : OptionPlace := ⟨0, none⟩

end OptionPlace

/-- What a reading comes to. -/
inductive OptionFound where
  /-- An option, with its argument if it takes one. -/
  | known (letter : Char) (argument : String)
  | unknown (letter : Char)
  /-- An option that takes an argument, of which there is none. -/
  | bare (letter : Char)
  /-- No option stands next. -/
  | ended

namespace OptionFound

/-- Whether an option is among those described and, if so, whether it takes an argument: a colon
after its letter says so. -/
def takesArgument? (letter : Char) : List Char → Option Bool
  | [] => none
  | c :: ':' :: rest => if c = letter then some true else takesArgument? letter rest
  | c :: rest => if c = letter then some false else takesArgument? letter rest

/-- Reads a letter in the middle of a word. -/
def ofLetter (described : List Char) (words : List String) (behind : Nat) (letter : Char)
    (rest : List Char) : OptionFound × OptionPlace :=
  let inside : OptionPlace :=
    ⟨behind, (words[behind - 1]?).map fun w ↦ w.length - rest.length⟩
  match takesArgument? letter described with
  | none => (.unknown letter, inside)
  | some false => (.known letter "", inside)
  | some true =>
    if rest.isEmpty then
      match words[behind]? with
      | some w => (.known letter w, ⟨behind + 1, none⟩)
      | none => (.bare letter, ⟨behind, none⟩)
    else (.known letter (String.ofList rest), ⟨behind, none⟩)

/-- Reads the next option and says where the reading stands after it. -/
def next (described : List Char) (words : List String) (place : OptionPlace) :
    OptionFound × OptionPlace :=
  let left : List Char := match place.letters, words[place.words - 1]? with
    | some n, some w => w.toList.drop n
    | _, _ => []
  match left, (words[place.words]?).map String.toList with
  | letter :: rest, _ => ofLetter described words place.words letter rest
  | [], some ['-', '-'] => (.ended, ⟨place.words + 1, none⟩)
  | [], some ('-' :: letter :: rest) => ofLetter described words (place.words + 1) letter rest
  | [], _ => (.ended, ⟨place.words, none⟩)

/-- All options of some words and the words behind them; nothing if one of them is not known. -/
def all? (described : List Char) (words : List String) :
    Nat → OptionPlace → Option (List (Char × String) × List String)
  | 0, _ => none
  | fuel + 1, place =>
    match next described words place with
    | (.known letter argument, place) =>
      (all? described words fuel place).map fun (found, rest) ↦ ((letter, argument) :: found, rest)
    | (.ended, place) => some ([], words.drop place.words)
    | (.unknown _, _) | (.bare _, _) => none

/-- All options of some words and the words behind them.  Each option takes a character. -/
def ofWords? (described : String) (words : List String) :
    Option (List (Char × String) × List String) :=
  all? described.toList words (words.foldl (fun n w ↦ n + w.length) 1) .start

end OptionFound

end RemoteObjects.Rehearsal.Shell
