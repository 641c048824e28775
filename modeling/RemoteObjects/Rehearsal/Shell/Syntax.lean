/-!
# Shell scripts

The scripts that rehearsed servers are started with.  A script is a command made of commands, and a
simple command is a list of words.  A word is a list of pieces, which are put in when the command
runs; whether a piece is quoted decides whether its value may fall apart into several words and
whether its characters mean themselves in a pattern.
-/

namespace RemoteObjects.Rehearsal.Shell

/-- What is done about a parameter that is missing. -/
inductive Fallback where
  | use
  | assign
  | fail
  /-- The other way round: the word is used if the parameter is there. -/
  | replace
  deriving DecidableEq

inductive Channel where
  /-- Reads from a file. -/
  | source
  /-- Writes to a file. -/
  | target
  /-- Adds to a file. -/
  | appending
  /-- Reads or writes where another number leads. -/
  | joined
  /-- Reads the text itself. -/
  | inline
  deriving DecidableEq

mutual

inductive Piece where
  | text (s : String) (quoted : Bool)
  | parameter (name : String) (use : Use) (quoted : Bool)
  /-- What a script writes. -/
  | output (script : Command) (quoted : Bool)
  /-- The value of an arithmetic expression. -/
  | sum (expression : List Piece) (quoted : Bool)

/-- What is made of the value of a parameter. -/
inductive Use where
  | value
  | length
  /-- What happens if the parameter is unset or, if `orEmpty`, has no characters. -/
  | fallback (orEmpty : Bool) (how : Fallback) (word : List Piece)
  /-- The value without what a pattern matches at one of its ends. -/
  | trim (atEnd longest : Bool) (pattern : List Piece)
  /-- None that is known. -/
  | bad

inductive Redirect where
  | mk (number : Nat) (channel : Channel) (word : List Piece)

inductive Command where
  | nothing
  | simple (assignments : List (String × List Piece)) (words : List (List Piece))
      (redirects : List Redirect)
  | sequence (first second : Command)
  | both (first second : Command)
  | either (first second : Command)
  | negated (c : Command)
  | pipeline (parts : List Command)
  | background (c : Command)
  | subshell (c : Command)
  | redirected (c : Command) (redirects : List Redirect)
  | choice (condition body otherwise : Command)
  /-- Repeats the body as long as the condition succeeds or, if `negative`, fails. -/
  | loop (negative : Bool) (condition body : Command)
  /-- Runs the body for each of the words, or for each positional parameter. -/
  | each (name : String) (words : Option (List (List Piece))) (body : Command)
  | cases (word : List Piece) (branches : List (List (List Piece) × Command))
  | function (name : String) (body : Command)

end

abbrev Word : Type := List Piece

/-- Names and the texts that are read in their places where a command starts. -/
abbrev Aliases : Type := List (String × String)

/-- A word that is nothing but unquoted text. -/
def Word.bare? : Word → Option String
  | [] => some ""
  | .text s false :: rest => (Word.bare? rest).map (s ++ ·)
  | _ => none

end RemoteObjects.Rehearsal.Shell
