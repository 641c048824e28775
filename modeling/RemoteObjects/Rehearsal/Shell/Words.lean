import RemoteObjects.Rehearsal.Shell.Pattern

/-!
# Words

What is put into a word may make it several words, or none: the characters of a value that nothing
quotes end a word where they are separators.
-/

namespace RemoteObjects.Rehearsal.Shell

/-- What words are made of before they fall apart. -/
inductive Atom where
  /-- A character; a quoted one means itself, and only one from a value may end a word. -/
  | char (c : Char) (quoted split : Bool)
  /-- A word here, even if it has no characters. -/
  | mark
  /-- The end of a word. -/
  | gap

namespace Atom

/-- The words that atoms make. -/
def fields (separators : List Char) : Option (List Char) → List Atom → List String
  | current, [] => (current.map fun w ↦ String.ofList w.reverse).toList
  | current, .mark :: rest => fields separators (some (current.getD [])) rest
  | current, .gap :: rest =>
    (current.map fun w ↦ String.ofList w.reverse).toList ++ fields separators none rest
  | current, .char c _ split :: rest =>
    if split && c ∈ separators then
      let ended := (current.map fun w ↦ String.ofList w.reverse).toList
      let ended := if c ∈ [' ', '\t', '\n'] then ended else [ended.headD ""]
      ended ++ fields separators none rest
    else fields separators (some (c :: current.getD [])) rest

/-- The text that atoms make where words do not fall apart. -/
def text : List Atom → List Char
  | [] => []
  | .char c _ _ :: rest => c :: text rest
  | .mark :: rest => text rest
  | .gap :: rest => ' ' :: text rest

def pattern (atoms : List Atom) : Pattern :=
  let chars := atoms.filterMap fun
    | .char c quoted _ => some (c, quoted)
    | .mark => none
    | .gap => some (' ', true)
  .ofChars (chars.length + 1) chars

/-- The atoms of a value. -/
def ofValue (quoted : Bool) (s : String) : List Atom :=
  s.toList.map (.char · quoted !quoted) ++ if quoted then [.mark] else []

end Atom

end RemoteObjects.Rehearsal.Shell
