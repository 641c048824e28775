import RemoteObjects.Json.Tree

/-!
# Writing JSON

Documents are written without blanks.  In a string only the quote, the backslash and the control
characters are escaped, the latter by a letter where JSON has one.
-/

namespace RemoteObjects.Json

def hexDigit (n : Nat) : Char := Nat.digitChar (n % 16)

/-- Appends a character of a string. -/
def writeChar (out : String) (c : Char) : String :=
  if c = '"' then out ++ "\\\""
  else if c = '\\' then out ++ "\\\\"
  else if 0x20 ≤ c.toNat then out.push c
  else if c = '\n' then out ++ "\\n"
  else if c = '\r' then out ++ "\\r"
  else if c = '\t' then out ++ "\\t"
  else if c.toNat = 8 then out ++ "\\b"
  else if c.toNat = 12 then out ++ "\\f"
  else ((out ++ "\\u00").push (hexDigit (c.toNat / 16))).push (hexDigit c.toNat)

def writeText (out s : String) : String := (s.foldl writeChar (out.push '"')).push '"'

namespace Tree

mutual

/-- Appends a document. -/
def writeTo (out : String) : Tree → String
  | .null => out ++ "null"
  | .bool b => out ++ (if b then "true" else "false")
  | .number n => out ++ n.write
  | .text s => writeText out s
  | .array items => (writeItems true (out.push '[') items).push ']'
  | .object members => (writeMembers true (out.push '\x7b') members).push '\x7d'

/-- Appends the items of an array, a comma before each but the first. -/
def writeItems (first : Bool) (out : String) : List Tree → String
  | [] => out
  | t :: rest => writeItems false (writeTo (if first then out else out.push ',') t) rest

/-- Appends the members of an object, a comma before each but the first. -/
def writeMembers (first : Bool) (out : String) : List (String × Tree) → String
  | [] => out
  | (name, t) :: rest =>
    let out := if first then out else out.push ','
    writeMembers false (writeTo ((writeText out name).push ':') t) rest

end

def write (t : Tree) : String := t.writeTo ""

end Tree

def Value.write (v : Value) : String := v.tree.write

end RemoteObjects.Json
