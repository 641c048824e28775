import RemoteObjects.Text.Visible

/-!
# Quoted strings in messages

A string in a message stands between quotes.  Quotes, backslashes and the common blanks are written
as escapes, and so is, by its code point, every character that would not show on its own.
-/

namespace RemoteObjects

def quoteChar (out : String) (c : Char) : String :=
  match c with
  | '"' => out ++ "\\\""
  | '\\' => out ++ "\\\\"
  | '\n' => out ++ "\\n"
  | '\r' => out ++ "\\r"
  | '\t' => out ++ "\\t"
  | '\x00' => out ++ "\\0"
  | c =>
    if isVisible c then out.push c
    else out ++ "\\u\x7b" ++ String.ofList (Nat.toDigits 16 c.toNat) ++ "\x7d"

def quoted (s : String) : String := (s.foldl quoteChar "\"").push '"'

end RemoteObjects
