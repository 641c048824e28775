/-!
# Bytes as text

Bytes are read as UTF-8.  A byte that belongs to no character is read as none: it may stand in a
string as long as nobody asks for that string.
-/

namespace RemoteObjects.Json

/-- Appends what stands at and after a position, the last character first. -/
def decodeFrom (bytes : ByteArray) : Nat → Nat → List (Option Char) → List (Option Char)
  | 0, _, read => read
  | fuel + 1, i, read =>
    if i < bytes.size then
      match bytes.utf8DecodeChar? i with
      | some c => decodeFrom bytes fuel (i + c.utf8Size) (some c :: read)
      | none => decodeFrom bytes fuel (i + 1) (none :: read)
    else read

/-- The characters of a string, each as one that was read. -/
def charsOf (s : String) : List (Option Char) := s.toList.map some

def textOfBytes (bytes : ByteArray) : List (Option Char) :=
  match String.fromUTF8? bytes with
  | some s => charsOf s
  | none => (decodeFrom bytes bytes.size 0 []).reverse

theorem textOfBytes_toUTF8 (s : String) : textOfBytes s.toUTF8 = charsOf s := by
  have : String.fromUTF8? s.toUTF8 = some s := dif_pos s.isValidUTF8
  rw [textOfBytes, this]

end RemoteObjects.Json
