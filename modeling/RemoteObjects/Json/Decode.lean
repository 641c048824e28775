import RemoteObjects.Json.Draft
import RemoteObjects.Json.Text

/-!
# Reading data from JSON

A decoder takes a draft and answers with the data it holds or with the first fault that whoever
reads the text from the front meets.  Where a draft stands decides two things: straight in a text
the nesting is limited, and a record written as an array with too many items is refused in words
that depend on the place.
-/

namespace RemoteObjects.Json

inductive Place where
  /-- In a text; so many containers may still be opened. -/
  | text (room : Nat)
  /-- In the members that a tagged record has set aside until its tag is known. -/
  | buffer
  /-- In a value. -/
  | value
  deriving DecidableEq

/-- The place inside a container that stands here. -/
def Place.enter : Place → Except Cause Place
  | .text 0 => .error .tooDeep
  | .text (room + 1) => .ok (.text room)
  | place => .ok place

mutual

/-- The whole document that a draft holds. -/
def Draft.tree (place : Place) : Draft → Except Cause Tree
  | .null => .ok .null
  | .bool b => .ok (.bool b)
  | .number (some n) => .ok (.number n)
  | .text (some s) => .ok (.text s)
  | .array items => do
    let inner ← place.enter
    return .array (← Draft.treeItems inner items)
  | .object members => do
    let inner ← place.enter
    return .object (← Draft.treeMembers inner members)
  | .number none | .text none | .cut => .error .malformed

def Draft.treeItems (place : Place) : List Draft → Except Cause (List Tree)
  | [] => .ok []
  | d :: rest => do
    let t ← d.tree place
    return t :: (← Draft.treeItems place rest)

def Draft.treeMembers (place : Place) :
    List (Option String × Draft) → Except Cause (List (String × Tree))
  | [] => .ok []
  | (some name, d) :: rest => do
    let t ← d.tree place
    return (name, t) :: (← Draft.treeMembers place rest)
  | (none, _) :: _ => .error .malformed

end

abbrev Decoder (α : Type) : Type := Place → Draft → Except Cause α

namespace Decoder

variable {α β : Type}

/-- Refuses what stands here because something else is wanted. -/
def mismatch (wanted : String) (d : Draft) : Except Cause α := do
  throw (.invalidType (← d.found) wanted)

def map (f : α → β) (decode : Decoder α) : Decoder β := fun place d ↦ (decode place d).map f

def value : Decoder Value := fun place d ↦ (d.tree place).map .ofTree

def text : Decoder String
  | _, .text (some s) => .ok s
  | _, d => mismatch "a string" d

def bool : Decoder Bool
  | _, .bool b => .ok b
  | _, d => mismatch "a boolean" d

def unit : Decoder Unit
  | _, .null => .ok ()
  | _, d => mismatch "unit" d

/-- An integer between two bounds; `wanted` names its type. -/
def integer (wanted : String) (low high : Int) : Decoder Int
  | _, .number (some n) =>
    match n.toInt? with
    | some i => if low ≤ i ∧ i ≤ high then .ok i else .error (.invalidValue (.integer i) wanted)
    | none => mismatch wanted (.number (some n))
  | _, d => mismatch wanted d

def uint8 : Decoder UInt8 := (integer "u8" 0 (UInt8.size - 1)).map fun i ↦ i.toNat.toUInt8

def uint16 : Decoder UInt16 := (integer "u16" 0 (UInt16.size - 1)).map fun i ↦ i.toNat.toUInt16

def uint32 : Decoder UInt32 := (integer "u32" 0 (UInt32.size - 1)).map fun i ↦ i.toNat.toUInt32

def uint64 : Decoder UInt64 := (integer "u64" 0 (UInt64.size - 1)).map fun i ↦ i.toNat.toUInt64

/-- A size, which has 64 bits. -/
def size : Decoder UInt64 := (integer "usize" 0 (UInt64.size - 1)).map fun i ↦ i.toNat.toUInt64

def int64 : Decoder Int64 := (integer "i64" Int64.minValue.toInt Int64.maxValue.toInt).map .ofInt

def float : Decoder Binary64
  | _, .number (some n) => .ok n.toBinary64
  | _, d => mismatch "f64" d

def list (decode : Decoder α) : Decoder (List α)
  | place, .array items => do
    let inner ← place.enter
    items.mapM (decode inner)
  | _, d => mismatch "a sequence" d

/-- Members under any names; of several with one name the last counts. -/
def keyed (decode : Decoder α) : Decoder (Keyed α)
  | place, .object members => do
    let inner ← place.enter
    let entries ← members.mapM fun (name, d) ↦ do
      let some name := name | throw .malformed
      return (name, ← decode inner d)
    return .ofList entries
  | _, d => mismatch "a map" d

/-- Nothing, written as null, or what `decode` reads. -/
def option (decode : Decoder α) : Decoder (Option α)
  | _, .null => .ok none
  | place, d => (decode place d).map some

def bytes : Decoder ByteArray := (list uint8).map fun l ↦ ⟨l.toArray⟩

end Decoder

variable {α : Type}

/-- How deep the containers of a text may be nested. -/
def nestingLimit : Nat := 127

/-- Reads a text that holds one document and nothing else. -/
def read (decode : Decoder α) (text : List (Option Char)) : Except Cause α := do
  let (draft, surplus) := Draft.ofTokens (Token.scan text)
  let a ← decode (.text nestingLimit) draft
  if surplus then throw .malformed
  return a

def readBytes (decode : Decoder α) (bytes : ByteArray) : Except Cause α :=
  read decode (textOfBytes bytes)

def readString (decode : Decoder α) (s : String) : Except Cause α := read decode (charsOf s)

/-- Reads data from a value. -/
def Value.decode (decode : Decoder α) (v : Value) : Except Cause α := decode .value (.ofTree v.tree)

end RemoteObjects.Json
