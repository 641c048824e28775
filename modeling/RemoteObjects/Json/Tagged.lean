import RemoteObjects.Json.Record

/-!
# Tagged records

A tagged record is one of several records, told apart by a string in a member of its own or, when
it is written as an array, in the first item.  All other members are set aside until the whole
record is read, so they may stand before the tag.
-/

namespace RemoteObjects.Json

structure Variant (α : Type) where
  name : String
  /-- Reads the record without its tag. -/
  decode : Decoder α

structure Tagged (α : Type) where
  /-- What messages call the record. -/
  title : String
  tag : String
  variants : List (Variant α)

namespace Variant

/-- A variant without fields; members are passed over, items are too many. -/
def plain {α : Type} (name : String) (a : α) : Variant α where
  name := name
  decode
    | _, .object _ => .ok a
    | _, .array [] => .ok a
    | _, .array items => .error (.invalidLength items.length (.exactly 0))
    | _, d => Decoder.mismatch "unit" d

def record {α β : Type} (name : String) (r : Record β) (wrap : β → α) : Variant α :=
  ⟨name, r.decode.map wrap⟩

end Variant

namespace Tagged

variable {α : Type}

def variant (t : Tagged α) : Draft → Except Cause (Variant α)
  | .text (some name) =>
    match t.variants.find? (·.name = name) with
    | some v => .ok v
    | none => .error (.unknownVariant name (t.variants.map (·.name)))
  | d => Decoder.mismatch "variant identifier" d

/-- Reads all members: the variant that the tag names, and the other members. -/
def gather (t : Tagged α) (place : Place) (tagged : Option (Variant α)) :
    List (Option String × Draft) → Except Cause (Option (Variant α) × List (String × Tree))
  | [] => .ok (tagged, [])
  | (none, _) :: _ => .error .malformed
  | (some name, d) :: rest =>
    if name = t.tag then
      match tagged with
      | some _ => .error (.duplicateField name)
      | none => do t.gather place (some (← t.variant d)) rest
    else do
      let tree ← d.tree place
      let (tagged, others) ← t.gather place tagged rest
      return (tagged, (name, tree) :: others)

def decode (t : Tagged α) : Decoder α
  | place, .object members => do
    let inner ← place.enter
    let (tagged, others) ← t.gather inner none members
    let some v := tagged | throw (.missingField t.tag)
    v.decode .buffer (.object (Draft.ofMembers others))
  | place, .array items => do
    let inner ← place.enter
    let first :: rest := items | throw (.missingField t.tag)
    let v ← t.variant first
    v.decode .buffer (.array (Draft.ofItems (← Draft.treeItems inner rest)))
  | _, d => Decoder.mismatch t.title d

end Tagged

end RemoteObjects.Json
