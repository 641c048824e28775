import RemoteObjects.Json.Decode

/-!
# Records

A record is an object with a known set of fields, in any order, or an array of its fields in their
own order.  Unknown members are passed over, but they have to be JSON; a field may stand only once.
The members are examined in the order of the text, so the first fault in it is the one reported;
fields that are missing are noticed after that.
-/

namespace RemoteObjects.Json

structure Field (α : Type) where
  name : String
  decode : Decoder α
  /-- What a missing field stands for, if it may be missing. -/
  absent : Option α

def Field.required {α : Type} (name : String) (decode : Decoder α) : Field α := ⟨name, decode, none⟩

def Field.optional {α : Type} (name : String) (decode : Decoder α) (absent : α) : Field α :=
  ⟨name, decode, some absent⟩

/-- The fields that turn a maker `γ`, a function of their values in order, into a `β`. -/
inductive Fields (β : Type) : Type → Type 1 where
  | done : Fields β β
  | field {α γ : Type} (first : Field α) (rest : Fields β γ) : Fields β (α → γ)

namespace Fields

variable {β γ : Type}

def count {γ : Type} : Fields β γ → Nat
  | .done => 0
  | .field _ rest => rest.count + 1

/-- Examines what stands under a name, if the name is that of a field. -/
def examine? {γ : Type} (name : String) : Fields β γ → Option (Decoder Unit)
  | .done => none
  | .field first rest =>
    if first.name = name then some (first.decode.map fun _ ↦ ()) else rest.examine? name

/-- Examines members in order; `seen` are the fields that have stood before. -/
def examine (fields : Fields β γ) (place : Place) (seen : List String) :
    List (Option String × Draft) → Except Cause Unit
  | [] => .ok ()
  | (none, _) :: _ => .error .malformed
  | (some name, d) :: rest =>
    match fields.examine? name with
    | none => if d.closed then fields.examine place seen rest else .error .malformed
    | some decode =>
      if name ∈ seen then .error (.duplicateField name)
      else do
        decode place d
        fields.examine place (name :: seen) rest

/-- Takes the fields from members. -/
def ofMembers {γ : Type} (place : Place) (members : List (Option String × Draft)) :
    Fields β γ → γ → Except Cause β
  | .done, made => .ok made
  | .field first rest, make =>
    match members.lookup (some first.name), first.absent with
    | some d, _ => do rest.ofMembers place members (make (← first.decode place d))
    | none, some a => rest.ofMembers place members (make a)
    | none, none => .error (.missingField first.name)

/-- Takes the fields from items, and leaves those that are too many.  A required field that is
missing after `taken` items is `tooShort taken`. -/
def ofItems {γ : Type} (place : Place) (tooShort : Nat → Cause) (taken : Nat) :
    Fields β γ → γ → List Draft → Except Cause (β × List Draft)
  | .done, made, items => .ok (made, items)
  | .field first rest, make, d :: items => do
    rest.ofItems place tooShort (taken + 1) (make (← first.decode place d)) items
  | .field first rest, make, [] =>
    match first.absent with
    | some a => rest.ofItems place tooShort taken (make a) []
    | none => .error (tooShort taken)

end Fields

structure Record (β : Type) where
  /-- What messages call the record. -/
  title : String
  {Maker : Type}
  make : Maker
  fields : Fields β Maker

namespace Record

variable {β : Type}

/-- The fault of an array with more items than fields. -/
def surplus (count items : Nat) : Place → Cause
  | .text _ => .malformed
  | .buffer => .invalidLength items (.exactly count)
  | .value => .invalidLength items .fewer

def decode (r : Record β) : Decoder β
  | place, .object members => do
    let inner ← place.enter
    r.fields.examine inner [] members
    r.fields.ofMembers inner members r.make
  | place, .array items => do
    let inner ← place.enter
    let tooShort taken := Cause.invalidLength taken (.fields r.title r.fields.count)
    let (made, rest) ← r.fields.ofItems inner tooShort 0 r.make items
    if rest.isEmpty then return made else throw (surplus r.fields.count items.length place)
  | _, d => Decoder.mismatch r.title d

end Record

end RemoteObjects.Json
