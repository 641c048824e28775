import RemoteObjects.Keyed

/-!
# Method tables

The methods of a type that may be called from afar.  Names that start with an underscore are
private.
-/

namespace RemoteObjects

/-- Whether a method of this name may be called from afar. -/
def isPublic (name : String) : Bool :=
  match name.toList with
  | [] => false
  | c :: _ => c ≠ '_'

structure MethodTable where
  typeName : String
  methods : Keyed Unit
  deriving DecidableEq

namespace MethodTable

/-- The table of a type with the given methods; the private ones are left out. -/
def ofNames (typeName : String) (names : List String) : MethodTable :=
  ⟨typeName, .ofList ((names.filter isPublic).map (·, ()))⟩

/-- The names in increasing order. -/
def names (t : MethodTable) : List String := t.methods.keys

def contains (t : MethodTable) (method : String) : Bool := t.methods.contains method

def size (t : MethodTable) : Nat := t.methods.size

def isEmpty (t : MethodTable) : Bool := t.methods.isEmpty

end MethodTable

/-- A type whose objects may live on a server: the name that servers know it by, and all its
methods.  Two types may share a name, so a type is told from others by its key. -/
structure ObjectType where
  key : String
  name : String
  methods : List String
  deriving DecidableEq

def ObjectType.table (t : ObjectType) : MethodTable := .ofNames t.name t.methods

/-- The tables made so far, each once for its type and in the order of their first uses. -/
structure MethodRegistry where
  tables : List (String × MethodTable)

namespace MethodRegistry

def empty : MethodRegistry := ⟨[]⟩

/-- The position of the table of a type, made now if the type was never asked for. -/
def tableOf (r : MethodRegistry) (t : ObjectType) : Nat × MethodRegistry :=
  match r.tables.findIdx? (·.1 = t.key) with
  | some i => (i, r)
  | none => (r.tables.length, ⟨r.tables ++ [(t.key, t.table)]⟩)

def get? (r : MethodRegistry) (position : Nat) : Option MethodTable :=
  r.tables[position]?.map Prod.snd

end MethodRegistry

end RemoteObjects
