import RemoteObjects.Json.Number
import RemoteObjects.Keyed

/-!
# JSON documents and values

A document keeps the members of its objects as they were written.  It is canonical when the members
of every object stand in increasing order of their names, no name twice; a value is a canonical
document, so equal values have equal documents.  `Tree.canonical` brings every document into this
form and lets the last of several members with one name count.
-/

namespace RemoteObjects.Json

inductive Tree where
  | null
  | bool (b : Bool)
  | number (n : Number)
  | text (s : String)
  | array (items : List Tree)
  | object (members : List (String × Tree))
  deriving Inhabited

namespace Tree

mutual

/-- How many containers are nested in one another. -/
def depth : Tree → Nat
  | .array items => depthItems items + 1
  | .object members => depthMembers members + 1
  | _ => 0

def depthItems : List Tree → Nat
  | [] => 0
  | t :: rest => max t.depth (depthItems rest)

def depthMembers : List (String × Tree) → Nat
  | [] => 0
  | (_, t) :: rest => max t.depth (depthMembers rest)

end

mutual

def Canonical : Tree → Prop
  | .array items => CanonicalItems items
  | .object members => (members.map Prod.fst).Pairwise (· < ·) ∧ CanonicalMembers members
  | _ => True

def CanonicalItems : List Tree → Prop
  | [] => True
  | t :: rest => t.Canonical ∧ CanonicalItems rest

def CanonicalMembers : List (String × Tree) → Prop
  | [] => True
  | (_, t) :: rest => t.Canonical ∧ CanonicalMembers rest

end

theorem canonicalItems_iff {items : List Tree} :
    CanonicalItems items ↔ ∀ t ∈ items, t.Canonical := by
  induction items with
  | nil => simp [CanonicalItems]
  | cons t rest ih => simp [CanonicalItems, ih]

theorem canonicalMembers_iff {members : List (String × Tree)} :
    CanonicalMembers members ↔ ∀ e ∈ members, e.2.Canonical := by
  induction members with
  | nil => simp [CanonicalMembers]
  | cons e rest ih => simp [CanonicalMembers, ih]

theorem canonicalMembers_insertEntry {key : String} {t : Tree} {members : List (String × Tree)}
    (ht : t.Canonical) (h : CanonicalMembers members) :
    CanonicalMembers (Keyed.insertEntry key t members) := by
  induction members with
  | nil => exact ⟨ht, trivial⟩
  | cons e rest ih =>
    unfold Keyed.insertEntry
    split
    · exact ⟨ht, h⟩
    · split
      · exact ⟨h.1, ih h.2⟩
      · exact ⟨ht, h.2⟩

theorem canonicalMembers_ofList {members : List (String × Tree)} (h : CanonicalMembers members) :
    CanonicalMembers (Keyed.ofList members).entries := by
  suffices ∀ m : Keyed Tree, CanonicalMembers m.entries →
      CanonicalMembers (members.foldl (fun m e ↦ m.insert e.1 e.2) m).entries from
    this _ trivial
  induction members with
  | nil => exact fun _ hm ↦ hm
  | cons e rest ih => exact fun m hm ↦ ih h.2 _ (canonicalMembers_insertEntry h.1 hm)

mutual

def canonical : Tree → Tree
  | .array items => .array (canonicalItems items)
  | .object members => .object (Keyed.ofList (canonicalMembers members)).entries
  | t => t

def canonicalItems : List Tree → List Tree
  | [] => []
  | t :: rest => t.canonical :: canonicalItems rest

def canonicalMembers : List (String × Tree) → List (String × Tree)
  | [] => []
  | (name, t) :: rest => (name, t.canonical) :: canonicalMembers rest

end

mutual

theorem canonical_canonical : ∀ t : Tree, t.canonical.Canonical
  | .null | .bool _ | .number _ | .text _ => trivial
  | .array items => canonical_canonicalItems items
  | .object members =>
    ⟨Keyed.sorted _, canonicalMembers_ofList (canonical_canonicalMembers members)⟩

theorem canonical_canonicalItems : ∀ items : List Tree, CanonicalItems (canonicalItems items)
  | [] => trivial
  | t :: rest => ⟨canonical_canonical t, canonical_canonicalItems rest⟩

theorem canonical_canonicalMembers :
    ∀ members : List (String × Tree), CanonicalMembers (canonicalMembers members)
  | [] => trivial
  | (_, t) :: rest => ⟨canonical_canonical t, canonical_canonicalMembers rest⟩

end

end Tree

def Value : Type := { t : Tree // t.Canonical }

namespace Value

def tree (v : Value) : Tree := v.val

/-- The value a document denotes. -/
def ofTree (t : Tree) : Value := ⟨t.canonical, t.canonical_canonical⟩

def null : Value := ⟨.null, trivial⟩

instance : Inhabited Value := ⟨null⟩

def ofInt64 (n : Int64) : Value := ⟨.number (.ofInt64 n), trivial⟩

def ofText (s : String) : Value := ⟨.text s, trivial⟩

def ofBool (b : Bool) : Value := ⟨.bool b, trivial⟩

theorem canonicalItems_map_tree (items : List Value) : Tree.CanonicalItems (items.map tree) := by
  rw [Tree.canonicalItems_iff]
  simp only [List.mem_map, forall_exists_index, and_imp, forall_apply_eq_imp_iff₂]
  exact fun v _ ↦ v.property

def array (items : List Value) : Value := ⟨.array (items.map tree), canonicalItems_map_tree items⟩

def object (members : Keyed Value) : Value :=
  ⟨.object (members.map tree).entries, (members.map tree).sorted, by
    rw [Tree.canonicalMembers_iff]
    simp only [Keyed.map, List.mem_map, forall_exists_index, and_imp, forall_apply_eq_imp_iff₂]
    exact fun e _ ↦ e.2.property⟩

/-- The value as a 64-bit integer, if it is one in range. -/
def int64? (v : Value) : Option Int64 :=
  match v.tree with
  | .number n => n.toInt?.bind fun i ↦
    if Int64.minValue.toInt ≤ i ∧ i ≤ Int64.maxValue.toInt then some (.ofInt i) else none
  | _ => none

def text? (v : Value) : Option String :=
  match v.tree with
  | .text s => some s
  | _ => none

end Value

end RemoteObjects.Json
