/-!
# Maps with string keys

A map keeps its entries in increasing order of their keys, so a map is determined by the values
it holds, however it was put together.  Strings are ordered by code points, which is also the order
of their UTF-8 bytes.
-/

namespace RemoteObjects

universe u v

structure Keyed (α : Type u) where
  entries : List (String × α)
  sorted : (entries.map Prod.fst).Pairwise (· < ·)

namespace Keyed

variable {α : Type u} {β : Type v}

/-- Puts an entry at its place, instead of an earlier one with the same key. -/
def insertEntry (key : String) (a : α) : List (String × α) → List (String × α)
  | [] => [(key, a)]
  | (k, b) :: rest =>
    if key < k then (key, a) :: (k, b) :: rest
    else if k < key then (k, b) :: insertEntry key a rest
    else (key, a) :: rest

theorem key_mem_insertEntry {key k : String} {a : α} {l : List (String × α)}
    (h : k ∈ (insertEntry key a l).map Prod.fst) : k = key ∨ k ∈ l.map Prod.fst := by
  induction l with
  | nil => simpa [insertEntry] using h
  | cons e rest ih =>
    obtain ⟨k', b⟩ := e
    unfold insertEntry at h
    split at h
    · simpa using h
    · split at h
      · simp only [List.map_cons, List.mem_cons] at h ⊢
        rcases h with h | h
        · exact .inr (.inl h)
        · exact (ih h).imp_right .inr
      · simp only [List.map_cons, List.mem_cons] at h ⊢
        exact h.imp_right .inr

theorem sorted_insertEntry (key : String) (a : α) {l : List (String × α)}
    (h : (l.map Prod.fst).Pairwise (· < ·)) :
    ((insertEntry key a l).map Prod.fst).Pairwise (· < ·) := by
  induction l with
  | nil => simp [insertEntry]
  | cons e rest ih =>
    obtain ⟨k, b⟩ := e
    simp only [List.map_cons, List.pairwise_cons] at h
    unfold insertEntry
    split
    next hlt =>
      simp only [List.map_cons, List.pairwise_cons, List.mem_cons]
      refine ⟨?_, h.1, h.2⟩
      rintro x (rfl | hx)
      · exact hlt
      · exact String.lt_trans hlt (h.1 x hx)
    next hle =>
      split
      next hlt =>
        simp only [List.map_cons, List.pairwise_cons]
        refine ⟨fun x hx ↦ ?_, ih h.2⟩
        rcases key_mem_insertEntry hx with rfl | hx
        · exact hlt
        · exact h.1 x hx
      next hge =>
        have hk : key = k := String.le_antisymm (String.not_lt.1 hge) (String.not_lt.1 hle)
        subst hk
        simpa using h

def empty : Keyed α := ⟨[], by simp⟩

instance : Inhabited (Keyed α) := ⟨empty⟩

def insert (m : Keyed α) (key : String) (a : α) : Keyed α :=
  ⟨insertEntry key a m.entries, sorted_insertEntry key a m.sorted⟩

/-- The map of a list of entries; of several with one key the last counts. -/
def ofList (l : List (String × α)) : Keyed α :=
  l.foldl (fun m e ↦ m.insert e.1 e.2) empty

def get? (m : Keyed α) (key : String) : Option α := m.entries.lookup key

def erase (m : Keyed α) (key : String) : Keyed α :=
  ⟨m.entries.filter (·.1 ≠ key), m.sorted.sublist (List.filter_sublist.map _)⟩

def keys (m : Keyed α) : List String := m.entries.map Prod.fst

def values (m : Keyed α) : List α := m.entries.map Prod.snd

def contains (m : Keyed α) (key : String) : Bool := (m.get? key).isSome

def size (m : Keyed α) : Nat := m.entries.length

def isEmpty (m : Keyed α) : Bool := m.entries.isEmpty

def map (f : α → β) (m : Keyed α) : Keyed β :=
  ⟨m.entries.map fun e ↦ (e.1, f e.2), by simpa [Function.comp_def] using m.sorted⟩

theorem ext_entries {m n : Keyed α} (h : m.entries = n.entries) : m = n := by
  cases m; cases n; cases h; rfl

instance [DecidableEq α] : DecidableEq (Keyed α) := fun m n ↦
  decidable_of_iff (m.entries = n.entries) ⟨ext_entries, fun h ↦ h ▸ rfl⟩

end Keyed

end RemoteObjects
