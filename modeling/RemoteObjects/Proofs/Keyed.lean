import Mathlib.Data.List.Sort
import RemoteObjects.Keyed

/-!
# Entries of maps

Looking up, inserting and erasing, said in terms of the entries that a map has.
-/

namespace RemoteObjects.Keyed

universe u

variable {α : Type u}

theorem mem_insertEntry {key : String} {a : α} {l : List (String × α)}
    (h : (l.map Prod.fst).Pairwise (· < ·)) {e : String × α} :
    e ∈ insertEntry key a l ↔ e = (key, a) ∨ e ∈ l ∧ e.1 ≠ key := by
  induction l with
  | nil => simp [insertEntry]
  | cons x rest ih =>
      obtain ⟨k, b⟩ := x
      rw [List.map_cons, List.pairwise_cons] at h
      have habove : ∀ y ∈ rest, k < y.1 := fun y hy ↦ h.1 y.1 (List.mem_map_of_mem hy)
      unfold insertEntry
      split
      · next hlt =>
          have hne : ∀ y ∈ (k, b) :: rest, y.1 ≠ key := by
            intro y hy
            rcases List.mem_cons.mp hy with rfl | hy
            · exact (String.ne_of_lt hlt).symm
            · exact (String.ne_of_lt (String.lt_trans hlt (habove y hy))).symm
          rw [List.mem_cons]
          exact or_congr_right ⟨fun he ↦ ⟨he, hne e he⟩, And.left⟩
      · next hnot =>
          split
          · next hlt =>
              have hk : k ≠ key := String.ne_of_lt hlt
              rw [List.mem_cons, List.mem_cons, ih h.2]
              constructor
              · rintro (rfl | rfl | he)
                · exact .inr ⟨.inl rfl, hk⟩
                · exact .inl rfl
                · exact .inr ⟨.inr he.1, he.2⟩
              · rintro (rfl | ⟨rfl | he, hne⟩)
                · exact .inr (.inl rfl)
                · exact .inl rfl
                · exact .inr (.inr ⟨he, hne⟩)
          · next hnot' =>
              have hk : key = k :=
                String.le_antisymm (String.not_lt.1 hnot') (String.not_lt.1 hnot)
              subst hk
              rw [List.mem_cons, List.mem_cons]
              constructor
              · rintro (rfl | he)
                · exact .inl rfl
                · exact .inr ⟨.inr he, (String.ne_of_lt (habove e he)).symm⟩
              · rintro (rfl | ⟨rfl | he, hne⟩)
                · exact .inl rfl
                · exact absurd rfl hne
                · exact .inr he

theorem mem_insert {m : Keyed α} {key : String} {a : α} {e : String × α} :
    e ∈ (m.insert key a).entries ↔ e = (key, a) ∨ e ∈ m.entries ∧ e.1 ≠ key :=
  mem_insertEntry m.sorted

theorem mem_erase {m : Keyed α} {key : String} {e : String × α} :
    e ∈ (m.erase key).entries ↔ e ∈ m.entries ∧ e.1 ≠ key := by
  simp [erase]

theorem mem_of_get? {m : Keyed α} {key : String} {a : α} (h : m.get? key = some a) :
    (key, a) ∈ m.entries := by
  obtain ⟨l₁, l₂, hl, -⟩ := List.lookup_eq_some_iff.mp h
  simp [hl]

theorem lookup_eq_none_iff {l : List (String × α)} {name : String} :
    l.lookup name = none ↔ ∀ e ∈ l, e.1 ≠ name := by
  rw [List.lookup_eq_none_iff]
  exact forall₂_congr fun e _ ↦ by rw [bne_iff_ne, ne_comm]

theorem ne_of_get?_eq_none {m : Keyed α} {key : String} (h : m.get? key = none)
    {e : String × α} (he : e ∈ m.entries) : e.1 ≠ key :=
  lookup_eq_none_iff.mp h e he

theorem mem_values {m : Keyed α} {a : α} : a ∈ m.values ↔ ∃ key, (key, a) ∈ m.entries := by
  simp [values]

/-- An entry whose key is above all others comes last. -/
theorem insertEntry_of_lt {key : String} {a : α} {l : List (String × α)}
    (h : ∀ e ∈ l, e.1 < key) : insertEntry key a l = l ++ [(key, a)] := by
  induction l with
  | nil => rfl
  | cons e rest ih =>
      obtain ⟨k, b⟩ := e
      have hlt : k < key := h (k, b) List.mem_cons_self
      have hrest := ih fun e he ↦ h e (List.mem_cons_of_mem _ he)
      have hnot : ¬key < k := fun h ↦ String.lt_irrefl k (String.lt_trans hlt h)
      rw [insertEntry, if_neg hnot, if_pos hlt, hrest, List.cons_append]

theorem entries_ofList {l : List (String × α)} (h : (l.map Prod.fst).Pairwise (· < ·)) :
    (ofList l).entries = l := by
  have hfold (m : Keyed α) (rest : List (String × α))
      (hsorted : ((m.entries ++ rest).map Prod.fst).Pairwise (· < ·)) :
      (rest.foldl (fun m e ↦ m.insert e.1 e.2) m).entries = m.entries ++ rest := by
    induction rest generalizing m with
    | nil => simp
    | cons e rest ih =>
        have habove : ∀ x ∈ m.entries, x.1 < e.1 := by
          intro x hx
          rw [List.map_append, List.map_cons, List.pairwise_append] at hsorted
          exact hsorted.2.2 x.1 (List.mem_map_of_mem hx) e.1 List.mem_cons_self
        have hinsert : (m.insert e.1 e.2).entries = m.entries ++ [e] := insertEntry_of_lt habove
        have happend : m.entries ++ [e] ++ rest = m.entries ++ e :: rest := by simp
        rw [List.foldl_cons, ih _ (by rwa [hinsert, happend]), hinsert, happend]
  exact hfold empty l h

theorem ofList_entries (m : Keyed α) : ofList m.entries = m :=
  ext_entries (entries_ofList m.sorted)

theorem mem_of_mem_ofList {l : List (String × α)} {e : String × α}
    (h : e ∈ (ofList l).entries) : e ∈ l := by
  have hfold (rest : List (String × α)) (m : Keyed α)
      (he : e ∈ (rest.foldl (fun m e ↦ m.insert e.1 e.2) m).entries) :
      e ∈ m.entries ∨ e ∈ rest := by
    induction rest generalizing m with
    | nil => exact .inl he
    | cons x rest ih =>
        rcases ih (m.insert x.1 x.2) he with he | he
        · rcases mem_insert.mp he with rfl | ⟨he, -⟩
          · exact .inr List.mem_cons_self
          · exact .inl he
        · exact .inr (List.mem_cons_of_mem x he)
  rcases hfold l empty h with he | he
  · cases he
  · exact he

/-! ## Looking up -/

theorem lookup_cons_eq_ite (name key : String) (a : α) (l : List (String × α)) :
    ((key, a) :: l).lookup name = if name = key then some a else l.lookup name := by
  rw [List.lookup_cons]
  split
  · next hname => rw [if_pos (beq_iff_eq.mp hname)]
  · next hname => rw [if_neg (ne_of_beq_false hname)]

theorem lookup_insertEntry (key : String) (a : α) (l : List (String × α)) (name : String) :
    (insertEntry key a l).lookup name = if name = key then some a else l.lookup name := by
  induction l with
  | nil => exact lookup_cons_eq_ite name key a []
  | cons e rest ih =>
      obtain ⟨k, b⟩ := e
      unfold insertEntry
      split
      · exact lookup_cons_eq_ite name key a ((k, b) :: rest)
      · next hnot =>
          split
          · next hlt =>
              have hne : k ≠ key := String.ne_of_lt hlt
              rw [lookup_cons_eq_ite, lookup_cons_eq_ite, ih]
              by_cases hname : name = k
              · rw [if_pos hname, if_pos hname, if_neg (hname ▸ hne)]
              · rw [if_neg hname, if_neg hname]
          · next hnot' =>
              obtain rfl : key = k :=
                String.le_antisymm (String.not_lt.1 hnot') (String.not_lt.1 hnot)
              rw [lookup_cons_eq_ite, lookup_cons_eq_ite]
              split <;> rfl

theorem get?_insert (m : Keyed α) (key : String) (a : α) (name : String) :
    (m.insert key a).get? name = if name = key then some a else m.get? name :=
  lookup_insertEntry key a m.entries name

/-- Of several entries with one key the last counts. -/
theorem get?_ofList (l : List (String × α)) (name : String) :
    (ofList l).get? name = l.reverse.lookup name := by
  have hfold (rest : List (String × α)) (m : Keyed α) :
      (rest.foldl (fun m e ↦ m.insert e.1 e.2) m).get? name =
        (rest.reverse.lookup name).or (m.get? name) := by
    induction rest generalizing m with
    | nil => rfl
    | cons e rest ih =>
        obtain ⟨key, a⟩ := e
        rw [List.foldl_cons, ih, get?_insert, List.reverse_cons, List.lookup_append,
          lookup_cons_eq_ite, Option.or_assoc]
        split <;> rfl
  rw [ofList, hfold]
  exact Option.or_none

theorem get?_eq_some_iff {m : Keyed α} {key : String} {a : α} :
    m.get? key = some a ↔ (key, a) ∈ m.entries := by
  refine ⟨mem_of_get?, fun h ↦ ?_⟩
  obtain ⟨entries, hsorted⟩ := m
  simp only [get?] at h ⊢
  induction entries with
  | nil => cases h
  | cons e rest ih =>
      obtain ⟨k, b⟩ := e
      rw [List.map_cons, List.pairwise_cons] at hsorted
      rcases List.mem_cons.mp h with heq | hrest
      · cases heq
        rw [List.lookup_cons, beq_self_eq_true]
      · have hne : key ≠ k :=
          (String.ne_of_lt (hsorted.1 key (List.mem_map_of_mem hrest))).symm
        rw [List.lookup_cons, beq_false_of_ne hne]
        exact ih hsorted.2 hrest

/-- A map is determined by what is found in it. -/
theorem ext_get? {m n : Keyed α} (h : ∀ key, m.get? key = n.get? key) : m = n := by
  have hm : m.entries.Pairwise fun x y ↦ x.1 < y.1 := List.pairwise_map.mp m.sorted
  have hn : n.entries.Pairwise fun x y ↦ x.1 < y.1 := List.pairwise_map.mp n.sorted
  apply ext_entries
  have : Std.Irrefl fun x y : String × α ↦ x.1 < y.1 := ⟨fun x ↦ String.lt_irrefl x.1⟩
  apply hm.eq_of_mem_iff hn
  intro e
  rw [← get?_eq_some_iff, ← get?_eq_some_iff, h]

end RemoteObjects.Keyed
