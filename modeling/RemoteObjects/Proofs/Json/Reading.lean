import RemoteObjects.Json.Decode
import RemoteObjects.Proofs.Json.Grammar
import RemoteObjects.Proofs.Json.Scanning
import RemoteObjects.Proofs.Keyed

/-!
# Written documents are read back

The tokens of a document are read as the document, and a decoder sees it as if it had never been
written, as long as its containers are not nested too deep for a text.
-/

namespace RemoteObjects.Json

open Draft

section

variable {ε α β : Type}

theorem bind_eq_ok_iff {x : Except ε α} {f : α → Except ε β} {b : β} :
    x >>= f = .ok b ↔ ∃ a, x = .ok a ∧ f a = .ok b := by
  cases x with
  | ok a => simp [bind, Except.bind]
  | error e => simp [bind, Except.bind]

theorem map_eq_ok_iff {x : Except ε α} {f : α → β} {b : β} :
    x.map f = .ok b ↔ ∃ a, x = .ok a ∧ f a = b := by
  cases x with
  | ok a => simp [Except.map]
  | error e => simp [Except.map]

end

/-! ## From tokens to drafts -/

namespace Draft

theorem closedItems_iff {items : List Draft} :
    closedItems items = true ↔ ∀ d ∈ items, d.closed = true := by
  induction items with
  | nil => simp [closedItems]
  | cons d rest ih => simp [closedItems, ih]

theorem closedMembers_iff {members : List (Option String × Draft)} :
    closedMembers members = true ↔ ∀ e ∈ members, e.2.closed = true := by
  induction members with
  | nil => simp [closedMembers]
  | cons e rest ih => simp [closedMembers, ih]

/-- No whole document begins like the end of an array. -/
theorem step_firstItem {d : Draft} (h : d.closed = true) (stack : List Open) :
    d.tokens.foldl Stage.step (.firstItem stack) =
      d.tokens.foldl Stage.step (.value (.array [] :: stack)) := by
  cases d with
  | cut => cases h
  | _ => rfl

theorem after_array (before : List Draft) (stack : List Open) (d : Draft) :
    Stage.after (.array before :: stack) d = .separator (.array (d :: before)) stack := rfl

theorem after_object (before : List (Option String × Draft)) (name : Option String)
    (stack : List Open) (d : Draft) :
    Stage.after (.object before name :: stack) d =
      .separator (.object ((name, d) :: before) none) stack := rfl

mutual

theorem read_tokens : ∀ (d : Draft) (stack : List Open), d.closed = true →
    d.tokens.foldl Stage.step (.value stack) = .after stack d
  | .null, _, _ | .bool _, _, _ | .number _, _, _ | .text _, _, _ | .array [], _, _
  | .object [], _, _ => rfl
  | .array (d :: rest), stack, h => by
      have hopen : Stage.step (.value stack) .openArray = .firstItem stack := rfl
      have hclose (items : List Draft) : Stage.step (.separator (.array items) stack) .closeArray =
          .after stack (.array items.reverse) := rfl
      obtain ⟨hd, hclosed⟩ := Bool.and_eq_true_iff.mp h
      have hfirst := read_tokens d (.array [] :: stack) hd
      have hrest := read_tokensItems rest [d] stack hclosed
      simp only [tokens, tokensItems, if_true, List.nil_append, List.cons_append, List.foldl_cons,
        List.foldl_append, List.foldl_nil]
      rw [hopen, step_firstItem hd, hfirst, after_array, hrest, hclose]
      simp
  | .object ((name, d) :: rest), stack, h => by
      have hopen : [Token.openObject, .text name, .colon].foldl Stage.step (.value stack) =
          .value (.object [] name :: stack) := rfl
      have hclose (members : List (Option String × Draft)) :
          Stage.step (.separator (.object members none) stack) .closeObject =
            .after stack (.object members.reverse) := rfl
      obtain ⟨hd, hclosed⟩ := Bool.and_eq_true_iff.mp h
      have hfirst := read_tokens d (.object [] name :: stack) hd
      have hrest := read_tokensMembers rest [(name, d)] stack hclosed
      simp only [List.foldl_cons, List.foldl_nil] at hopen
      simp only [tokens, tokensMembers, if_true, List.nil_append, List.cons_append,
        List.foldl_cons, List.foldl_append, List.foldl_nil]
      rw [hopen, hfirst, after_object, hrest, hclose]
      simp

theorem read_tokensItems : ∀ (items before : List Draft) (stack : List Open),
    closedItems items = true →
      (tokensItems false items).foldl Stage.step (.separator (.array before) stack) =
        .separator (.array (items.reverse ++ before)) stack
  | [], _, _, _ => rfl
  | d :: rest, before, stack, h => by
      have hcomma : Stage.step (.separator (.array before) stack) .comma =
          .value (.array before :: stack) := rfl
      obtain ⟨hd, hclosed⟩ := Bool.and_eq_true_iff.mp h
      have hfirst := read_tokens d (.array before :: stack) hd
      have hrest := read_tokensItems rest (d :: before) stack hclosed
      simp only [tokensItems, Bool.false_eq_true, if_false, List.cons_append, List.nil_append,
        List.foldl_cons, List.foldl_append]
      rw [hcomma, hfirst, after_array, hrest]
      simp

theorem read_tokensMembers : ∀ (members before : List (Option String × Draft))
    (stack : List Open), closedMembers members = true →
      (tokensMembers false members).foldl Stage.step (.separator (.object before none) stack) =
        .separator (.object (members.reverse ++ before) none) stack
  | [], _, _, _ => rfl
  | (name, d) :: rest, before, stack, h => by
      have hname : [Token.comma, .text name, .colon].foldl Stage.step
          (.separator (.object before none) stack) = .value (.object before name :: stack) := rfl
      obtain ⟨hd, hclosed⟩ := Bool.and_eq_true_iff.mp h
      have hfirst := read_tokens d (.object before name :: stack) hd
      have hrest := read_tokensMembers rest ((name, d) :: before) stack hclosed
      simp only [List.foldl_cons, List.foldl_nil] at hname
      simp only [tokensMembers, Bool.false_eq_true, if_false, List.cons_append, List.nil_append,
        List.foldl_cons, List.foldl_append]
      rw [hname, hfirst, after_object, hrest]
      simp

end

theorem ofTokens_tokens {d : Draft} (h : d.closed = true) : ofTokens d.tokens = (d, false) := by
  rw [ofTokens, read_tokens d [] h]
  rfl

mutual

theorem closed_ofTree : ∀ t : Tree, (ofTree t).closed = true
  | .null | .bool _ | .number _ | .text _ => rfl
  | .array items => closed_ofItems items
  | .object members => closed_ofMembers members

theorem closed_ofItems : ∀ items : List Tree, closedItems (ofItems items) = true
  | [] => rfl
  | t :: rest => Bool.and_eq_true_iff.mpr ⟨closed_ofTree t, closed_ofItems rest⟩

theorem closed_ofMembers : ∀ members : List (String × Tree),
    closedMembers (ofMembers members) = true
  | [] => rfl
  | (_, t) :: rest => Bool.and_eq_true_iff.mpr ⟨closed_ofTree t, closed_ofMembers rest⟩

end

end Draft

namespace Tree

mutual

theorem tokens_ofTree : ∀ t : Tree, (ofTree t).tokens = t.tokens
  | .null | .bool _ | .number _ | .text _ => rfl
  | .array items => by rw [ofTree, Draft.tokens, tokens, tokensItems_ofItems]
  | .object members => by rw [ofTree, Draft.tokens, tokens, tokensMembers_ofMembers]

theorem tokensItems_ofItems : ∀ (first : Bool) (items : List Tree),
    Draft.tokensItems first (ofItems items) = tokensItems first items
  | _, [] => rfl
  | first, t :: rest => by
      rw [ofItems, Draft.tokensItems, tokens_ofTree t, tokensItems_ofItems false rest, tokensItems]

theorem tokensMembers_ofMembers : ∀ (first : Bool) (members : List (String × Tree)),
    Draft.tokensMembers first (ofMembers members) = tokensMembers first members
  | _, [] => rfl
  | first, (name, t) :: rest => by
      rw [ofMembers, Draft.tokensMembers, tokens_ofTree t, tokensMembers_ofMembers false rest,
        tokensMembers]

end

theorem ofTokens_tokens (t : Tree) : ofTokens t.tokens = (.ofTree t, false) := by
  rw [← tokens_ofTree]
  exact Draft.ofTokens_tokens (closed_ofTree t)

end Tree

/-! ## From drafts to documents -/

/-- Whether so many nested containers may stand at a place. -/
def Place.Holds : Place → Nat → Prop
  | .text room, depth => depth ≤ room
  | _, _ => True

theorem Place.Holds.mono {place : Place} {n k : Nat} (h : place.Holds n) (hk : k ≤ n) :
    place.Holds k := by
  cases place with
  | text room => exact Nat.le_trans hk h
  | _ => trivial

theorem Place.Holds.enter {place : Place} {n : Nat} (h : place.Holds (n + 1)) :
    ∃ inner : Place, place.enter = .ok inner ∧ inner.Holds n := by
  cases place with
  | text room =>
      cases room with
      | zero => exact absurd h (Nat.not_succ_le_zero n)
      | succ room => exact ⟨.text room, rfl, Nat.le_of_succ_le_succ h⟩
  | buffer => exact ⟨.buffer, rfl, trivial⟩
  | value => exact ⟨.value, rfl, trivial⟩

theorem Place.Holds.zero {place : Place} : place.Holds 0 := by
  cases place with
  | text room => exact Nat.zero_le room
  | _ => trivial

theorem Place.Holds.of_enter {place inner : Place} {n : Nat} (henter : place.enter = .ok inner)
    (h : inner.Holds n) : place.Holds (n + 1) := by
  cases place with
  | text room =>
      cases room with
      | zero => cases henter
      | succ room =>
          cases henter
          exact Nat.succ_le_succ h
  | _ => trivial

theorem Place.Holds.max {place : Place} {n k : Nat} (hn : place.Holds n) (hk : place.Holds k) :
    place.Holds (max n k) := by
  cases place with
  | text room => exact Nat.max_le.mpr ⟨hn, hk⟩
  | _ => trivial

namespace Draft

theorem ofItems_eq_map (items : List Tree) : ofItems items = items.map ofTree := by
  induction items with
  | nil => rfl
  | cons t rest ih => rw [ofItems, ih, List.map_cons]

theorem ofMembers_eq_map (members : List (String × Tree)) :
    ofMembers members = members.map fun e ↦ (some e.1, ofTree e.2) := by
  induction members with
  | nil => rfl
  | cons e rest ih => rw [ofMembers, ih, List.map_cons]

mutual

theorem tree_ofTree : ∀ (t : Tree) {place : Place}, place.Holds t.depth →
    (ofTree t).tree place = .ok t
  | .null, _, _ | .bool _, _, _ | .number _, _, _ | .text _, _, _ => rfl
  | .array items, place, h => by
      obtain ⟨inner, henter, hinner⟩ := Place.Holds.enter h
      rw [ofTree, Draft.tree, henter]
      simp only [bind, Except.bind, treeItems_ofItems items hinner]
      rfl
  | .object members, place, h => by
      obtain ⟨inner, henter, hinner⟩ := Place.Holds.enter h
      rw [ofTree, Draft.tree, henter]
      simp only [bind, Except.bind, treeMembers_ofMembers members hinner]
      rfl

theorem treeItems_ofItems : ∀ (items : List Tree) {place : Place},
    place.Holds (Tree.depthItems items) → treeItems place (ofItems items) = .ok items
  | [], _, _ => rfl
  | t :: rest, place, h => by
      have ht := tree_ofTree t (h.mono (Nat.le_max_left _ _))
      have hrest := treeItems_ofItems rest (h.mono (Nat.le_max_right _ _))
      rw [ofItems, treeItems, ht, hrest]
      rfl

theorem treeMembers_ofMembers : ∀ (members : List (String × Tree)) {place : Place},
    place.Holds (Tree.depthMembers members) → treeMembers place (ofMembers members) = .ok members
  | [], _, _ => rfl
  | (name, t) :: rest, place, h => by
      have ht := tree_ofTree t (h.mono (Nat.le_max_left _ _))
      have hrest := treeMembers_ofMembers rest (h.mono (Nat.le_max_right _ _))
      rw [ofMembers, treeMembers, ht, hrest]
      rfl

end

mutual

theorem eq_ofTree_of_tree : ∀ {d : Draft} {place : Place} {t : Tree}, d.tree place = .ok t →
    d = ofTree t ∧ place.Holds t.depth
  | .null, _, _, h | .bool _, _, _, h | .number (some _), _, _, h | .text (some _), _, _, h => by
      cases h
      exact ⟨rfl, .zero⟩
  | .number none, _, _, h | .text none, _, _, h | .cut, _, _, h => by cases h
  | .array items, place, _, h => by
      simp only [Draft.tree, bind_eq_ok_iff] at h
      obtain ⟨inner, henter, trees, htrees, h⟩ := h
      obtain ⟨rfl, hholds⟩ := eq_ofItems_of_treeItems htrees
      cases h
      exact ⟨rfl, .of_enter henter hholds⟩
  | .object members, place, _, h => by
      simp only [Draft.tree, bind_eq_ok_iff] at h
      obtain ⟨inner, henter, trees, htrees, h⟩ := h
      obtain ⟨rfl, hholds⟩ := eq_ofMembers_of_treeMembers htrees
      cases h
      exact ⟨rfl, .of_enter henter hholds⟩

theorem eq_ofItems_of_treeItems : ∀ {items : List Draft} {place : Place} {trees : List Tree},
    treeItems place items = .ok trees →
      items = ofItems trees ∧ place.Holds (Tree.depthItems trees)
  | [], _, _, h => by
      cases h
      exact ⟨rfl, .zero⟩
  | d :: rest, place, _, h => by
      simp only [treeItems, bind_eq_ok_iff] at h
      obtain ⟨t, ht, trees, htrees, h⟩ := h
      obtain ⟨rfl, hfirst⟩ := eq_ofTree_of_tree ht
      obtain ⟨rfl, hrest⟩ := eq_ofItems_of_treeItems htrees
      cases h
      exact ⟨rfl, hfirst.max hrest⟩

theorem eq_ofMembers_of_treeMembers : ∀ {members : List (Option String × Draft)} {place : Place}
    {trees : List (String × Tree)}, treeMembers place members = .ok trees →
      members = ofMembers trees ∧ place.Holds (Tree.depthMembers trees)
  | [], _, _, h => by
      cases h
      exact ⟨rfl, .zero⟩
  | (none, _) :: _, _, _, h => by
      rw [treeMembers] at h
      cases h
  | (some name, d) :: rest, place, _, h => by
      simp only [treeMembers, bind_eq_ok_iff] at h
      obtain ⟨t, ht, trees, htrees, h⟩ := h
      obtain ⟨rfl, hfirst⟩ := eq_ofTree_of_tree ht
      obtain ⟨rfl, hrest⟩ := eq_ofMembers_of_treeMembers htrees
      cases h
      exact ⟨rfl, hfirst.max hrest⟩

end

/-- A draft holds a whole document just if it is that of the document, not nested too deep. -/
theorem tree_eq_ok_iff {d : Draft} {place : Place} {t : Tree} :
    d.tree place = .ok t ↔ d = ofTree t ∧ place.Holds t.depth := by
  constructor
  · exact eq_ofTree_of_tree
  · rintro ⟨rfl, hholds⟩
    exact tree_ofTree t hholds

end Draft

namespace Tree

mutual

theorem Canonical.canonical_eq : ∀ {t : Tree}, t.Canonical → t.canonical = t
  | .null, _ | .bool _, _ | .number _, _ | .text _, _ => rfl
  | .array items, h => congrArg Tree.array (canonicalItems_eq h)
  | .object members, h => by
      rw [canonical, canonicalMembers_eq h.2, Keyed.entries_ofList h.1]

theorem canonicalItems_eq : ∀ {items : List Tree}, CanonicalItems items →
    canonicalItems items = items
  | [], _ => rfl
  | t :: rest, h => by rw [canonicalItems, Canonical.canonical_eq h.1, canonicalItems_eq h.2]

theorem canonicalMembers_eq : ∀ {members : List (String × Tree)}, CanonicalMembers members →
    canonicalMembers members = members
  | [], _ => rfl
  | (name, t) :: rest, h => by
      rw [canonicalMembers, Canonical.canonical_eq h.1, canonicalMembers_eq h.2]

end

end Tree

@[simp] theorem Value.ofTree_tree (v : Value) : Value.ofTree v.tree = v :=
  Subtype.ext v.property.canonical_eq

namespace Decoder

theorem value_ofTree (v : Value) {place : Place} (h : place.Holds v.tree.depth) :
    value place (.ofTree v.tree) = .ok v := by
  rw [value, Draft.tree_ofTree v.tree h]
  exact congrArg Except.ok v.ofTree_tree

end Decoder

end RemoteObjects.Json
