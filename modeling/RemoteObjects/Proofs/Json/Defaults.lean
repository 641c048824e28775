import RemoteObjects.Proofs.Json.Schema
import RemoteObjects.Proofs.Wire.Forwarding

/-!
# Fields that are left out

A record is read from its own document also if some members are left out and the others stand in
another order.  A field that may be missing has its default if it is left out, and otherwise what
was written for it.
-/

namespace RemoteObjects.Json

/-! ## Documents without some members -/

/-- Whether `u` is the object `t` without the members of some names, the others in any order. -/
def Tree.Without (t : Tree) (out : List String) (u : Tree) : Prop :=
  ∃ members kept : List (String × Tree), t = .object members ∧ u = .object kept ∧
    kept.Perm (members.filter (·.1 ∉ out))

theorem Tree.without_nil (members : List (String × Tree)) :
    (Tree.object members).Without [] (.object members) :=
  ⟨members, members, rfl, rfl, by simp⟩

section

variable {members kept : List (String × Tree)} {out : List String}

theorem nodup_kept (hkept : kept.Perm (members.filter (·.1 ∉ out)))
    (hnames : (members.map Prod.fst).Nodup) : (kept.map Prod.fst).Nodup := by
  rw [(hkept.map Prod.fst).nodup_iff]
  exact hnames.sublist (List.filter_sublist.map Prod.fst)

theorem lookup_without (hkept : kept.Perm (members.filter (·.1 ∉ out)))
    (hnames : (members.map Prod.fst).Nodup) (name : String) :
    kept.lookup name = if name ∈ out then none else members.lookup name := by
  rw [lookup_eq_of_perm hkept (nodup_kept hkept hnames)]
  split
  · next hout =>
      apply Keyed.lookup_eq_none_iff.mpr
      rintro e he rfl
      have hkeep : e.1 ∉ out := by simpa using (List.mem_filter.mp he).2
      exact hkeep hout
  · next hout => exact lookup_filter fun _ ↦ by simpa using hout

theorem depthMembers_kept_le (hkept : kept.Perm (members.filter (·.1 ∉ out))) :
    Tree.depthMembers kept ≤ Tree.depthMembers members := by
  rw [Tree.depthMembers_le_iff]
  intro e he
  apply Tree.depthMembers_le_iff.mp (Nat.le_refl (Tree.depthMembers members))
  exact List.mem_of_mem_filter (hkept.mem_iff.mp he)

end

/-- A field that may be missing is read from what was written for it, unless it is left out. -/
theorem Field.takes_without {α : Type} {members kept : List (String × Tree)} {out : List String}
    {name : String} {decode : Decoder α} {place : Place} {t : Tree} {a : α} (absent : α)
    (hkept : kept.lookup name = if name ∈ out then none else members.lookup name)
    (ht : members.lookup name = some t) (ha : decode place (.ofTree t) = .ok a) :
    (Field.optional name decode absent).Takes place (Draft.ofMembers kept)
      (if name ∈ out then absent else a) := by
  rw [Field.Takes, Field.optional, Draft.lookup_ofMembers, hkept]
  by_cases hout : name ∈ out
  · simp only [if_pos hout, Option.map_none]
  · simpa only [if_neg hout, ht, Option.map_some] using ha

/-- A tagged record is read from the fields that are there, as long as its tag is. -/
theorem Tagged.decode_without {α β : Type} (t : Tagged α) {place inner : Place}
    (henter : place.enter = .ok inner) {members kept : List (String × Tree)} {out : List String}
    (hkept : kept.Perm (members.filter (·.1 ∉ out))) (hnames : (members.map Prod.fst).Nodup)
    (hdepth : inner.Holds (Tree.depthMembers members)) (hout : t.tag ∉ out) {name : String}
    (htag : members.lookup t.tag = some (.text name)) {r : Record β} {wrap : β → α}
    (hfind : t.variants.find? (·.name = name) = some (.record name r wrap)) {b : β}
    (hfields : ∀ others : List (String × Tree), (∀ field ≠ t.tag,
      others.lookup field = if field ∈ out then none else members.lookup field) →
        r.fields.ofMembers .buffer (Draft.ofMembers others) r.make = .ok b) :
    t.decode place (.ofTree (.object kept)) = .ok (wrap b) := by
  have hlookup := lookup_without hkept hnames
  have hkeptNames := nodup_kept hkept hnames
  rw [t.decode_eq_ok_iff henter hkeptNames (hdepth.mono (depthMembers_kept_le hkept))]
  refine ⟨name, _, ?_, hfind, ?_⟩
  · rw [hlookup, if_neg hout, htag]
  · apply map_eq_ok_iff.mpr
    refine ⟨b, (r.decode_ofMembers Place.enter_buffer (nodup_filter hkeptNames _)).mpr ?_, rfl⟩
    apply hfields
    intro field hfield
    rw [← hlookup, lookup_filter fun _ ↦ by simpa using hfield]

theorem Tagged.mem_of_variant {α : Type} (t : Tagged α) {d : Draft} {v : Variant α}
    (h : t.variant d = .ok v) : v ∈ t.variants := by
  unfold variant at h
  split at h
  · split at h
    · next hfind =>
        cases h
        exact List.mem_of_find?_eq_some hfind
    · cases h
  · exact absurd h Decoder.mismatch_ne_ok

theorem Tagged.mem_of_gather {α : Type} (t : Tagged α) {place : Place} {found : Option (Variant α)}
    {members : List (Option String × Draft)} {v : Variant α} {others : List (String × Tree)}
    (hfound : ∀ w, found = some w → w ∈ t.variants)
    (h : t.gather place found members = .ok (some v, others)) : v ∈ t.variants := by
  induction members generalizing found others with
  | nil =>
      cases h
      exact hfound v rfl
  | cons m rest ih =>
      obtain ⟨_ | name, d⟩ := m
      · cases h
      · unfold gather at h
        split at h
        · cases found with
          | some w => cases h
          | none =>
              obtain ⟨w, hw, h⟩ := bind_eq_ok_iff.mp h
              refine ih ?_ h
              rintro _ ⟨⟩
              exact t.mem_of_variant hw
        · obtain ⟨_, -, h⟩ := bind_eq_ok_iff.mp h
          obtain ⟨⟨_, _⟩, hrest, h⟩ := bind_eq_ok_iff.mp h
          cases h
          exact ih hfound hrest

/-- Whatever a tagged record is read as, one of its variants is read. -/
theorem Tagged.exists_variant_of_decode {α : Type} (t : Tagged α) {place : Place} {d : Draft}
    {a : α} (h : t.decode place d = .ok a) : ∃ v ∈ t.variants, ∃ e, v.decode .buffer e = .ok a := by
  cases d with
  | object members =>
      simp only [decode, bind_eq_ok_iff] at h
      obtain ⟨inner, -, ⟨found, others⟩, hgather, h⟩ := h
      cases found with
      | none => cases h
      | some v => exact ⟨v, t.mem_of_gather (by simp) hgather, _, h⟩
  | array items =>
      simp only [decode, bind_eq_ok_iff] at h
      obtain ⟨inner, -, h⟩ := h
      cases items with
      | nil => cases h
      | cons first rest =>
          simp only [bind_eq_ok_iff] at h
          obtain ⟨v, hv, _, -, h⟩ := h
          exact ⟨v, t.mem_of_variant hv, _, h⟩
  | _ => exact absurd h Decoder.mismatch_ne_ok

/-! ## Data read from its own document -/

theorem Tree.spelledBy_write {t : Tree} (h : t.ReadsBack) :
    (Draft.ofTree t).SpelledBy (charsOf t.write) := by
  rw [Draft.spelledBy_iff, Tree.scan_write h]
  exact ⟨Draft.closed_ofTree t, t.ofTokens_tokens⟩

namespace Decoder

variable {α : Type}

theorem uint32_ofTree (place : Place) (n : UInt32) :
    uint32 place (.ofTree (.number (.natural n.toUInt64))) = .ok n := by
  have hrange : (n.toUInt64.toNat : Int) ≤ UInt32.size - 1 := by
    have hn := n.toNat_lt
    have hsize : UInt32.size = 2 ^ 32 := rfl
    rw [UInt32.toNat_toUInt64]
    omega
  rw [uint32, map, integer_ofTree hrange]
  simp [Except.map]

theorem toNat_le_size (n : UInt64) : (n.toNat : Int) ≤ UInt64.size - 1 := by
  have hn := n.toNat_lt
  have hsize : UInt64.size = 2 ^ 64 := rfl
  omega

theorem uint64_ofTree (place : Place) (n : UInt64) :
    uint64 place (.ofTree (.number (.natural n))) = .ok n := by
  rw [uint64, map, integer_ofTree (toNat_le_size n)]
  simp [Except.map]

theorem size_ofTree (place : Place) (n : UInt64) :
    size place (.ofTree (.number (.natural n))) = .ok n := by
  rw [size, map, integer_ofTree (toNat_le_size n)]
  simp [Except.map]

theorem option_some {decode : Decoder α} {place : Place} {d : Draft} {a : α} (hnull : d ≠ .null)
    (ha : decode place d = .ok a) : option decode place d = .ok (some a) := by
  unfold option
  split
  · exact absurd rfl hnull
  · rw [ha]
    rfl

theorem of_option_some {decode : Decoder α} {place : Place} {d : Draft} {a : α}
    (h : option decode place d = .ok (some a)) : decode place d = .ok a := by
  unfold option at h
  split at h
  · cases h
  · obtain ⟨_, ha, ⟨⟩⟩ := map_eq_ok_iff.mp h
    exact ha

end Decoder

end RemoteObjects.Json
