import RemoteObjects.Proofs.Json.Schema

/-!
# Reading by way of a value

A record can be read straight from a text, or the text is made a value first and the record is read
from that.  In a value the members are sorted, and only the last of several with one name is left.
A tagged record that asks for nothing but texts and numbers is read the same way on both roads, as
long as no name stands twice among its own members.
-/

namespace RemoteObjects.Json

/-! ## What a field may be stays as it is -/

theorem Tree.canonicalMembers_eq_map (members : List (String × Tree)) :
    canonicalMembers members = members.map fun e ↦ (e.1, e.2.canonical) := by
  induction members with
  | nil => rfl
  | cons e rest ih => rw [canonicalMembers, ih, List.map_cons]

theorem Tree.canonicalItems_eq_of_numbers {items : List Tree}
    (h : ∀ i ∈ canonicalItems items, ∃ n, i = .number n) : canonicalItems items = items := by
  induction items with
  | nil => rfl
  | cons t rest ih =>
      rw [canonicalItems, List.forall_mem_cons] at h
      obtain ⟨⟨n, hn⟩, hrest⟩ := h
      have ht : t.canonical = t := by
        cases t with
        | array items => cases hn
        | object members => cases hn
        | _ => rfl
      rw [canonicalItems, ht, ih hrest]

theorem Shape.canonical_eq {shape : Shape} {t : Tree} (h : shape.Fits t.canonical) :
    t.canonical = t := by
  cases t with
  | array items =>
      cases shape with
      | bytes =>
          obtain ⟨_, ⟨⟩, hitems⟩ := h
          refine congrArg Tree.array (Tree.canonicalItems_eq_of_numbers fun i hi ↦ ?_)
          obtain ⟨n, hn, -⟩ := hitems i hi
          exact ⟨_, hn⟩
      | text =>
          obtain ⟨_, ⟨⟩⟩ := h
      | count =>
          obtain ⟨_, ⟨⟩, -⟩ := h
      | number =>
          obtain ⟨_, ⟨⟩⟩ := h
  | object members => cases shape <;> simp [Shape.Fits, Tree.canonical] at h
  | _ => rfl

theorem Shape.canonical_of_fits {shape : Shape} {t : Tree} (h : shape.Fits t) : t.Canonical := by
  cases shape with
  | text =>
      obtain ⟨_, rfl⟩ := h
      trivial
  | bytes =>
      obtain ⟨items, rfl, hitems⟩ := h
      apply Tree.canonicalItems_iff.mpr
      intro i hi
      obtain ⟨_, rfl, -⟩ := hitems i hi
      trivial
  | count =>
      obtain ⟨_, rfl, -⟩ := h
      trivial
  | number =>
      obtain ⟨_, rfl⟩ := h
      trivial

/-- What fits is left alone by the canonical form, and nothing comes to fit by it. -/
theorem Shape.canonical_eq_or (shape : Shape) (t : Tree) :
    t.canonical = t ∨ ¬shape.Fits t.canonical ∧ ¬shape.Fits t := by
  by_cases h : shape.Fits t.canonical
  · exact .inl (canonical_eq h)
  · by_cases ht : shape.Fits t
    · exact .inl (canonical_of_fits ht).canonical_eq
    · exact .inr ⟨h, ht⟩

theorem Field.Follows.decode_canonical {α : Type} {field : Field α} {e : Entry}
    (h : field.Follows e) (t : Tree) (a : α) :
    field.decode .buffer (.ofTree t.canonical) = .ok a ↔
      field.decode .buffer (.ofTree t) = .ok a := by
  rcases e.shape.canonical_eq_or t with ht | ⟨hcanonical, ht⟩
  · rw [ht]
  · apply iff_of_false
    · exact fun ha ↦ hcanonical ((h.decode_iff _).mp ⟨a, ha⟩)
    · exact fun ha ↦ ht ((h.decode_iff _).mp ⟨a, ha⟩)

/-! ## Records -/

namespace Fields

variable {β γ : Type} {fields : Fields β γ} {entries : List Entry}

theorem Follow.ofMembers_canonical (h : fields.Follow entries)
    {members others : List (String × Tree)}
    (hlookup : ∀ e ∈ entries, others.lookup e.name = (members.lookup e.name).map Tree.canonical)
    (make : γ) (b : β) :
    fields.ofMembers .buffer (Draft.ofMembers others) make = .ok b ↔
      fields.ofMembers .buffer (Draft.ofMembers members) make = .ok b := by
  induction h with
  | done => rfl
  | @field _ _ first _ e _ hfirst _ ih =>
      obtain ⟨hname, hrest⟩ := List.forall_mem_cons.mp hlookup
      simp only [ofMembers_eq_ok_iff, ih hrest]
      refine exists_congr fun a ↦ and_congr_left fun _ ↦ ?_
      rw [Field.Takes, Field.Takes, Draft.lookup_ofMembers, Draft.lookup_ofMembers,
        hfirst.name_eq, hname]
      cases members.lookup e.name with
      | none => exact Iff.rfl
      | some t => exact hfirst.decode_canonical t a

theorem Follow.ofItems_canonical (h : fields.Follow entries) (tooShort : Nat → Cause) (taken : Nat)
    (make : γ) (items : List Tree) (b : β) :
    fields.ofItems .buffer tooShort taken make (Draft.ofItems (Tree.canonicalItems items)) =
        .ok (b, []) ↔
      fields.ofItems .buffer tooShort taken make (Draft.ofItems items) = .ok (b, []) := by
  induction h generalizing taken items with
  | done =>
      cases items with
      | nil => rfl
      | cons t rest => simp [ofItems, Draft.ofItems, Tree.canonicalItems]
  | @field _ _ first _ e _ hfirst _ ih =>
      cases items with
      | nil => rfl
      | cons t rest =>
          simp only [Tree.canonicalItems, Draft.ofItems, ofItems, bind_eq_ok_iff, ih,
            hfirst.decode_canonical]

end Fields

theorem Record.decode_array_eq_ok_iff {β : Type} (r : Record β) {place inner : Place}
    (henter : place.enter = .ok inner) {items : List Draft} {b : β} :
    r.decode place (.array items) = .ok b ↔
      r.fields.ofItems inner (fun taken ↦ .invalidLength taken (.fields r.title r.fields.count)) 0
        r.make items = .ok (b, []) := by
  simp only [Record.decode, henter, bind_eq_ok_iff, Except.ok.injEq, exists_eq_left', Prod.exists]
  constructor
  · rintro ⟨made, rest, hitems, h⟩
    cases rest with
    | nil =>
        cases h
        exact hitems
    | cons d rest => cases h
  · intro h
    exact ⟨b, [], h, rfl⟩

/-! ## Tagged records -/

/-- Whether a variant is read as well from what the canonical form leaves of its fields. -/
structure Variant.Settled {α : Type} (v : Variant α) : Prop where
  object {members others : List (String × Tree)} : (members.map Prod.fst).Nodup →
    (others.map Prod.fst).Nodup →
      (∀ name, others.lookup name = (members.lookup name).map Tree.canonical) →
        ∀ a, v.decode .buffer (.ofTree (.object others)) = .ok a ↔
          v.decode .buffer (.ofTree (.object members)) = .ok a
  array (items : List Tree) (a : α) :
    v.decode .buffer (.ofTree (.array (Tree.canonicalItems items))) = .ok a ↔
      v.decode .buffer (.ofTree (.array items)) = .ok a

theorem Variant.Settled.record {α β : Type} {name : String} {r : Record β} {wrap : β → α}
    {entries : List Entry} (h : r.fields.Follow entries) : (record name r wrap).Settled where
  object hnames hothers hlookup a := by
    simp only [Variant.record, Decoder.map, map_eq_ok_iff,
      r.decode_ofMembers Place.enter_buffer hnames,
      r.decode_ofMembers Place.enter_buffer hothers,
      h.ofMembers_canonical fun e _ ↦ hlookup e.name]
  array items a := by
    simp only [Variant.record, Decoder.map, map_eq_ok_iff, Draft.ofTree,
      r.decode_array_eq_ok_iff Place.enter_buffer, h.ofItems_canonical]

/-- The members of a value, by the members of the document it was made of. -/
theorem lookup_canonicalMembers {members : List (String × Tree)}
    (hnames : (members.map Prod.fst).Nodup) (name : String) :
    (Keyed.ofList (Tree.canonicalMembers members)).entries.lookup name =
      (members.lookup name).map Tree.canonical := by
  have hreverse : (members.reverse.map Prod.fst).Nodup := by
    rwa [List.map_reverse, List.nodup_reverse]
  have hget := Keyed.get?_ofList (Tree.canonicalMembers members) name
  rw [Keyed.get?] at hget
  rw [hget, Tree.canonicalMembers_eq_map, ← List.map_reverse,
    ← lookup_eq_of_perm (List.reverse_perm members) hreverse]
  generalize members.reverse = others
  induction others with
  | nil => rfl
  | cons e rest ih =>
      obtain ⟨key, t⟩ := e
      rw [List.map_cons, Keyed.lookup_cons_eq_ite, Keyed.lookup_cons_eq_ite, ih]
      split <;> rfl

theorem nodup_canonicalMembers (members : List (String × Tree)) :
    ((Keyed.ofList (Tree.canonicalMembers members)).entries.map Prod.fst).Nodup :=
  (Keyed.sorted _).imp fun h ↦ String.ne_of_lt h

namespace Tagged

variable {α : Type} {t : Tagged α}

theorem decode_array_eq_ok_iff {place inner : Place} (henter : place.enter = .ok inner)
    {first : Tree} {rest : List Tree} (hdepth : inner.Holds (Tree.depthItems rest)) {a : α} :
    t.decode place (.ofTree (.array (first :: rest))) = .ok a ↔
      ∃ name v, first = .text name ∧ t.variants.find? (·.name = name) = some v ∧
        v.decode .buffer (.ofTree (.array rest)) = .ok a := by
  rw [Draft.ofTree, Draft.ofItems, decode, henter]
  simp only [bind_eq_ok_iff, Except.ok.injEq, exists_eq_left', t.variant_ofTree_iff,
    Draft.treeItems_ofItems rest hdepth, Draft.ofTree]
  constructor
  · rintro ⟨v, ⟨name, hname, hv⟩, ha⟩
    exact ⟨name, v, hname, hv, ha⟩
  · rintro ⟨name, v, hname, hv, ha⟩
    exact ⟨v, ⟨name, hname, hv⟩, ha⟩

theorem canonical_eq_text_iff {t : Tree} {s : String} : t.canonical = .text s ↔ t = .text s := by
  cases t <;> simp [Tree.canonical]

theorem decode_canonical (hvariants : ∀ v ∈ t.variants, v.Settled) {place : Place} {u : Tree}
    (hdepth : place.Holds u.depth)
    (hnames : ∀ members, u = .object members → (members.map Prod.fst).Nodup) (a : α) :
    t.decode .value (.ofTree u.canonical) = .ok a ↔ t.decode place (.ofTree u) = .ok a := by
  have hvalue : Place.enter .value = .ok .value := rfl
  cases u with
  | object members =>
      obtain ⟨inner, henter, hinner⟩ := Place.Holds.enter hdepth
      have hnodup := hnames members rfl
      have hlookup := lookup_canonicalMembers hnodup
      rw [Tree.canonical, t.decode_eq_ok_iff hvalue (nodup_canonicalMembers members) trivial,
        t.decode_eq_ok_iff henter hnodup hinner]
      refine exists_congr fun name ↦ exists_congr fun v ↦ and_congr ?_ (and_congr_right ?_)
      · rw [hlookup, Option.map_eq_some_iff]
        simp only [canonical_eq_text_iff, exists_eq_right]
      · -- The tag is taken out on both roads; every other field is looked up by its name.
        intro hv
        apply (hvariants v (List.mem_of_find?_eq_some hv)).object (nodup_filter hnodup _)
          (nodup_filter (nodup_canonicalMembers members) _)
        intro field
        by_cases hfield : field = t.tag
        · have hnone (l : List (String × Tree)) :
              (l.filter (·.1 ≠ t.tag)).lookup field = none := by
            apply Keyed.lookup_eq_none_iff.mpr
            intro e he
            rw [hfield]
            simpa using (List.mem_filter.mp he).2
          rw [hnone, hnone]
          rfl
        · rw [lookup_filter fun _ ↦ by simpa using hfield,
            lookup_filter fun _ ↦ by simpa using hfield, hlookup]
  | array items =>
      obtain ⟨inner, henter, hinner⟩ := Place.Holds.enter hdepth
      cases items with
      | nil =>
          rw [Tree.canonical, Tree.canonicalItems, Draft.ofTree, Draft.ofItems, decode, decode,
            henter]
          rfl
      | cons first rest =>
          have hrest : inner.Holds (Tree.depthItems rest) := hinner.mono (Nat.le_max_right _ _)
          rw [Tree.canonical, Tree.canonicalItems, decode_array_eq_ok_iff hvalue trivial,
            decode_array_eq_ok_iff henter hrest]
          refine exists_congr fun name ↦ exists_congr fun v ↦ and_congr canonical_eq_text_iff
            (and_congr_right fun hv ↦ ?_)
          exact (hvariants v (List.mem_of_find?_eq_some hv)).array rest a
  | _ => exact iff_of_false Decoder.mismatch_ne_ok Decoder.mismatch_ne_ok

theorem eq_text_of_variant {d : Draft} {v : Variant α} (h : t.variant d = .ok v) :
    ∃ name, d = .ofTree (.text name) := by
  unfold variant at h
  split at h
  · next name => exact ⟨name, rfl⟩
  · exact absurd h Decoder.mismatch_ne_ok

theorem eq_ofMembers_of_gather {place : Place} {found found' : Option (Variant α)}
    {members : List (Option String × Draft)} {others : List (String × Tree)}
    (h : t.gather place found members = .ok (found', others)) :
    ∃ trees, members = Draft.ofMembers trees ∧ place.Holds (Tree.depthMembers trees) := by
  induction members generalizing found found' others with
  | nil => exact ⟨[], rfl, .zero⟩
  | cons m rest ih =>
      obtain ⟨_ | name, d⟩ := m
      · cases h
      · unfold gather at h
        split at h
        · cases found with
          | some w => cases h
          | none =>
              obtain ⟨w, hw, hrest⟩ := bind_eq_ok_iff.mp h
              obtain ⟨trees, rfl, hdepth⟩ := ih hrest
              obtain ⟨tag, rfl⟩ := eq_text_of_variant hw
              exact ⟨(name, .text tag) :: trees, rfl, Place.Holds.zero.max hdepth⟩
        · obtain ⟨tree, htree, hothers⟩ := bind_eq_ok_iff.mp h
          obtain ⟨⟨_, _⟩, hrest, -⟩ := bind_eq_ok_iff.mp hothers
          obtain ⟨rfl, hfirst⟩ := Draft.eq_ofTree_of_tree htree
          obtain ⟨trees, rfl, hdepth⟩ := ih hrest
          exact ⟨(name, tree) :: trees, rfl, hfirst.max hdepth⟩

/-- A tagged record is read from whole documents only, and not from those nested too deep. -/
theorem eq_ofTree_of_decode {place : Place} {d : Draft} {a : α} (h : t.decode place d = .ok a) :
    ∃ u, d = .ofTree u ∧ place.Holds u.depth := by
  cases d with
  | object members =>
      simp only [decode, bind_eq_ok_iff] at h
      obtain ⟨inner, henter, ⟨found, others⟩, hgather, -⟩ := h
      obtain ⟨trees, rfl, hdepth⟩ := eq_ofMembers_of_gather hgather
      exact ⟨.object trees, rfl, .of_enter henter hdepth⟩
  | array items =>
      simp only [decode, bind_eq_ok_iff] at h
      obtain ⟨inner, henter, h⟩ := h
      cases items with
      | nil => cases h
      | cons first rest =>
          simp only [bind_eq_ok_iff] at h
          obtain ⟨v, hv, trees, htrees, -⟩ := h
          obtain ⟨name, rfl⟩ := eq_text_of_variant hv
          obtain ⟨rfl, hdepth⟩ := Draft.eq_ofItems_of_treeItems htrees
          exact ⟨.array (.text name :: trees), rfl, .of_enter henter (Place.Holds.zero.max hdepth)⟩
  | _ => exact absurd h Decoder.mismatch_ne_ok

/-- Straight from a text and by way of its value the same is read. -/
theorem read_eq_ok_iff_value (hvariants : ∀ v ∈ t.variants, v.Settled) {text : List (Option Char)}
    (hnames : ∀ members, (Draft.ofTree (.object members)).SpelledBy text →
      (members.map Prod.fst).Nodup) {a : α} :
    read t.decode text = .ok a ↔
      ∃ v, read Decoder.value text = .ok v ∧ v.decode t.decode = .ok a := by
  have hwhole : Decoder.Whole t.decode := by
    intro d b hd
    obtain ⟨u, rfl, -⟩ := eq_ofTree_of_decode hd
    exact Draft.closed_ofTree u
  have hvalue : Decoder.Whole Decoder.value := by
    intro d v hd
    obtain ⟨u, rfl, -⟩ := Decoder.value_eq_ok_iff.mp hd
    exact Draft.closed_ofTree u
  have hsame {u : Tree} (hu : (Draft.ofTree u).SpelledBy text)
      (hdepth : (Place.text nestingLimit).Holds u.depth) :
      (Value.ofTree u).decode t.decode = .ok a ↔
        t.decode (.text nestingLimit) (.ofTree u) = .ok a := by
    apply decode_canonical hvariants hdepth
    rintro members rfl
    exact hnames members hu
  rw [read_eq_ok_iff hwhole]
  constructor
  · rintro ⟨d, hd, ha⟩
    obtain ⟨u, rfl, hdepth⟩ := eq_ofTree_of_decode ha
    refine ⟨.ofTree u, ?_, (hsame hd hdepth).mpr ha⟩
    rw [read_of_spelledBy hd]
    exact Decoder.value_eq_ok_iff.mpr ⟨u, rfl, hdepth, rfl⟩
  · rintro ⟨v, hv, ha⟩
    obtain ⟨d, hd, hv⟩ := (read_eq_ok_iff hvalue).mp hv
    obtain ⟨u, rfl, hdepth, rfl⟩ := Decoder.value_eq_ok_iff.mp hv
    exact ⟨_, hd, (hsame hd hdepth).mp ha⟩

end Tagged

end RemoteObjects.Json
