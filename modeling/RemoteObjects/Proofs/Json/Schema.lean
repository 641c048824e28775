import Mathlib.Data.List.Nodup
import RemoteObjects.Proofs.Json.Records

/-!
# Tagged records without an order

A schema says of each variant of a tagged record which fields it has, what they have to be and which
of them may be missing.  A tagged record that follows a schema is read from the members that the
schema asks for, wherever they stand and whatever stands between them.
-/

namespace RemoteObjects.Json

/-! ## Schemas -/

/-- What a field has to be. -/
inductive Shape where
  | text
  /-- An array of integers from 0 to 255. -/
  | bytes
  /-- An integer of 32 bits without a sign. -/
  | count
  | number

def Shape.Fits : Shape → Tree → Prop
  | .text, t => ∃ s, t = .text s
  | .bytes, t => ∃ items, t = .array items ∧
      ∀ i ∈ items, ∃ n : UInt64, i = .number (.natural n) ∧ n.toNat ≤ 255
  | .count, t => ∃ n : UInt64, t = .number (.natural n) ∧ n.toNat < UInt32.size
  | .number, t => ∃ n, t = .number n

structure Entry where
  name : String
  shape : Shape
  required : Bool

/-- Whether members have what an entry asks for. -/
def Entry.MetBy (e : Entry) (members : List (String × Tree)) : Prop :=
  match members.lookup e.name with
  | some t => e.shape.Fits t
  | none => e.required = false

/-- The fields of each variant, by the names of the variants. -/
abbrev Schema : Type := List (String × List Entry)

namespace Schema

variable (schema : Schema) (tag : String)

/-- The fields of the variant that the tag among some members names. -/
def entries? (members : List (String × Tree)) : Option (List Entry) :=
  match members.lookup tag with
  | some (.text name) => schema.lookup name
  | _ => none

/-- Whether a name says nothing to the variant that the tag among some members names. -/
def Ignores (members : List (String × Tree)) (name : String) : Prop :=
  name ≠ tag ∧ ∀ entries, schema.entries? tag members = some entries → ∀ e ∈ entries, e.name ≠ name

/-- Whether the tag is missing or names no variant, or a required field is missing, or a field that
is there is not what it has to be. -/
def Refuses (members : List (String × Tree)) : Prop :=
  schema.entries? tag members = none ∨
    ∃ entries e, schema.entries? tag members = some entries ∧ e ∈ entries ∧
      (e.required = true ∧ members.lookup e.name = none ∨
        ∃ t, members.lookup e.name = some t ∧ ¬e.shape.Fits t)

theorem not_refuses_iff {members : List (String × Tree)} : ¬schema.Refuses tag members ↔
    ∃ entries, schema.entries? tag members = some entries ∧ ∀ e ∈ entries, e.MetBy members := by
  have hentry (e : Entry) : e.MetBy members ↔ ¬(e.required = true ∧ members.lookup e.name = none ∨
      ∃ t, members.lookup e.name = some t ∧ ¬e.shape.Fits t) := by
    rw [Entry.MetBy]
    cases members.lookup e.name with
    | none => simp
    | some t => simp
  simp only [Refuses, hentry]
  cases schema.entries? tag members with
  | none => simp
  | some entries => simp

end Schema

/-! ## Members by their names -/

section

variable {β : Type} {members others : List (String × β)}

theorem lookup_eq_some_iff_mem (hnames : (members.map Prod.fst).Nodup) {name : String} {b : β} :
    members.lookup name = some b ↔ (name, b) ∈ members :=
  lookup_eq_some_iff (List.nodup_iff_count_le_one.mp hnames name)

theorem lookup_eq_of_perm (hperm : members.Perm others) (hnames : (members.map Prod.fst).Nodup)
    (name : String) : members.lookup name = others.lookup name := by
  have hothers : (others.map Prod.fst).Nodup := (hperm.map Prod.fst).nodup_iff.mp hnames
  apply Option.ext
  intro b
  rw [lookup_eq_some_iff_mem hnames, lookup_eq_some_iff_mem hothers, hperm.mem_iff]

theorem lookup_filter {name : String} {p : String × β → Bool} (h : ∀ b, p (name, b) = true) :
    (members.filter p).lookup name = members.lookup name := by
  induction members with
  | nil => rfl
  | cons e rest ih =>
      obtain ⟨other, b⟩ := e
      by_cases hname : name = other
      · subst hname
        simp [h b]
      · rw [List.filter_cons]
        split
        · simp only [List.lookup_cons, ih]
        · rw [ih, List.lookup_cons, beq_false_of_ne hname]

end

theorem Draft.lookup_ofMembers (members : List (String × Tree)) (name : String) :
    (Draft.ofMembers members).lookup (some name) = (members.lookup name).map .ofTree := by
  induction members with
  | nil => rfl
  | cons e rest ih =>
      obtain ⟨other, t⟩ := e
      rw [Draft.ofMembers, List.lookup_cons, List.lookup_cons, ih]
      by_cases hname : name = other
      · simp [hname]
      · simp [beq_false_of_ne hname, beq_false_of_ne (fun h ↦ hname (Option.some.inj h))]

/-! ## Fields that follow a schema -/

/-- Whether a field is read from just what an entry asks for. -/
structure Field.Follows {α : Type} (field : Field α) (e : Entry) : Prop where
  name_eq : field.name = e.name
  absent_iff : field.absent = none ↔ e.required = true
  decode_iff : ∀ t, (∃ a, field.decode .buffer (.ofTree t) = .ok a) ↔ e.shape.Fits t

theorem Field.Follows.takes_iff {α : Type} {field : Field α} {e : Entry} (h : field.Follows e)
    (members : List (String × Tree)) :
    (∃ a, field.Takes .buffer (Draft.ofMembers members) a) ↔ e.MetBy members := by
  simp only [Field.Takes, Draft.lookup_ofMembers, h.name_eq, Entry.MetBy]
  cases members.lookup e.name with
  | some t => exact h.decode_iff t
  | none =>
      rw [← Bool.not_eq_true, ← h.absent_iff]
      exact Option.ne_none_iff_exists'.symm

namespace Fields

inductive Follow {β : Type} : {γ : Type} → Fields β γ → List Entry → Prop where
  | done : Follow .done []
  | field {α γ : Type} {first : Field α} {rest : Fields β γ} {e : Entry} {entries : List Entry}
    (hfirst : first.Follows e) (hrest : rest.Follow entries) :
    Follow (.field first rest) (e :: entries)

variable {β γ : Type}

theorem Follow.ofMembers_iff {fields : Fields β γ} {entries : List Entry}
    (h : fields.Follow entries) (members : List (String × Tree)) (make : γ) :
    (∃ b, fields.ofMembers .buffer (Draft.ofMembers members) make = .ok b) ↔
      ∀ e ∈ entries, e.MetBy members := by
  induction h with
  | done => simp [ofMembers_done]
  | field hfirst _ ih =>
      rw [List.forall_mem_cons, ← hfirst.takes_iff members]
      simp only [ofMembers_eq_ok_iff]
      constructor
      · rintro ⟨b, a, ha, hb⟩
        exact ⟨⟨a, ha⟩, (ih (make a)).mp ⟨b, hb⟩⟩
      · rintro ⟨⟨a, ha⟩, hrest⟩
        obtain ⟨b, hb⟩ := (ih (make a)).mpr hrest
        exact ⟨b, a, ha, hb⟩

theorem Follow.ofMembers_congr {fields : Fields β γ} {entries : List Entry}
    (h : fields.Follow entries) {members others : List (String × Tree)}
    (hlookup : ∀ e ∈ entries, members.lookup e.name = others.lookup e.name) (make : γ) :
    fields.ofMembers .buffer (Draft.ofMembers members) make =
      fields.ofMembers .buffer (Draft.ofMembers others) make := by
  induction h with
  | done => rfl
  | @field _ _ first _ _ _ hfirst _ ih =>
      obtain ⟨hname, hrest⟩ := List.forall_mem_cons.mp hlookup
      have hfield : (Draft.ofMembers members).lookup (some first.name) =
          (Draft.ofMembers others).lookup (some first.name) := by
        rw [Draft.lookup_ofMembers, Draft.lookup_ofMembers, hfirst.name_eq, hname]
      simp only [ofMembers, hfield, ih hrest]

/-- Fields that are taken from members have been read from them. -/
theorem decode_of_ofMembers {fields : Fields β γ} {place : Place}
    {members : List (Option String × Draft)} {make : γ} {b : β}
    (h : fields.ofMembers place members make = .ok b) {name : String} {decode : Decoder Unit}
    (hfield : fields.examine? name = some decode) {d : Draft}
    (hd : members.lookup (some name) = some d) : decode place d = .ok () := by
  induction fields with
  | done => cases hfield
  | field first rest ih =>
      obtain ⟨a, ha, hrest⟩ := ofMembers_eq_ok_iff.mp h
      simp only [examine?] at hfield
      split at hfield
      · next hname =>
          cases hfield
          rw [Field.Takes, hname, hd] at ha
          exact map_eq_ok_iff.mpr ⟨a, ha, rfl⟩
      · exact ih hrest hfield

theorem examine_ofMembers {fields : Fields β γ} {place : Place} {members : List (String × Tree)}
    (hnames : (members.map Prod.fst).Nodup) {make : γ} {b : β}
    (h : fields.ofMembers place (Draft.ofMembers members) make = .ok b) :
    fields.examine place [] (Draft.ofMembers members) = .ok () := by
  have hfst : (Draft.ofMembers members).map Prod.fst = (members.map Prod.fst).map some := by
    simp [Draft.ofMembers_eq_map]
  rw [examine_eq_ok_iff, hfst]
  constructor
  · intro m hm
    rw [Draft.ofMembers_eq_map] at hm
    obtain ⟨⟨name, t⟩, hmem, rfl⟩ := List.mem_map.mp hm
    refine ⟨name, rfl, ?_⟩
    have hlookup : (Draft.ofMembers members).lookup (some name) = some (.ofTree t) := by
      rw [Draft.lookup_ofMembers, (lookup_eq_some_iff_mem hnames).mpr hmem]
      rfl
    rw [Passes]
    split
    · exact Draft.closed_ofTree t
    · next decode hfield => exact decode_of_ofMembers h hfield hlookup
  · intro name _
    have hsome : ((members.map Prod.fst).map some).Nodup :=
      hnames.map fun _ _ ↦ Option.some.inj
    simpa using List.nodup_iff_count_le_one.mp hsome (some name)

end Fields

theorem Place.enter_buffer : Place.enter .buffer = .ok .buffer := rfl

theorem Record.decode_ofMembers {β : Type} (r : Record β) {place inner : Place}
    (henter : place.enter = .ok inner) {members : List (String × Tree)}
    (hnames : (members.map Prod.fst).Nodup) {b : β} :
    r.decode place (.ofTree (.object members)) = .ok b ↔
      r.fields.ofMembers inner (Draft.ofMembers members) r.make = .ok b := by
  rw [Draft.ofTree, r.decode_object_eq_ok_iff henter]
  exact ⟨fun h ↦ h.2, fun h ↦ ⟨Fields.examine_ofMembers hnames h, h⟩⟩

/-! ## Variants that follow a schema -/

/-- Whether a variant is read from the fields that the schema gives it, and from nothing else. -/
structure Variant.Follows {α : Type} (v : Variant α) (s : String × List Entry) : Prop where
  name_eq : v.name = s.1
  decode_iff : ∀ {members : List (String × Tree)}, (members.map Prod.fst).Nodup →
    ((∃ a, v.decode .buffer (.ofTree (.object members)) = .ok a) ↔ ∀ e ∈ s.2, e.MetBy members)
  decode_congr : ∀ {members others : List (String × Tree)}, (members.map Prod.fst).Nodup →
    (others.map Prod.fst).Nodup →
      (∀ e ∈ s.2, members.lookup e.name = others.lookup e.name) →
        ∀ a, v.decode .buffer (.ofTree (.object members)) = .ok a ↔
          v.decode .buffer (.ofTree (.object others)) = .ok a

namespace Variant.Follows

variable {α β : Type}

theorem plain (name : String) (a : α) : (plain name a).Follows (name, []) where
  name_eq := rfl
  decode_iff _ := iff_of_true ⟨a, rfl⟩ (by simp)
  decode_congr _ _ _ _ := Iff.rfl

theorem record {name : String} {r : Record β} {wrap : β → α} {entries : List Entry}
    (h : r.fields.Follow entries) : (record name r wrap).Follows (name, entries) where
  name_eq := rfl
  decode_iff hnames := by
    simp only [Variant.record, Decoder.map, map_eq_ok_iff,
      r.decode_ofMembers Place.enter_buffer hnames]
    rw [← h.ofMembers_iff _ r.make]
    constructor
    · rintro ⟨_, b, hb, -⟩
      exact ⟨b, hb⟩
    · rintro ⟨b, hb⟩
      exact ⟨wrap b, b, hb, rfl⟩
  decode_congr hnames hothers hlookup a := by
    simp only [Variant.record, Decoder.map, map_eq_ok_iff,
      r.decode_ofMembers Place.enter_buffer hnames,
      r.decode_ofMembers Place.enter_buffer hothers, h.ofMembers_congr hlookup]

end Variant.Follows

/-! ## Tagged records that follow a schema -/

namespace Tagged

variable {α : Type}

theorem variant_ofTree_iff (t : Tagged α) {tree : Tree} {v : Variant α} :
    t.variant (.ofTree tree) = .ok v ↔
      ∃ name, tree = .text name ∧ t.variants.find? (·.name = name) = some v := by
  cases tree with
  | text name =>
      simp only [Draft.ofTree, variant, Tree.text.injEq, exists_eq_left']
      cases t.variants.find? (·.name = name) with
      | none => simp
      | some w => simp
  | _ => simp [Draft.ofTree, variant, Decoder.mismatch_ne_ok]

/-- The tag is found wherever it stands, and the other members keep their order. -/
theorem gather_ofMembers (t : Tagged α) {place : Place} {members : List (String × Tree)}
    (hnames : (members.map Prod.fst).Nodup) (hdepth : place.Holds (Tree.depthMembers members))
    {tagTree : Tree} (htag : members.lookup t.tag = some tagTree) :
    t.gather place none (Draft.ofMembers members) =
      (t.variant (.ofTree tagTree)).map fun v ↦ (some v, members.filter (·.1 ≠ t.tag)) := by
  induction members with
  | nil => cases htag
  | cons e rest ih =>
      obtain ⟨name, tree⟩ := e
      obtain ⟨hname, hrest⟩ := List.nodup_cons.mp hnames
      have hothers : place.Holds (Tree.depthMembers rest) := hdepth.mono (Nat.le_max_right _ _)
      rw [List.lookup_cons] at htag
      by_cases hcase : name = t.tag
      · -- No other member bears the tag.
        have hnone (e : String × Tree) (he : e ∈ rest) : e.1 ≠ t.tag := by
          intro hetag
          apply hname
          simp only [hcase, ← hetag]
          exact List.mem_map_of_mem he
        have hfilter : ((name, tree) :: rest).filter (·.1 ≠ t.tag) = rest := by
          rw [List.filter_cons_of_neg (by simp [hcase]), List.filter_eq_self]
          simpa using hnone
        simp only [hcase, beq_self_eq_true, Option.some.injEq] at htag
        subst htag
        rw [Draft.ofMembers, gather, if_pos hcase, hfilter]
        cases t.variant (.ofTree tree) with
        | error cause => rfl
        | ok v => exact t.gather_others (some v) hnone hothers
      · have htree := Draft.tree_ofTree tree (hdepth.mono (Nat.le_max_left _ _))
        have hfilter : ((name, tree) :: rest).filter (·.1 ≠ t.tag) =
            (name, tree) :: rest.filter (·.1 ≠ t.tag) :=
          List.filter_cons_of_pos (by simpa using hcase)
        rw [beq_false_of_ne (Ne.symm hcase)] at htag
        rw [Draft.ofMembers, gather, if_neg hcase, htree, ih hrest hothers htag, hfilter]
        cases t.variant (.ofTree tagTree) with
        | error cause => rfl
        | ok v => rfl

theorem decode_eq_ok_iff (t : Tagged α) {place inner : Place} (henter : place.enter = .ok inner)
    {members : List (String × Tree)} (hnames : (members.map Prod.fst).Nodup)
    (hdepth : inner.Holds (Tree.depthMembers members)) {a : α} :
    t.decode place (.ofTree (.object members)) = .ok a ↔
      ∃ name v, members.lookup t.tag = some (.text name) ∧
        t.variants.find? (·.name = name) = some v ∧
        v.decode .buffer (.ofTree (.object (members.filter (·.1 ≠ t.tag)))) = .ok a := by
  rw [Draft.ofTree, decode, henter]
  simp only [bind_eq_ok_iff, Except.ok.injEq, exists_eq_left', Draft.ofTree]
  cases htag : members.lookup t.tag with
  | none =>
      have hnone (e : String × Tree) (he : e ∈ members) : e.1 ≠ t.tag := by
        intro hetag
        rw [List.lookup_eq_none_iff] at htag
        simpa [hetag] using htag e he
      rw [t.gather_others none hnone hdepth]
      simp
  | some tree =>
      simp only [t.gather_ofMembers hnames hdepth htag, map_eq_ok_iff, t.variant_ofTree_iff]
      constructor
      · rintro ⟨_, ⟨v, ⟨name, rfl, hv⟩, rfl⟩, ha⟩
        exact ⟨name, v, rfl, hv, ha⟩
      · rintro ⟨name, v, ⟨⟩, hv, ha⟩
        exact ⟨_, ⟨v, ⟨name, rfl, hv⟩, rfl⟩, ha⟩

/-- Whether all variants of a tagged record follow a schema, in which no field is named as the
tag. -/
structure Follows (t : Tagged α) (schema : Schema) : Prop where
  variants : List.Forall₂ Variant.Follows t.variants schema
  tag_ne : ∀ s ∈ schema, ∀ e ∈ s.2, e.name ≠ t.tag

theorem find?_of_forall₂ {variants : List (Variant α)} {schema : Schema}
    (h : List.Forall₂ Variant.Follows variants schema) (name : String) :
    (variants.find? (·.name = name) = none ∧ schema.lookup name = none) ∨
      ∃ v entries, variants.find? (·.name = name) = some v ∧ schema.lookup name = some entries ∧
        v.Follows (name, entries) ∧ (name, entries) ∈ schema := by
  induction h with
  | nil => exact .inl ⟨rfl, rfl⟩
  | @cons v s variants schema hv _ ih =>
      obtain ⟨other, entries⟩ := s
      rw [List.lookup_cons]
      by_cases hname : name = other
      · subst hname
        refine .inr ⟨v, entries, ?_, ?_, hv, List.mem_cons_self⟩
        · rw [List.find?_cons_of_pos (by simpa using hv.name_eq)]
        · rw [beq_self_eq_true]
      · have hne : v.name ≠ name := fun h ↦ hname (h.symm.trans hv.name_eq)
        rw [List.find?_cons_of_neg (by simpa using hne), beq_false_of_ne hname]
        rcases ih with hnone | ⟨w, fields, hw, hfields, hfollows, hmem⟩
        · exact .inl hnone
        · exact .inr ⟨w, fields, hw, hfields, hfollows, List.mem_cons_of_mem _ hmem⟩

theorem entries?_of_lookup {schema : Schema} {tag name : String} {members : List (String × Tree)}
    (h : members.lookup tag = some (.text name)) :
    schema.entries? tag members = schema.lookup name := by
  rw [Schema.entries?, h]

theorem exists_lookup_of_entries? {schema : Schema} {tag : String}
    {members : List (String × Tree)} {entries : List Entry}
    (h : schema.entries? tag members = some entries) :
    ∃ name, members.lookup tag = some (.text name) ∧ schema.lookup name = some entries := by
  unfold Schema.entries? at h
  split at h
  · next name hname => exact ⟨name, hname, h⟩
  · cases h

section

variable {t : Tagged α} {schema : Schema} {place inner : Place} {members : List (String × Tree)}

/-- What the schema asks for is not set aside with the tag. -/
theorem Follows.lookup_filter (h : t.Follows schema) {name : String} {entries : List Entry}
    (hentries : (name, entries) ∈ schema) {e : Entry} (he : e ∈ entries)
    (members : List (String × Tree)) :
    (members.filter (·.1 ≠ t.tag)).lookup e.name = members.lookup e.name :=
  RemoteObjects.Json.lookup_filter fun _ ↦ by simpa using h.tag_ne _ hentries e he

theorem nodup_filter (hnames : (members.map Prod.fst).Nodup) (p : String × Tree → Bool) :
    ((members.filter p).map Prod.fst).Nodup := hnames.sublist (List.filter_sublist.map Prod.fst)

/-- A record is read just if the schema does not refuse it. -/
theorem Follows.decode_iff (h : t.Follows schema) (henter : place.enter = .ok inner)
    (hnames : (members.map Prod.fst).Nodup) (hdepth : inner.Holds (Tree.depthMembers members)) :
    (∃ a, t.decode place (.ofTree (.object members)) = .ok a) ↔
      ¬schema.Refuses t.tag members := by
  simp only [t.decode_eq_ok_iff henter hnames hdepth, schema.not_refuses_iff]
  have hmet {name : String} {entries : List Entry} (hentries : (name, entries) ∈ schema)
      (e : Entry) (he : e ∈ entries) :
      e.MetBy (members.filter (·.1 ≠ t.tag)) ↔ e.MetBy members := by
    rw [Entry.MetBy, Entry.MetBy, h.lookup_filter hentries he]
  constructor
  · rintro ⟨a, name, v, hname, hv, ha⟩
    rcases find?_of_forall₂ h.variants name with ⟨hnone, -⟩ | ⟨w, entries, hw, hlookup, hfollows,
      hentries⟩
    · rw [hv] at hnone
      cases hnone
    · obtain rfl := Option.some.inj (hv.symm.trans hw)
      refine ⟨entries, (entries?_of_lookup hname).trans hlookup, fun e he ↦ ?_⟩
      exact (hmet hentries e he).mp ((hfollows.decode_iff (nodup_filter hnames _)).mp ⟨a, ha⟩ e he)
  · rintro ⟨entries, hentries?, hall⟩
    obtain ⟨name, hname, hlookup⟩ := exists_lookup_of_entries? hentries?
    rcases find?_of_forall₂ h.variants name with ⟨-, hnone⟩ | ⟨v, fields, hv, hfields, hfollows,
      hentries⟩
    · rw [hlookup] at hnone
      cases hnone
    · obtain rfl := Option.some.inj (hlookup.symm.trans hfields)
      obtain ⟨a, ha⟩ := (hfollows.decode_iff (nodup_filter hnames _)).mpr fun e he ↦
        (hmet hentries e he).mpr (hall e he)
      exact ⟨a, name, v, hname, hv, ha⟩

/-- What is read depends only on the tag and on the fields of the variant that it names. -/
theorem Follows.decode_congr (h : t.Follows schema) (henter : place.enter = .ok inner)
    (hnames : (members.map Prod.fst).Nodup) (hdepth : inner.Holds (Tree.depthMembers members))
    {others : List (String × Tree)} (hothers : (others.map Prod.fst).Nodup)
    (hothersDepth : inner.Holds (Tree.depthMembers others))
    (htag : members.lookup t.tag = others.lookup t.tag)
    (hfields : ∀ entries, schema.entries? t.tag members = some entries →
      ∀ e ∈ entries, members.lookup e.name = others.lookup e.name) (a : α) :
    t.decode place (.ofTree (.object members)) = .ok a ↔
      t.decode place (.ofTree (.object others)) = .ok a := by
  rw [t.decode_eq_ok_iff henter hnames hdepth, t.decode_eq_ok_iff henter hothers hothersDepth,
    ← htag]
  refine exists_congr fun name ↦ exists_congr fun v ↦ and_congr_right fun hname ↦
    and_congr_right fun hv ↦ ?_
  rcases find?_of_forall₂ h.variants name with ⟨hnone, -⟩ | ⟨w, entries, hw, hlookup, hfollows,
    hentries⟩
  · rw [hv] at hnone
    cases hnone
  · obtain rfl := Option.some.inj (hv.symm.trans hw)
    apply hfollows.decode_congr (nodup_filter hnames _) (nodup_filter hothers _)
    intro e he
    rw [h.lookup_filter hentries he, h.lookup_filter hentries he]
    exact hfields entries ((entries?_of_lookup hname).trans hlookup) e he

end

end Tagged

/-! ## Order -/

/-- Whether a tagged record is read from the members of an object without regard to their order
and to what the variant has no use for, and is refused just where the schema refuses it.  `holds`
says which members a source holds, and `read` reads it. -/
structure OrderFree {σ ε α : Type} (schema : Schema) (tag : String)
    (holds : σ → List (String × Tree) → Prop) (read : σ → Except ε α) : Prop where
  /-- Two sources hold the same members in any order, and each of them others that are ignored. -/
  same {kept others₁ others₂ members₁ members₂ : List (String × Tree)} {s₁ s₂ : σ} :
    members₁.Perm (kept ++ others₁) → members₂.Perm (kept ++ others₂) →
      (∀ e ∈ others₁ ++ others₂, schema.Ignores tag kept e.1) →
        holds s₁ members₁ → holds s₂ members₂ → ∀ a, read s₁ = .ok a ↔ read s₂ = .ok a
  refused_iff {members : List (String × Tree)} {s : σ} : holds s members →
    ((∃ e, read s = .error e) ↔ schema.Refuses tag members)

theorem lookup_kept {kept others members : List (String × Tree)}
    (hperm : members.Perm (kept ++ others)) (hnames : (members.map Prod.fst).Nodup) {name : String}
    (hname : ∀ e ∈ others, e.1 ≠ name) : members.lookup name = kept.lookup name := by
  have hothers : others.lookup name = none := by
    rw [List.lookup_eq_none_iff]
    intro e he
    simpa using (hname e he).symm
  rw [lookup_eq_of_perm hperm hnames, List.lookup_append, hothers, Option.or_none]

/-- A tagged record that follows a schema is read in any order. -/
theorem Tagged.Follows.orderFree {σ ε α : Type} {t : Tagged α} {schema : Schema}
    (h : t.Follows schema) {place inner : Place} (henter : place.enter = .ok inner)
    {holds : σ → List (String × Tree) → Prop} {read : σ → Except ε α}
    (hnames : ∀ {s members}, holds s members → (members.map Prod.fst).Nodup)
    (hdepth : ∀ {s members}, holds s members → inner.Holds (Tree.depthMembers members))
    (hread : ∀ {s members}, holds s members → ∀ a,
      read s = .ok a ↔ t.decode place (.ofTree (.object members)) = .ok a) :
    OrderFree schema t.tag holds read where
  same := by
    intro kept others₁ others₂ members₁ members₂ s₁ s₂ hperm₁ hperm₂ hignored hs₁ hs₂ a
    have hkept {name : String} (hname : ∀ e ∈ others₁ ++ others₂, e.1 ≠ name) :
        members₁.lookup name = kept.lookup name ∧ members₂.lookup name = kept.lookup name :=
      ⟨lookup_kept hperm₁ (hnames hs₁) fun e he ↦ hname e (List.mem_append_left _ he),
        lookup_kept hperm₂ (hnames hs₂) fun e he ↦ hname e (List.mem_append_right _ he)⟩
    have htag := hkept fun e he ↦ (hignored e he).1
    have hentries : schema.entries? t.tag members₁ = schema.entries? t.tag kept := by
      rw [Schema.entries?, Schema.entries?, htag.1]
    rw [hread hs₁, hread hs₂]
    apply h.decode_congr henter (hnames hs₁) (hdepth hs₁) (hnames hs₂) (hdepth hs₂)
    · rw [htag.1, htag.2]
    · intro entries hsome e he
      rw [hentries] at hsome
      have hfield := hkept fun m hm ↦ ((hignored m hm).2 entries hsome e he).symm
      rw [hfield.1, hfield.2]
  refused_iff := by
    intro members s hs
    have hiff := h.decode_iff henter (hnames hs) (hdepth hs)
    simp only [← hread hs] at hiff
    rw [← not_iff_not, ← hiff]
    cases read s with
    | ok a => simp
    | error e => simp

end RemoteObjects.Json
