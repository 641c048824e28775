import RemoteObjects.Proofs.Json.Records
import RemoteObjects.Wire.Frame

/-!
# Messages arrive as they were sent

Arguments, outcomes, requests and responses are read from their own bytes.  A value must not be
nested too deep for what is written around it, and its floats have to read back from their texts.
-/

namespace RemoteObjects

open Json

/-- What a decoder makes of a document is what it makes of the bytes of the document. -/
theorem Wire.decodeBytes_encodeTree {α : Type} {decode : Decoder α} {t : Tree}
    (ht : t.ReadsBack) : Wire.decodeBytes decode (Wire.encodeTree t) =
      (decode (.text nestingLimit) (.ofTree t)).mapError fun cause ↦ .decode cause.message := by
  have hread : Json.readBytes decode (Wire.encodeTree t) =
      decode (.text nestingLimit) (.ofTree t) := by
    rw [Wire.encodeTree, Json.readBytes, textOfBytes_toUTF8, Json.read, Tree.scan_write ht,
      Tree.ofTokens_tokens]
    cases hdecode : decode (.text nestingLimit) (.ofTree t) with
    | ok a =>
        simp only [bind, Except.bind, hdecode]
        rfl
    | error cause => simp only [bind, Except.bind, hdecode]
  rw [Wire.decodeBytes, hread]

theorem Wire.decodeBytes_of_ok {α : Type} {decode : Decoder α} {t : Tree} {a : α}
    (ht : t.ReadsBack) (ha : decode (.text nestingLimit) (.ofTree t) = .ok a) :
    Wire.decodeBytes decode (Wire.encodeTree t) = .ok a := by
  rw [Wire.decodeBytes_encodeTree ht, ha]
  rfl

theorem Wire.decodeBytes_eq_ok_iff {α : Type} {decode : Decoder α} {bytes : ByteArray} {a : α} :
    Wire.decodeBytes decode bytes = .ok a ↔ Json.readBytes decode bytes = .ok a := by
  rw [Wire.decodeBytes]
  cases Json.readBytes decode bytes with
  | ok b => simp [Except.mapError]
  | error cause => simp [Except.mapError]

theorem Wire.decodeBytes_error_iff {α : Type} {decode : Decoder α} {bytes : ByteArray} :
    (∃ reason, Wire.decodeBytes decode bytes = .error (.decode reason)) ↔
      ∀ a, Wire.decodeBytes decode bytes ≠ .ok a := by
  rw [Wire.decodeBytes]
  cases Json.readBytes decode bytes with
  | ok b => simp [Except.mapError]
  | error cause => simp [Except.mapError]

/-! ## Values -/

/-- Whether a value may be sent where so many containers may still be opened. -/
structure Json.Value.Sendable (room : Nat) (v : Value) : Prop where
  readsBack : v.tree.ReadsBack
  depth_le : v.tree.depth ≤ room

namespace Json

theorem Tree.readsBackItems_iff {items : List Tree} :
    ReadsBackItems items ↔ ∀ t ∈ items, t.ReadsBack := by
  induction items with
  | nil => simp [ReadsBackItems]
  | cons t rest ih => simp [ReadsBackItems, ih]

theorem Tree.readsBackMembers_iff {members : List (String × Tree)} :
    ReadsBackMembers members ↔ ∀ e ∈ members, e.2.ReadsBack := by
  induction members with
  | nil => simp [ReadsBackMembers]
  | cons e rest ih => simp [ReadsBackMembers, ih]

namespace Decoder

variable {α : Type}

theorem list_ofItems {decode : Decoder α} {place inner : Place} (henter : place.enter = .ok inner)
    {write : α → Tree} {as : List α}
    (h : ∀ a ∈ as, decode inner (.ofTree (write a)) = .ok a) :
    list decode place (.ofTree (.array (as.map write))) = .ok as := by
  have hitems : (Draft.ofItems (as.map write)).mapM (decode inner) = .ok as := by
    induction as with
    | nil => rfl
    | cons a as ih =>
        have hrest := ih fun b hb ↦ h b (List.mem_cons_of_mem _ hb)
        rw [List.map_cons, Draft.ofItems, List.mapM_cons, h a List.mem_cons_self, hrest]
        rfl
  rw [Draft.ofTree, list, henter]
  exact hitems

/-- How one of several members is read. -/
def member (decode : Decoder α) (place : Place) :
    Option String × Draft → Except Cause (String × α) := fun (name, d) ↦ do
  let some name := name | throw .malformed
  return (name, ← decode place d)

theorem member_ok {decode : Decoder α} {place : Place} (name : String) {d : Draft} {a : α}
    (h : decode place d = .ok a) : member decode place (some name, d) = .ok (name, a) := by
  simp only [member, h]
  rfl

theorem member_error {decode : Decoder α} {place : Place} (name : String) {d : Draft}
    {cause : Cause} (h : decode place d = .error cause) :
    member decode place (some name, d) = .error cause := by
  simp only [member, h]
  rfl

theorem keyed_object {decode : Decoder α} {place inner : Place} (henter : place.enter = .ok inner)
    (members : List (Option String × Draft)) :
    keyed decode place (.object members) =
      (members.mapM (member decode inner)).map Keyed.ofList := by
  rw [keyed, henter]
  change members.mapM (member decode inner) >>= _ = _
  cases members.mapM (member decode inner) with
  | ok entries => rfl
  | error cause => rfl

theorem keyed_ofMembers {decode : Decoder α} {place inner : Place}
    (henter : place.enter = .ok inner) {write : α → Tree} {as : Keyed α}
    (h : ∀ a ∈ as.values, decode inner (.ofTree (write a)) = .ok a) :
    keyed decode place (.ofTree (.object (as.map write).entries)) = .ok as := by
  have hentries : (Draft.ofMembers (as.map write).entries).mapM (member decode inner) =
      .ok as.entries := by
    simp only [Keyed.map, Keyed.values] at h ⊢
    generalize as.entries = entries at h ⊢
    induction entries with
    | nil => rfl
    | cons e rest ih =>
        obtain ⟨name, a⟩ := e
        have hrest := ih fun b hb ↦ h b (List.mem_cons_of_mem _ hb)
        have hfirst := member_ok name (h a List.mem_cons_self)
        rw [List.map_cons, Draft.ofMembers, List.mapM_cons, hfirst, hrest]
        rfl
  rw [Draft.ofTree, keyed_object henter, hentries]
  exact congrArg Except.ok (Keyed.ofList_entries as)

theorem integer_ofTree {wanted : String} {high : Int} {n : UInt64} (h : (n.toNat : Int) ≤ high)
    (place : Place) :
    integer wanted 0 high place (.ofTree (.number (.natural n))) = .ok (n.toNat : Int) :=
  if_pos ⟨Int.natCast_nonneg _, h⟩

theorem uint8_ofTree (place : Place) (b : UInt8) :
    uint8 place (.ofTree (.number (.natural b.toUInt64))) = .ok b := by
  have hrange : (b.toUInt64.toNat : Int) ≤ UInt8.size - 1 := by
    have hb := b.toNat_lt
    have hsize : UInt8.size = 2 ^ 8 := rfl
    rw [UInt8.toNat_toUInt64]
    omega
  rw [uint8, map, integer_ofTree hrange]
  simp [Except.map]

theorem uint16_ofTree (place : Place) (n : UInt16) :
    uint16 place (.ofTree (.number (.natural n.toUInt64))) = .ok n := by
  have hrange : (n.toUInt64.toNat : Int) ≤ UInt16.size - 1 := by
    have hn := n.toNat_lt
    have hsize : UInt16.size = 2 ^ 16 := rfl
    rw [UInt16.toNat_toUInt64]
    omega
  rw [uint16, map, integer_ofTree hrange]
  simp [Except.map]

theorem bytes_ofTree {place : Place} (h : place.Holds 1) (b : ByteArray) :
    bytes place (.ofTree (bytesTree b)) = .ok b := by
  obtain ⟨inner, henter, -⟩ := h.enter
  have hlist := @list_ofItems _ uint8 place inner henter
    (fun a ↦ .number (.natural a.toUInt64)) b.data.toList fun a _ ↦ uint8_ofTree inner a
  rw [bytes, map, bytesTree, hlist]
  rfl

end Decoder

end Json

/-! ## Arguments and outcomes -/

/-- Whether arguments may be sent; they are written inside two containers. -/
def CallArgs.Sendable (args : CallArgs) : Prop :=
  (∀ v ∈ args.positional, v.Sendable 125) ∧ ∀ v ∈ args.keyword.values, v.Sendable 125

theorem CallArgs.decode_tree (args : CallArgs) (h : args.Sendable) :
    CallArgs.record.decode (.text nestingLimit) (.ofTree args.tree) = .ok args := by
  have hvalue (v : Value) (hv : v.Sendable 125) :
      Decoder.value (.text 125) (.ofTree v.tree) = .ok v := Decoder.value_ofTree v hv.depth_le
  have hpositional : Decoder.list Decoder.value (.text 126)
      (.ofTree (.array (args.positional.map Value.tree))) = .ok args.positional :=
    Decoder.list_ofItems rfl fun v hv ↦ hvalue v (h.1 v hv)
  have hkeyword : Decoder.keyed Decoder.value (.text 126)
      (.ofTree (.object (args.keyword.map Value.tree).entries)) = .ok args.keyword :=
    Decoder.keyed_ofMembers rfl fun v hv ↦ hvalue v (h.2 v hv)
  simp only [Draft.ofTree] at hpositional hkeyword
  simp [Record.decode, CallArgs.record, CallArgs.tree, Draft.ofTree, Draft.ofMembers, Place.enter,
    nestingLimit, bind, Except.bind, Fields.examine, Fields.examine?, Field.optional, Decoder.map,
    Fields.ofMembers, Value.array, Value.object, Value.tree, List.lookup_cons, Except.map,
    hpositional, hkeyword]

/-- Whether the floats in all arguments read back from their texts. -/
def CallArgs.ReadsBack (args : CallArgs) : Prop :=
  ∀ v ∈ args.positional ++ args.keyword.values, v.tree.ReadsBack

theorem CallArgs.Sendable.readsBack {args : CallArgs} (h : args.Sendable) : args.ReadsBack := by
  intro v hv
  rcases List.mem_append.mp hv with hv | hv
  · exact (h.1 v hv).readsBack
  · exact (h.2 v hv).readsBack

theorem CallArgs.readsBack_tree (args : CallArgs) (h : args.ReadsBack) : args.tree.ReadsBack := by
  have hpositional : Tree.ReadsBackItems (args.positional.map Value.tree) := by
    rw [Tree.readsBackItems_iff]
    simp only [List.mem_map]
    rintro t ⟨v, hv, rfl⟩
    exact h v (List.mem_append_left _ hv)
  have hkeyword : Tree.ReadsBackMembers (args.keyword.map Value.tree).entries := by
    rw [Tree.readsBackMembers_iff]
    simp only [Keyed.map, List.mem_map]
    rintro t ⟨e, he, rfl⟩
    exact h e.2 (List.mem_append_right _ (List.mem_map_of_mem he))
  exact ⟨hpositional, hkeyword, trivial⟩

theorem decodeArgs_encodeArgs (args : CallArgs) (h : args.Sendable) :
    Codec.json.encodeArgs args = .ok (Wire.encodeTree args.tree) ∧
      Codec.json.decodeArgs (Wire.encodeTree args.tree) = .ok args :=
  ⟨rfl, Wire.decodeBytes_of_ok (args.readsBack_tree h.readsBack) (args.decode_tree h)⟩

/-- Whether an outcome may be sent; its value is written inside one container. -/
def Outcome.Sendable (outcome : Outcome) : Prop := ∀ v, outcome = .ok v → v.Sendable 126

theorem Outcome.decode_tree (outcome : Outcome) (h : outcome.Sendable) :
    Outcome.decode (.text nestingLimit) (.ofTree outcome.tree) = .ok outcome := by
  cases outcome with
  | ok v =>
      have hv : Decoder.value (.text 126) (.ofTree v.tree) = .ok v :=
        Decoder.value_ofTree v (h v rfl).depth_le
      simp [Outcome.decode, Outcome.tree, Draft.ofTree, Draft.ofMembers, Place.enter, nestingLimit,
        bind, Except.bind, pure, Except.pure, Except.map, hv]
  | error f =>
      simp [Outcome.decode, Outcome.tree, RemoteFault.members, RemoteFault.record, Record.decode,
        Draft.ofTree, Draft.ofMembers, Place.enter, nestingLimit, bind, Except.bind, pure,
        Except.pure, Fields.examine, Fields.examine?, Field.required, Decoder.map, Decoder.text,
        Fields.ofMembers, List.lookup_cons, Except.map]

/-- Whether the floats in an outcome read back from their texts; a fault has none. -/
def Outcome.ReadsBack (outcome : Outcome) : Prop := ∀ v, outcome = .ok v → v.tree.ReadsBack

theorem Outcome.Sendable.readsBack {outcome : Outcome} (h : outcome.Sendable) :
    outcome.ReadsBack := fun v hv ↦ (h v hv).readsBack

theorem Outcome.readsBack_tree (outcome : Outcome) (h : outcome.ReadsBack) :
    outcome.tree.ReadsBack := by
  cases outcome with
  | ok v => exact ⟨h v rfl, trivial⟩
  | error f => exact ⟨⟨trivial, trivial, trivial⟩, trivial⟩

theorem decodeOutcome_encodeOutcome (outcome : Outcome) (h : outcome.Sendable) :
    Codec.json.encodeOutcome outcome = .ok (Wire.encodeTree outcome.tree) ∧
      Codec.json.decodeOutcome (Wire.encodeTree outcome.tree) = .ok outcome :=
  ⟨rfl, Wire.decodeBytes_of_ok (outcome.readsBack_tree h.readsBack) (outcome.decode_tree h)⟩

/-! ## Requests and responses -/

theorem readsBack_bytesTree (b : ByteArray) : (bytesTree b).ReadsBack := by
  refine Tree.readsBackItems_iff.mpr fun t ht ↦ ?_
  obtain ⟨a, -, rfl⟩ := List.mem_map.mp ht
  intro x hx
  cases hx

theorem depth_bytesTree (b : ByteArray) : (bytesTree b).depth = 1 := by
  have hitems (l : List UInt8) :
      Tree.depthItems (l.map fun a ↦ .number (.natural a.toUInt64)) = 0 := by
    induction l with
    | nil => rfl
    | cons a l ih => simp [Tree.depthItems, Tree.depth, ih]
  rw [bytesTree, Tree.depth, hitems]

/-- A record that is tagged in front is read as the variant it names. -/
theorem Json.Tagged.decode_tagged {α : Type} (t : Tagged α) {place inner : Place}
    (henter : place.enter = .ok inner) {name : String} {v : Variant α}
    (hv : t.variants.find? (·.name = name) = some v) {others : List (String × Tree)}
    (hnames : ∀ e ∈ others, e.1 ≠ t.tag) (hdepth : inner.Holds (Tree.depthMembers others)) :
    t.decode place (.ofTree (.object ((t.tag, .text name) :: others))) =
      v.decode .buffer (.ofTree (.object others)) := by
  have hgather := t.gather_others (some v) hnames hdepth
  have htag : t.gather inner none (Draft.ofMembers ((t.tag, .text name) :: others)) =
      .ok (some v, others) := by
    simp [Draft.ofMembers, Draft.ofTree, Tagged.gather, Tagged.variant, hv, hgather, bind,
      Except.bind]
  simp only [Draft.ofTree, Tagged.decode, henter, htag, bind, Except.bind]

theorem Request.readsBack_tree (r : Request) : r.tree.ReadsBack := by
  cases r with
  | create objectType objectId args =>
      exact ⟨trivial, trivial, trivial, readsBack_bytesTree args, trivial⟩
  | call objectId method payload =>
      exact ⟨trivial, trivial, trivial, readsBack_bytesTree payload, trivial⟩
  | ping => exact ⟨trivial, trivial⟩

theorem Request.decode_encode (r : Request) : Request.decode r.encode = .ok r := by
  refine Wire.decodeBytes_of_ok r.readsBack_tree ?_
  cases r with
  | create objectType objectId args =>
      have hbytes := @Decoder.bytes_ofTree .buffer trivial args
      refine (Tagged.decode_tagged tagged (by rfl) (by rfl) (by simp [tagged]) ?_).trans ?_
      · simp [Tree.depthMembers, Tree.depth, ObjectId.tree, depth_bytesTree, Place.Holds]
      · simp [Variant.record, Record.decode, Fields.examine, Fields.examine?, Fields.ofMembers,
          Field.required, Decoder.map, Decoder.text, ObjectId.decode, ObjectId.tree,
          Draft.ofTree, Draft.ofMembers, Place.enter, bind, Except.bind, Except.map,
          List.lookup_cons, hbytes]
  | call objectId method payload =>
      have hbytes := @Decoder.bytes_ofTree .buffer trivial payload
      refine (Tagged.decode_tagged tagged (by rfl) (by rfl) (by simp [tagged]) ?_).trans ?_
      · simp [Tree.depthMembers, Tree.depth, ObjectId.tree, depth_bytesTree, Place.Holds]
      · simp [Variant.record, Record.decode, Fields.examine, Fields.examine?, Fields.ofMembers,
          Field.required, Decoder.map, Decoder.text, ObjectId.decode, ObjectId.tree,
          Draft.ofTree, Draft.ofMembers, Place.enter, bind, Except.bind, Except.map,
          List.lookup_cons, hbytes]
  | ping => rfl

theorem Response.readsBack_tree (r : Response) : r.tree.ReadsBack := by
  cases r with
  | returned payload => exact ⟨trivial, readsBack_bytesTree payload, trivial⟩
  | fault f => exact ⟨trivial, trivial, trivial, trivial⟩
  | _ => exact ⟨trivial, trivial⟩

theorem Response.decode_encode (r : Response) : Response.decode r.encode = .ok r := by
  refine Wire.decodeBytes_of_ok r.readsBack_tree ?_
  cases r with
  | returned payload =>
      have hbytes := @Decoder.bytes_ofTree .buffer trivial payload
      refine (Tagged.decode_tagged tagged (by rfl) (by rfl) (by simp [tagged]) ?_).trans ?_
      · simp [Tree.depthMembers, depth_bytesTree, Place.Holds]
      · simp [Variant.record, Record.decode, Fields.examine, Fields.examine?, Fields.ofMembers,
          Field.required, Decoder.map, Draft.ofTree, Draft.ofMembers, Place.enter, bind,
          Except.bind, Except.map, hbytes]
  | fault f =>
      refine (Tagged.decode_tagged tagged (by rfl) (by rfl)
        (by simp [tagged, RemoteFault.members]) ?_).trans ?_
      · simp [RemoteFault.members, Tree.depthMembers, Tree.depth, Place.Holds]
      · simp [Variant.record, RemoteFault.record, RemoteFault.members, Record.decode,
          Fields.examine, Fields.examine?, Fields.ofMembers, Field.required, Decoder.map,
          Decoder.text, Draft.ofTree, Draft.ofMembers, Place.enter, bind, Except.bind,
          Except.map, List.lookup_cons]
  | created => rfl
  | pong => rfl

/-! ## Messages as documents -/

/-- The name of the request in written messages. -/
def Request.kind : Request → String
  | .create _ _ _ => "create"
  | .call _ _ _ => "call"
  | .ping => "ping"

/-- Whether a document is an object with a tag of this kind and no other. -/
def Json.Tree.TaggedAs (t : Tree) (kind : String) : Prop :=
  ∃ members, t = .object (("op", .text kind) :: members) ∧ ∀ e ∈ members, e.1 ≠ "op"

theorem Request.taggedAs (r : Request) : r.tree.TaggedAs r.kind := by
  cases r with
  | create objectType objectId args => exact ⟨_, rfl, by simp⟩
  | call objectId method payload => exact ⟨_, rfl, by simp⟩
  | ping => exact ⟨_, rfl, by simp⟩

theorem Response.taggedAs (r : Response) : r.tree.TaggedAs r.kind := by
  refine ⟨_, rfl, ?_⟩
  cases r <;> simp [RemoteFault.members]

theorem Request.depth_tree_le (r : Request) : r.tree.depth ≤ nestingLimit := by
  have hdepth : r.tree.depth ≤ 2 := by
    cases r <;> simp [Request.tree, ObjectId.tree, Tree.depth, Tree.depthMembers, depth_bytesTree]
  exact Nat.le_trans hdepth (by decide)

theorem Response.depth_tree_le (r : Response) : r.tree.depth ≤ nestingLimit := by
  have hdepth : r.tree.depth ≤ 2 := by
    cases r <;>
      simp [Response.tree, RemoteFault.members, Tree.depth, Tree.depthMembers, depth_bytesTree]
  exact Nat.le_trans hdepth (by decide)

/-- The bytes of a document denote its value. -/
theorem Wire.decodeBytes_value {t : Tree} (ht : t.ReadsBack) (hdepth : t.depth ≤ nestingLimit) :
    Wire.decodeBytes Decoder.value (Wire.encodeTree t) = .ok (.ofTree t) := by
  have hholds : (Place.text nestingLimit).Holds t.depth := hdepth
  apply Wire.decodeBytes_of_ok ht
  rw [Decoder.value, Draft.tree_ofTree t hholds]
  rfl

/-- What can be read back is written differently from everything else. -/
theorem injective_of_decode {α : Type} {encode : α → ByteArray}
    {decode : ByteArray → Except Wire.Error α} (h : ∀ a, decode (encode a) = .ok a) :
    Function.Injective encode := by
  intro a b hab
  have hback := h a
  rw [hab, h b] at hback
  exact (Except.ok.inj hback).symm

/-- Requests and responses are read back from their own bytes, whatever texts and bytes they hold,
so no two of them are written alike.  To other readers they are objects that tell their kind under
the name `op`, once and in front. -/
theorem frames_read_back :
    (∀ r : Request, Request.decode r.encode = .ok r ∧ r.tree.TaggedAs r.kind ∧
      Wire.decodeBytes Decoder.value r.encode = .ok (.ofTree r.tree)) ∧
    (∀ r : Response, Response.decode r.encode = .ok r ∧ r.tree.TaggedAs r.kind ∧
      Wire.decodeBytes Decoder.value r.encode = .ok (.ofTree r.tree)) ∧
    Function.Injective Request.encode ∧ Function.Injective Response.encode := by
  refine ⟨fun r ↦ ⟨r.decode_encode, r.taggedAs, ?_⟩, fun r ↦ ⟨r.decode_encode, r.taggedAs, ?_⟩,
    ?_, ?_⟩
  · exact Wire.decodeBytes_value r.readsBack_tree r.depth_tree_le
  · exact Wire.decodeBytes_value r.readsBack_tree r.depth_tree_le
  · exact injective_of_decode Request.decode_encode
  · exact injective_of_decode Response.decode_encode

end RemoteObjects
