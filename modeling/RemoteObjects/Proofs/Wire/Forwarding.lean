import RemoteObjects.Proofs.Wire.Nesting
import RemoteObjects.Proofs.Wire.OneOutcome

/-!
# What is accepted can be sent on

The same message is read from many texts: its members may be missing, moved or joined by others, a
record may be an array, and a name may stand twice.  What is read is never nested deeper than the
text allowed where it stood, and its own form needs no more room than that.  So it is written, the
writing is accepted, and nothing changes any more.
-/

namespace RemoteObjects

open Json

namespace Json

/-! ## Nesting of values -/

namespace Tree

theorem depthMembers_le_iff {members : List (String × Tree)} {n : Nat} :
    depthMembers members ≤ n ↔ ∀ e ∈ members, e.2.depth ≤ n := by
  induction members with
  | nil => simp [depthMembers]
  | cons e rest ih =>
      obtain ⟨name, t⟩ := e
      rw [depthMembers, Nat.max_le, ih, List.forall_mem_cons]

mutual

/-- Members that are dropped for a later one of their name only take nesting away. -/
theorem depth_canonical_le : ∀ t : Tree, t.canonical.depth ≤ t.depth
  | .null | .bool _ | .number _ | .text _ => Nat.le_refl _
  | .array items => Nat.succ_le_succ (depthItems_canonicalItems_le items)
  | .object members => by
      apply Nat.succ_le_succ
      apply depthMembers_le_iff.mpr
      intro e he
      apply depthMembers_le_iff.mp (depthMembers_canonicalMembers_le members) e
      exact Keyed.mem_of_mem_ofList he

theorem depthItems_canonicalItems_le : ∀ items : List Tree,
    depthItems (canonicalItems items) ≤ depthItems items
  | [] => Nat.le_refl _
  | t :: rest => by
      have hfirst := depth_canonical_le t
      have hrest := depthItems_canonicalItems_le rest
      rw [canonicalItems, depthItems, depthItems]
      omega

theorem depthMembers_canonicalMembers_le : ∀ members : List (String × Tree),
    depthMembers (canonicalMembers members) ≤ depthMembers members
  | [] => Nat.le_refl _
  | (_, t) :: rest => by
      have hfirst := depth_canonical_le t
      have hrest := depthMembers_canonicalMembers_le rest
      rw [canonicalMembers, depthMembers, depthMembers]
      omega

end

end Tree

namespace Decoder

variable {α β : Type}

theorem holds_of_value {place : Place} {d : Draft} {v : Value} (h : value place d = .ok v) :
    place.Holds v.tree.depth := by
  obtain ⟨t, -, hdepth, rfl⟩ := value_eq_ok_iff.mp h
  exact hdepth.mono t.depth_canonical_le

theorem exists_of_mapM {read : α → Except Cause β} {as : List α} {bs : List β}
    (h : as.mapM read = .ok bs) {b : β} (hb : b ∈ bs) : ∃ a ∈ as, read a = .ok b := by
  induction as generalizing bs with
  | nil =>
      cases h
      cases hb
  | cons a as ih =>
      simp only [List.mapM_cons, bind_eq_ok_iff] at h
      obtain ⟨first, hfirst, rest, hrest, h⟩ := h
      cases h
      rcases List.mem_cons.mp hb with rfl | hb
      · exact ⟨a, List.mem_cons_self, hfirst⟩
      · obtain ⟨c, hc, hread⟩ := ih hrest hb
        exact ⟨c, List.mem_cons_of_mem a hc, hread⟩

theorem enter_of_list {decode : Decoder α} {place : Place} {d : Draft} {as : List α}
    (h : list decode place d = .ok as) :
    ∃ inner : Place, place.enter = .ok inner ∧ ∀ a ∈ as, ∃ e, decode inner e = .ok a := by
  cases d with
  | array items =>
      simp only [list, bind_eq_ok_iff] at h
      obtain ⟨inner, henter, hitems⟩ := h
      refine ⟨inner, henter, fun a ha ↦ ?_⟩
      obtain ⟨e, -, he⟩ := exists_of_mapM hitems ha
      exact ⟨e, he⟩
  | _ => exact absurd h mismatch_ne_ok

theorem enter_of_keyed {decode : Decoder α} {place : Place} {d : Draft} {as : Keyed α}
    (h : keyed decode place d = .ok as) :
    ∃ inner : Place, place.enter = .ok inner ∧ ∀ a ∈ as.values, ∃ e, decode inner e = .ok a := by
  cases d with
  | object members =>
      have henter : ∃ inner, place.enter = .ok inner := by
        simp only [keyed, bind_eq_ok_iff] at h
        obtain ⟨inner, henter, -⟩ := h
        exact ⟨inner, henter⟩
      obtain ⟨inner, henter⟩ := henter
      rw [keyed_object henter, map_eq_ok_iff] at h
      obtain ⟨entries, hentries, rfl⟩ := h
      refine ⟨inner, henter, fun a ha ↦ ?_⟩
      obtain ⟨key, hkey⟩ := Keyed.mem_values.mp ha
      obtain ⟨⟨_ | name, e⟩, -, he⟩ := exists_of_mapM hentries (Keyed.mem_of_mem_ofList hkey)
      · cases he
      · simp only [member, bind_eq_ok_iff] at he
        obtain ⟨b, hb, he⟩ := he
        cases he
        exact ⟨e, hb⟩
  | _ => exact absurd h mismatch_ne_ok

end Decoder

/-! ## What records are made of -/

/-- Whether a field may have a value at a place, because it is read there or may be absent. -/
def Field.MayHave {α : Type} (field : Field α) (place : Place) (a : α) : Prop :=
  (∃ d, field.decode place d = .ok a) ∨ field.absent = some a

namespace Fields

variable {β γ : Type}

/-- Whether fields may make something out of what they may have at a place. -/
def MayMake {γ : Type} (place : Place) : Fields β γ → γ → β → Prop
  | .done, made, b => made = b
  | .field first rest, make, b => ∃ a, first.MayHave place a ∧ rest.MayMake place (make a) b

theorem mayMake_of_ofMembers {place : Place} {members : List (Option String × Draft)}
    {fields : Fields β γ} {make : γ} {b : β} (h : fields.ofMembers place members make = .ok b) :
    fields.MayMake place make b := by
  induction fields with
  | done =>
      cases h
      rfl
  | field first rest ih =>
      obtain ⟨a, ha, hrest⟩ := ofMembers_eq_ok_iff.mp h
      refine ⟨a, ?_, ih hrest⟩
      unfold Field.Takes at ha
      split at ha
      · next d _ => exact .inl ⟨d, ha⟩
      · exact .inr ha

theorem mayMake_of_ofItems {place : Place} {tooShort : Nat → Cause} {taken : Nat}
    {fields : Fields β γ} {make : γ} {items left : List Draft} {b : β}
    (h : fields.ofItems place tooShort taken make items = .ok (b, left)) :
    fields.MayMake place make b := by
  induction fields generalizing taken items with
  | done =>
      cases h
      rfl
  | field first rest ih =>
      cases items with
      | cons d items =>
          simp only [ofItems, bind_eq_ok_iff] at h
          obtain ⟨a, ha, hrest⟩ := h
          exact ⟨a, .inl ⟨d, ha⟩, ih hrest⟩
      | nil =>
          unfold ofItems at h
          split at h
          · next a ha => exact ⟨a, .inr ha, ih h⟩
          · cases h

end Fields

theorem Record.mayMake_of_decode {β : Type} {r : Record β} {place : Place} {d : Draft} {b : β}
    (h : r.decode place d = .ok b) :
    ∃ inner : Place, place.enter = .ok inner ∧ r.fields.MayMake inner r.make b := by
  cases d with
  | object members =>
      simp only [decode, bind_eq_ok_iff] at h
      obtain ⟨inner, henter, _, -, hmembers⟩ := h
      exact ⟨inner, henter, Fields.mayMake_of_ofMembers hmembers⟩
  | array items =>
      simp only [decode, bind_eq_ok_iff] at h
      obtain ⟨inner, henter, ⟨made, left⟩, hitems, hleft⟩ := h
      refine ⟨inner, henter, ?_⟩
      split at hleft
      · cases hleft
        exact Fields.mayMake_of_ofItems hitems
      · cases hleft
  | _ => exact absurd h Decoder.mismatch_ne_ok

end Json

/-! ## Messages -/

/-- Arguments leave the room they are written in, whichever way they were read. -/
theorem CallArgs.fits_of_decode {args : CallArgs} {d : Draft}
    (h : CallArgs.record.decode (.text nestingLimit) d = .ok args) : args.Fits := by
  obtain ⟨_, ⟨⟩, positional, hpositional, keyword, hkeyword, rfl⟩ := Record.mayMake_of_decode h
  intro v hv
  rcases List.mem_append.mp hv with hv | hv
  · rcases hpositional with ⟨e, he⟩ | habsent
    · obtain ⟨_, ⟨⟩, hread⟩ := Decoder.enter_of_list he
      obtain ⟨e, he⟩ := hread v hv
      exact Decoder.holds_of_value he
    · cases habsent
      cases hv
  · rcases hkeyword with ⟨e, he⟩ | habsent
    · obtain ⟨_, ⟨⟩, hread⟩ := Decoder.enter_of_keyed he
      obtain ⟨e, he⟩ := hread v hv
      exact Decoder.holds_of_value he
    · cases habsent
      cases hv

theorem Outcome.fits_of_decode {outcome : Outcome} {d : Draft}
    (h : Outcome.decode (.text nestingLimit) d = .ok outcome) : outcome.Fits := by
  rintro v rfl
  obtain ⟨⟨t, -, hdepth, rfl⟩, -⟩ := (Outcome.decode_eq_ok_iff _ d).mp h
  exact Nat.le_trans t.depth_canonical_le (Nat.le_of_lt_succ hdepth)

theorem Json.exists_draft {α : Type} {decode : Decoder α} {text : List (Option Char)} {a : α}
    (h : Json.read decode text = .ok a) : ∃ d, decode (.text nestingLimit) d = .ok a := by
  simp only [Json.read, bind_eq_ok_iff] at h
  obtain ⟨b, hb, h⟩ := h
  refine ⟨_, hb.trans ?_⟩
  split at h
  · cases h
  · exact h

theorem Wire.exists_draft {α : Type} {decode : Decoder α} {bytes : ByteArray} {a : α}
    (h : Wire.decodeBytes decode bytes = .ok a) : ∃ d, decode (.text nestingLimit) d = .ok a :=
  Json.exists_draft (Wire.decodeBytes_eq_ok_iff.mp h)

/-- Whether all that is accepted can be sent on.  It is encoded, and if it `readsBack` its encoding
is accepted as the same and encoded once more as it stands. -/
def SentOn {α : Type} (decode : ByteArray → Except Wire.Error α)
    (encode : α → Except Wire.Error ByteArray) (readsBack : α → Prop) : Prop :=
  ∀ bytes a, decode bytes = .ok a → ∃ sent, encode a = .ok sent ∧
    (readsBack a → decode sent = .ok a ∧ decode sent >>= encode = .ok sent)

theorem sentOn_of_read {α : Type} {decode : ByteArray → Except Wire.Error α}
    {encode : α → ByteArray} {readsBack : α → Prop}
    (h : ∀ bytes a, decode bytes = .ok a → readsBack a → decode (encode a) = .ok a) :
    SentOn decode (fun a ↦ .ok (encode a)) readsBack := by
  intro bytes a ha
  refine ⟨encode a, rfl, fun hread ↦ ?_⟩
  have hback := h bytes a ha hread
  refine ⟨hback, ?_⟩
  rw [hback]
  rfl

/-- Each of the four readers accepts nothing that cannot be sent on.  Arguments and outcomes hold
values, whose floats have to read back from their texts; no more is asked of their nesting. -/
theorem accepted_sent_on :
    SentOn Codec.json.decodeArgs Codec.json.encodeArgs CallArgs.ReadsBack ∧
    SentOn Codec.json.decodeOutcome Codec.json.encodeOutcome Outcome.ReadsBack ∧
    SentOn Request.decode (fun r ↦ .ok r.encode) (fun _ ↦ True) ∧
    SentOn Response.decode (fun r ↦ .ok r.encode) (fun _ ↦ True) := by
  refine ⟨sentOn_of_read ?_, sentOn_of_read ?_, sentOn_of_read ?_, sentOn_of_read ?_⟩
  · intro bytes args h hread
    obtain ⟨d, hd⟩ := Wire.exists_draft h
    exact (decodeArgs_encodeArgs args (hread.sendable (CallArgs.fits_of_decode hd))).2
  · intro bytes outcome h hread
    obtain ⟨d, hd⟩ := Wire.exists_draft h
    have hfits := Outcome.fits_of_decode hd
    exact (decodeOutcome_encodeOutcome outcome fun v hv ↦ ⟨hread v hv, hfits v hv⟩).2
  · intro bytes r _ _
    exact r.decode_encode
  · intro bytes r _ _
    exact r.decode_encode

/-- Arguments as an array of one section, which holds an object with its names out of order, one of
them twice and once spelled with an escape. -/
def untidyArgs : ByteArray :=
  " [ [ \x7b\"b\":[],\"a\":0.1,\"\\u0062\":null\x7d ] ]\n".toUTF8

/-- A call with its tag last and a member that no call has. -/
def untidyCall : ByteArray :=
  "\x7b\"payload\":[1],\"x\":[[]],\"method\":\"m\",\"object_id\":\"o\",\"op\":\"call\"\x7d".toUTF8

theorem scan_untidyArgs : Token.scan (textOfBytes untidyArgs) =
    [.openArray, .openArray, .openObject, .text "b", .colon, .openArray, .closeArray, .comma,
      .text "a", .colon, .number (some (.float ⟨false, ⟨0x3FB999999999999A, by decide⟩⟩)), .comma,
      .text "b", .colon, .null, .closeObject, .closeArray, .closeArray] := by decide +kernel

theorem scan_untidyCall : Token.scan (textOfBytes untidyCall) =
    [.openObject, .text "payload", .colon, .openArray, .number (some (.natural 1)), .closeArray,
      .comma, .text "x", .colon, .openArray, .openArray, .closeArray, .closeArray, .comma,
      .text "method", .colon, .text "m", .comma, .text "object_id", .colon, .text "o", .comma,
      .text "op", .colon, .text "call", .closeObject] := by decide +kernel

def untidyTree : Tree := .object [("b", .array []), ("a", (boxed 0).tree), ("b", .null)]

def tidyArgs : CallArgs := CallArgs.empty.push (.ofTree untidyTree)

theorem tree_untidyTree :
    (Value.ofTree untidyTree).tree = .object [("a", (boxed 0).tree), ("b", .null)] := by
  have hab : ("a" : String) < "b" := by decide
  have hba : ¬("b" : String) < "a" := by decide
  have hbb : ¬("b" : String) < "b" := by decide
  have hboxed : (boxed 0).tree.canonical = (boxed 0).tree := (boxed 0).property.canonical_eq
  simpa [untidyTree, Value.ofTree, Value.tree, Tree.canonical, Tree.canonicalMembers,
    Keyed.ofList, Keyed.insert, Keyed.insertEntry, Keyed.empty, hab, hba, hbb] using hboxed

theorem decodeArgs_untidyArgs : Codec.json.decodeArgs untidyArgs = .ok tidyArgs := by
  have hdraft : Draft.ofTokens (Token.scan (textOfBytes untidyArgs)) =
      (.array [.array [.ofTree untidyTree]], false) := by
    rw [scan_untidyArgs]
    rfl
  have hdepth : untidyTree.depth ≤ 125 := by decide
  have hvalue : Decoder.value (.text 125) (.ofTree untidyTree) = .ok (.ofTree untidyTree) :=
    Decoder.value_eq_ok_iff.mpr ⟨untidyTree, rfl, hdepth, rfl⟩
  have hcodec : Codec.json.decodeArgs = Wire.decodeBytes CallArgs.record.decode := rfl
  rw [hcodec, Wire.decodeBytes_eq_ok_iff, Json.readBytes, Json.read, hdraft]
  simp [Record.decode, CallArgs.record, Fields.ofItems, Field.optional, Decoder.list, Place.enter,
    nestingLimit, bind, Except.bind, pure, Except.pure, hvalue, tidyArgs, CallArgs.empty,
    CallArgs.push]

theorem readsBack_tidyArgs : tidyArgs.ReadsBack := by
  intro v hv
  have hvalue : v = .ofTree untidyTree := by
    simpa [tidyArgs, CallArgs.empty, CallArgs.push, Keyed.values, Keyed.empty] using hv
  rw [hvalue, tree_untidyTree]
  exact ⟨readsBack_boxed 0, trivial, trivial⟩

theorem decode_untidyCall :
    Request.decode untidyCall = .ok (.call ⟨"o"⟩ "m" ⟨#[1]⟩) := by
  rw [Request.decode, Wire.decodeBytes, Json.readBytes, Json.read, scan_untidyCall]
  rfl

theorem untidy_sent_on :
    (Codec.json.decodeArgs untidyArgs = .ok tidyArgs ∧
      ∃ sent, Codec.json.encodeArgs tidyArgs = .ok sent ∧
        Codec.json.decodeArgs sent = .ok tidyArgs ∧
        Codec.json.decodeArgs sent >>= Codec.json.encodeArgs = .ok sent) ∧
    (Value.ofTree untidyTree).tree = .object [("a", (boxed 0).tree), ("b", .null)] ∧
    ∃ call, Request.decode untidyCall = .ok call ∧ Request.decode call.encode = .ok call := by
  obtain ⟨hargs, -, hcalls, -⟩ := accepted_sent_on
  refine ⟨?_, tree_untidyTree, ?_⟩
  · obtain ⟨sent, hsent, hback⟩ := hargs untidyArgs tidyArgs decodeArgs_untidyArgs
    exact ⟨decodeArgs_untidyArgs, sent, hsent, hback readsBack_tidyArgs⟩
  · obtain ⟨_, ⟨⟩, hback⟩ := hcalls untidyCall _ decode_untidyCall
    exact ⟨_, decode_untidyCall, (hback trivial).1⟩

end RemoteObjects
