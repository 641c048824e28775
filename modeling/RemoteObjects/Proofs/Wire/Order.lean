import RemoteObjects.Proofs.Json.Naturals
import RemoteObjects.Proofs.Json.Schema
import RemoteObjects.Proofs.Wire.RoundTrip
import RemoteObjects.Retry.Config

/-!
# Messages and configurations are read in any order

Requests, responses and retry configurations are tagged records, and each of them follows a schema.
So the tag may stand anywhere, members that a variant has no use for are passed over, and an object
is refused for nothing but its tag and the fields of the variant that the tag names.
-/

namespace RemoteObjects

open Json

/-! ## Schemas -/

def Request.schema : Schema := [
  ("create", [⟨"object_type", .text, true⟩, ⟨"object_id", .text, true⟩, ⟨"args", .bytes, true⟩]),
  ("call", [⟨"object_id", .text, true⟩, ⟨"method", .text, true⟩, ⟨"payload", .bytes, true⟩]),
  ("ping", [])]

def Response.schema : Schema := [
  ("created", []),
  ("returned", [⟨"payload", .bytes, true⟩]),
  ("fault", [⟨"kind", .text, true⟩, ⟨"message", .text, true⟩]),
  ("pong", [])]

def RetryConfig.schema : Schema := [
  ("fixed", [⟨"max_attempts", .count, false⟩, ⟨"delay", .number, false⟩]),
  ("exponential", [⟨"max_attempts", .count, false⟩, ⟨"base_delay", .number, false⟩,
    ⟨"max_delay", .number, false⟩])]

namespace Json

/-! ## What the fields have to be -/

namespace Decoder

variable {α β : Type} {place : Place}

theorem exists_map_eq_ok_iff {decode : Decoder α} {f : α → β} {d : Draft} :
    (∃ b, decode.map f place d = .ok b) ↔ ∃ a, decode place d = .ok a := by
  simp [Decoder.map, map_eq_ok_iff]

theorem integer_eq_ok_iff {wanted : String} {low high i : Int} {t : Tree} :
    integer wanted low high place (.ofTree t) = .ok i ↔
      ∃ n, t = .number n ∧ n.toInt? = some i ∧ low ≤ i ∧ i ≤ high := by
  cases t with
  | number n =>
      rw [Draft.ofTree, integer]
      cases hn : n.toInt? with
      | none => simp [hn, mismatch_ne_ok]
      | some k =>
          simp only [hn, Tree.number.injEq, exists_eq_left', Option.some.injEq]
          split
          · next hk =>
              simp only [Except.ok.injEq]
              constructor
              · rintro rfl
                exact ⟨rfl, hk⟩
              · exact fun h ↦ h.1
          · next hk =>
              refine iff_of_false (by simp) ?_
              rintro ⟨rfl, hk'⟩
              exact hk hk'
  | _ => simp [Draft.ofTree, integer, mismatch_ne_ok]

/-- An integer without a sign is read just if it fits. -/
theorem exists_integer_iff {wanted : String} {high : Nat} {t : Tree} :
    (∃ i, integer wanted 0 high place (.ofTree t) = .ok i) ↔
      ∃ n : UInt64, t = .number (.natural n) ∧ n.toNat ≤ high := by
  simp only [integer_eq_ok_iff]
  constructor
  · rintro ⟨i, n, rfl, hi, hlow, hhigh⟩
    cases n with
    | natural n =>
        cases hi
        exact ⟨n, rfl, by omega⟩
    | negative below =>
        cases hi
        omega
    | float x => cases hi
  · rintro ⟨n, rfl, hn⟩
    exact ⟨n.toNat, .natural n, rfl, rfl, by omega, by omega⟩

theorem exists_mapM_iff {read : α → Except Cause β} {as : List α} :
    (∃ bs, as.mapM read = .ok bs) ↔ ∀ a ∈ as, ∃ b, read a = .ok b := by
  induction as with
  | nil => exact iff_of_true ⟨[], rfl⟩ (by simp)
  | cons a as ih =>
      rw [List.forall_mem_cons, ← ih]
      simp only [List.mapM_cons, bind_eq_ok_iff]
      constructor
      · rintro ⟨_, b, hb, bs, hbs, -⟩
        exact ⟨⟨b, hb⟩, bs, hbs⟩
      · rintro ⟨⟨b, hb⟩, bs, hbs⟩
        exact ⟨b :: bs, b, hb, bs, hbs, rfl⟩

theorem exists_bytes_iff {t : Tree} :
    (∃ b, bytes .buffer (.ofTree t) = .ok b) ↔ Shape.bytes.Fits t := by
  have hsize : ((UInt8.size : Int) - 1) = (255 : Nat) := rfl
  have huint8 (t : Tree) : (∃ b, uint8 .buffer (.ofTree t) = .ok b) ↔
      ∃ n : UInt64, t = .number (.natural n) ∧ n.toNat ≤ 255 := by
    rw [uint8, exists_map_eq_ok_iff, hsize, exists_integer_iff]
  rw [bytes, exists_map_eq_ok_iff]
  cases t with
  | array items =>
      have hlist : list uint8 .buffer (.ofTree (.array items)) =
          (items.map Draft.ofTree).mapM (uint8 .buffer) := by
        rw [Draft.ofTree, Draft.ofItems_eq_map]
        rfl
      rw [hlist, exists_mapM_iff]
      simp [Shape.Fits, huint8]
  | _ => simp [Draft.ofTree, list, mismatch_ne_ok, Shape.Fits]

end Decoder

namespace Field.Follows

theorem text (name : String) : (required name .text).Follows ⟨name, .text, true⟩ where
  name_eq := rfl
  absent_iff := by simp [required]
  decode_iff t := by
    cases t <;> simp [required, Decoder.text_eq_ok_iff, Draft.ofTree, Shape.Fits]

theorem objectId (name : String) :
    (required name ObjectId.decode).Follows ⟨name, .text, true⟩ where
  name_eq := rfl
  absent_iff := by simp [required]
  decode_iff t := Decoder.exists_map_eq_ok_iff.trans ((text name).decode_iff t)

theorem bytes (name : String) : (required name .bytes).Follows ⟨name, .bytes, true⟩ where
  name_eq := rfl
  absent_iff := by simp [required]
  decode_iff _ := Decoder.exists_bytes_iff

theorem count (name : String) (absent : UInt32) :
    (optional name .uint32 absent).Follows ⟨name, .count, false⟩ where
  name_eq := rfl
  absent_iff := by simp [optional]
  decode_iff t := by
    have hsize : ((UInt32.size : Int) - 1) = (4294967295 : Nat) := rfl
    rw [optional, Decoder.uint32, Decoder.exists_map_eq_ok_iff, hsize, Decoder.exists_integer_iff,
      Shape.Fits]
    exact exists_congr fun n ↦ and_congr_right fun _ ↦ Nat.lt_succ_iff.symm

theorem number (name : String) (absent : Binary64) :
    (optional name .float absent).Follows ⟨name, .number, false⟩ where
  name_eq := rfl
  absent_iff := by simp [optional]
  decode_iff t := by
    cases t <;> simp [optional, Decoder.float, Draft.ofTree, Shape.Fits, Decoder.mismatch_ne_ok]

end Field.Follows

end Json

/-! ## What the messages ask for -/

theorem Request.follows_schema : Request.tagged.Follows Request.schema where
  variants := by
    refine .cons (Variant.Follows.record ?_) (.cons (Variant.Follows.record ?_)
      (.cons (Variant.Follows.plain _ _) .nil))
    · exact .field (.text _) (.field (.objectId _) (.field (.bytes _) .done))
    · exact .field (.objectId _) (.field (.text _) (.field (.bytes _) .done))
  tag_ne := by simp [Request.schema, Request.tagged]

theorem Response.follows_schema : Response.tagged.Follows Response.schema where
  variants := by
    refine .cons (Variant.Follows.plain _ _) (.cons (Variant.Follows.record ?_)
      (.cons (Variant.Follows.record ?_) (.cons (Variant.Follows.plain _ _) .nil)))
    · exact .field (.bytes _) .done
    · exact .field (.text _) (.field (.text _) .done)
  tag_ne := by simp [Response.schema, Response.tagged]

theorem RetryConfig.follows_schema : RetryConfig.tagged.Follows RetryConfig.schema where
  variants := by
    refine .cons (Variant.Follows.record ?_) (.cons (Variant.Follows.record ?_) .nil)
    · exact .field (.count _ _) (.field (.number _ _) .done)
    · exact .field (.count _ _)
        (.field (.number _ _) (.field (.number _ _) .done))
  tag_ne := by simp [RetryConfig.schema, RetryConfig.tagged]

/-- Whether a text is an object with these members, no name twice, that is not nested too deep.  The
members are such that they can be held: no number is out of range, and each string has a value. -/
structure Json.Holds (text : List (Option Char)) (members : List (String × Tree)) : Prop where
  spelled : (Draft.ofTree (.object members)).SpelledBy text
  names : (members.map Prod.fst).Nodup
  depth_le : (Tree.object members).depth ≤ nestingLimit

theorem Json.Tagged.Follows.orderFree_text {σ ε α : Type} {t : Tagged α} {schema : Schema}
    (h : t.Follows schema) {text : σ → List (Option Char)} {read : σ → Except ε α}
    (hread : ∀ s a, read s = .ok a ↔ Json.read t.decode (text s) = .ok a) :
    OrderFree schema t.tag (fun s members ↦ Json.Holds (text s) members) read := by
  apply h.orderFree (show Place.enter (.text nestingLimit) = .ok (.text 126) from rfl)
  · exact fun hs ↦ hs.names
  · exact fun hs ↦ Nat.le_of_succ_le_succ hs.depth_le
  · intro s members hs a
    rw [hread, read_of_spelledBy hs.spelled]

theorem RetryConfig.ofString_eq_ok_iff {s : String} {config : RetryConfig} :
    RetryConfig.ofString s = .ok config ↔ Json.read tagged.decode (charsOf s) = .ok config := by
  rw [RetryConfig.ofString, Json.readString]
  cases Json.read tagged.decode (charsOf s) with
  | ok b => simp [Except.mapError]
  | error cause => simp [Except.mapError]

theorem RetryConfig.ofValue_eq_ok_iff {v : Value} {config : RetryConfig} :
    RetryConfig.ofValue v = .ok config ↔ tagged.decode .value (.ofTree v.tree) = .ok config := by
  rw [RetryConfig.ofValue, Value.decode]
  cases tagged.decode .value (.ofTree v.tree) with
  | ok b => simp [Except.mapError]
  | error cause => simp [Except.mapError]

theorem Json.Value.nodup_names {v : Value} {members : List (String × Tree)}
    (h : v.tree = .object members) : (members.map Prod.fst).Nodup := by
  have hcanonical : Tree.Canonical (.object members) := h ▸ v.property
  refine hcanonical.1.imp ?_
  rintro a _ hlt rfl
  exact String.lt_irrefl a hlt

/-- Requests, responses and retry configurations are read from the members of an object in any
order, whatever else stands among them that can be held, and are refused for their tag and their
fields alone.  In a text just the literals without a sign, a point or a power are natural
numbers. -/
theorem messages_order_free :
    OrderFree Request.schema "op" (fun bytes ↦ Json.Holds (textOfBytes bytes)) Request.decode ∧
    OrderFree Response.schema "op" (fun bytes ↦ Json.Holds (textOfBytes bytes)) Response.decode ∧
    OrderFree RetryConfig.schema "kind" (fun s ↦ Json.Holds (charsOf s)) RetryConfig.ofString ∧
    OrderFree RetryConfig.schema "kind" (fun v members ↦ v.tree = .object members)
      RetryConfig.ofValue ∧
    ∀ (l : Literal) (n : UInt64), l.Valid →
      (l.numeral.number? = some (.natural n) ↔ l.IsNatural n.toNat) := by
  refine ⟨?_, ?_, ?_, ?_, ?_⟩
  · exact Request.follows_schema.orderFree_text fun _ _ ↦ Wire.decodeBytes_eq_ok_iff
  · exact Response.follows_schema.orderFree_text fun _ _ ↦ Wire.decodeBytes_eq_ok_iff
  · exact RetryConfig.follows_schema.orderFree_text fun _ _ ↦ RetryConfig.ofString_eq_ok_iff
  · apply RetryConfig.follows_schema.orderFree (show Place.enter .value = .ok .value from rfl)
    · exact Value.nodup_names
    · exact fun _ ↦ trivial
    · intro v members hv config
      rw [RetryConfig.ofValue_eq_ok_iff, hv]
  · exact fun l n _ ↦ l.number?_eq_natural_iff n

example : RetryConfig.ofString "\x7b\"x\":null,\"max_attempts\":3,\"kind\":\"fixed\"\x7d" =
    .ok (.fixed 3 RetryConfig.defaultDelay) := by decide +kernel

/-- A number that is spelled well, but beyond all that can be held. -/
def enormous : Literal := ⟨false, [1], none, some ⟨'e', none, [9, 9, 9]⟩⟩

theorem enormous_valid : enormous.Valid where
  whole := ⟨by simp [enormous], by simp [enormous]⟩
  zero := by simp [enormous]
  fraction := by simp [enormous]
  power p hp := by
    cases hp
    exact ⟨.inl rfl, by simp, by simp, by simp⟩

/-- Members that nobody asks for have to be such that they can be held. -/
theorem ping_refused_of_enormous :
    Request.decode "\x7b\"op\":\"ping\"\x7d".toUTF8 = .ok .ping ∧ enormous.Valid ∧
      ∀ request, Request.decode
        ("\x7b\"op\":\"ping\",\"x\":" ++ .ofList enormous.text ++ "\x7d").toUTF8 ≠ .ok request := by
  refine ⟨?_, enormous_valid, fun request hrequest ↦ ?_⟩
  · have hscan : Token.scan (textOfBytes "\x7b\"op\":\"ping\"\x7d".toUTF8) =
        [.openObject, .text "op", .colon, .text "ping", .closeObject] := by decide +kernel
    rw [Request.decode, Wire.decodeBytes, readBytes, Json.read, hscan]
    rfl
  · have hscan : Token.scan (textOfBytes
        ("\x7b\"op\":\"ping\",\"x\":" ++ .ofList enormous.text ++ "\x7d").toUTF8) =
        [.openObject, .text "op", .colon, .text "ping", .comma, .text "x", .colon, .number none,
          .closeObject] := by decide +kernel
    rw [Request.decode, Wire.decodeBytes, readBytes, Json.read, hscan] at hrequest
    cases hrequest

end RemoteObjects
