import RemoteObjects.Proofs.Json.Bytes
import RemoteObjects.Proofs.Wire.RoundTrip

/-!
# An outcome is read from what says just one

A text is read as an outcome if it is an object with one member, `ok` or `err`, and nothing else,
and only then.  A value has to be JSON with a value throughout.  A fault is told by its two strings,
and whatever else stands beside them in an object has to be JSON in form only.
-/

namespace RemoteObjects

open Json

namespace Json

/-- Whether an object has one member of a name, and `d` stands under it. -/
def Draft.HasOnce (members : List (Option String × Draft)) (name : String) (d : Draft) : Prop :=
  (members.map Prod.fst).count (some name) = 1 ∧ (some name, d) ∈ members

theorem Draft.hasOnce_iff {members : List (Option String × Draft)} {name : String} {d : Draft} :
    HasOnce members name d ↔ (members.map Prod.fst).count (some name) ≤ 1 ∧
      members.lookup (some name) = some d := by
  constructor
  · rintro ⟨hcount, hmem⟩
    exact ⟨hcount.le, (lookup_eq_some_iff hcount.le).mpr hmem⟩
  · rintro ⟨hcount, hlookup⟩
    have hmem := (lookup_eq_some_iff hcount).mp hlookup
    have hpos := List.count_pos_iff.mpr (List.mem_map_of_mem (f := Prod.fst) hmem)
    simp only at hpos
    exact ⟨by omega, hmem⟩

end Json

namespace RemoteFault

/-- Whether a document tells a fault: an object in which each of the two names stands once, with
its string, or an array of the two strings. -/
def ToldBy (f : RemoteFault) : Draft → Prop
  | .object members => (∀ m ∈ members, m.1 ≠ none) ∧
      Draft.HasOnce members "kind" (.text (some f.kind)) ∧
      Draft.HasOnce members "message" (.text (some f.message))
  | .array items => items = [.text (some f.kind), .text (some f.message)]
  | _ => False

theorem takes_text {name s : String} {place : Place} {members : List (Option String × Draft)} :
    (Field.required name .text).Takes place members s ↔
      members.lookup (some name) = some (.text (some s)) := by
  simp only [Field.Takes, Field.required]
  cases members.lookup (some name) with
  | some d => simp [Decoder.text_eq_ok_iff]
  | none => simp

theorem ofMembers_eq_ok_iff (f : RemoteFault) (place : Place)
    (members : List (Option String × Draft)) :
    record.fields.ofMembers place members record.make = .ok f ↔
      members.lookup (some "kind") = some (.text (some f.kind)) ∧
        members.lookup (some "message") = some (.text (some f.message)) := by
  simp only [record, Fields.ofMembers_eq_ok_iff, takes_text, Fields.ofMembers_done,
    Except.ok.injEq]
  constructor
  · rintro ⟨kind, hkind, message, hmessage, rfl⟩
    exact ⟨hkind, hmessage⟩
  · rintro ⟨hkind, hmessage⟩
    exact ⟨f.kind, hkind, f.message, hmessage, rfl⟩

theorem examine?_isSome {name : String} :
    (record.fields.examine? name).isSome = true ↔ name = "kind" ∨ name = "message" := by
  simp only [record, Fields.examine?, Field.required]
  by_cases hkind : "kind" = name
  · simp [hkind]
  · by_cases hmessage : "message" = name
    · simp [hmessage]
    · simp [hkind, hmessage, Ne.symm hkind, Ne.symm hmessage]

/-- The two strings have to be strings, and all else has to be JSON. -/
theorem passes_iff {place : Place} {name : String} {d : Draft} :
    record.fields.Passes place name d ↔ if name = "kind" ∨ name = "message" then
      ∃ s, d = .text (some s) else d.closed = true := by
  have htext : (Decoder.text.map fun _ ↦ ()) place d = .ok () ↔ ∃ s, d = .text (some s) := by
    simp [Decoder.map, map_eq_ok_iff, Decoder.text_eq_ok_iff]
  simp only [Fields.Passes, record, Fields.examine?, Field.required]
  by_cases hkind : "kind" = name
  · subst hkind
    simpa using htext
  · by_cases hmessage : "message" = name
    · subst hmessage
      simpa using htext
    · simp [hkind, hmessage, Ne.symm hkind, Ne.symm hmessage]

theorem decode_object_iff (f : RemoteFault) {place inner : Place}
    (henter : place.enter = .ok inner) {members : List (Option String × Draft)} :
    record.decode place (.object members) = .ok f ↔
      (f.ToldBy (.object members) ∧ Draft.closedMembers members = true) := by
  rw [record.decode_object_eq_ok_iff henter, Fields.examine_eq_ok_iff, ofMembers_eq_ok_iff]
  simp only [Fields.NoneTwice, examine?_isSome, passes_iff, List.not_mem_nil, if_false,
    Nat.zero_add, ToldBy, Draft.hasOnce_iff, Draft.closedMembers_iff]
  constructor
  · rintro ⟨⟨hmembers, hcount⟩, hkind, hmessage⟩
    refine ⟨⟨?_, ⟨hcount _ (.inl rfl), hkind⟩, hcount _ (.inr rfl), hmessage⟩, ?_⟩
    · intro m hm
      obtain ⟨name, hname, -⟩ := hmembers m hm
      simp [hname]
    · intro m hm
      obtain ⟨name, -, hd⟩ := hmembers m hm
      split at hd
      · obtain ⟨s, hs⟩ := hd
        rw [hs]
        rfl
      · exact hd
  · rintro ⟨⟨hnames, ⟨hkindCount, hkind⟩, hmessageCount, hmessage⟩, hclosed⟩
    refine ⟨⟨?_, ?_⟩, hkind, hmessage⟩
    · rintro ⟨_ | name, d⟩ hm
      · exact absurd rfl (hnames _ hm)
      · refine ⟨name, rfl, ?_⟩
        split
        · next hname =>
            rcases hname with rfl | rfl
            · rw [(lookup_eq_some_iff hkindCount).mpr hm] at hkind
              exact ⟨_, Option.some.inj hkind⟩
            · rw [(lookup_eq_some_iff hmessageCount).mpr hm] at hmessage
              exact ⟨_, Option.some.inj hmessage⟩
        · exact hclosed _ hm
    · rintro name (rfl | rfl)
      · exact hkindCount
      · exact hmessageCount

theorem decode_array_iff (f : RemoteFault) {place inner : Place}
    (henter : place.enter = .ok inner) {items : List Draft} :
    record.decode place (.array items) = .ok f ↔ f.ToldBy (.array items) := by
  simp only [Record.decode, henter, bind_eq_ok_iff]
  constructor
  · rintro ⟨_, ⟨⟩, ⟨made, rest⟩, hitems, hrest⟩
    rcases items with _ | ⟨d, _ | ⟨e, items⟩⟩
    · cases hitems
    · simp only [record, Fields.ofItems, bind_eq_ok_iff] at hitems
      obtain ⟨_, _, hitems⟩ := hitems
      cases hitems
    · simp only [record, Fields.ofItems, bind_eq_ok_iff] at hitems
      obtain ⟨kind, hkind, message, hmessage, hitems⟩ := hitems
      cases hitems
      obtain rfl := Decoder.text_eq_ok_iff.mp hkind
      obtain rfl := Decoder.text_eq_ok_iff.mp hmessage
      cases rest with
      | nil =>
          cases hrest
          rfl
      | cons d rest => cases hrest
  · rintro h
    cases h
    exact ⟨inner, rfl, (f, []), rfl, rfl⟩

theorem decode_eq_ok_iff (f : RemoteFault) {place inner : Place} (henter : place.enter = .ok inner)
    {d : Draft} : record.decode place d = .ok f ↔ f.ToldBy d ∧ d.closed = true := by
  cases d with
  | object members => exact f.decode_object_iff henter
  | array items =>
      rw [f.decode_array_iff henter]
      refine ⟨fun h ↦ ⟨h, ?_⟩, fun h ↦ h.1⟩
      cases h
      rfl
  | _ => simp [Record.decode, Decoder.mismatch_ne_ok, ToldBy]

end RemoteFault

namespace Outcome

/-- Whether a document tells an outcome. -/
def ToldBy : Outcome → Draft → Prop
  | .ok v, d => ∃ t : Tree, d = .object [(some "ok", .ofTree t)] ∧ t.depth < nestingLimit ∧
      Value.ofTree t = v
  | .error f, d => ∃ e : Draft, d = .object [(some "err", e)] ∧ f.ToldBy e

/-- The one member, which is told by its name and has none after it. -/
theorem decode_member_iff (o : Outcome) (name : String) (d : Draft)
    (rest : List (Option String × Draft)) :
    decode (.text nestingLimit) (.object ((some name, d) :: rest)) = .ok o ↔
      rest = [] ∧ ((name = "ok" ∧ ∃ v, Decoder.value (.text 126) d = .ok v ∧ .ok v = o) ∨
        name = "err" ∧ ∃ f, RemoteFault.record.decode (.text 126) d = .ok f ∧ .error f = o) := by
  have hlast (outcome : Outcome) : (if rest.isEmpty then return outcome else throw .malformed :
      Except Cause Outcome) = .ok o ↔ rest = [] ∧ outcome = o := by
    cases rest with
    | nil => simp [pure, Except.pure]
    | cons m rest => simp [throw, throwThe, MonadExceptOf.throw]
  have henter : Place.enter (.text nestingLimit) = .ok (.text 126) := rfl
  by_cases hok : name = "ok"
  · subst hok
    simp only [decode, henter, bind_eq_ok_iff, map_eq_ok_iff, if_true, hlast]
    constructor
    · rintro ⟨_, ⟨⟩, _, ⟨v, hv, rfl⟩, hrest, ho⟩
      exact ⟨hrest, .inl ⟨trivial, v, hv, ho⟩⟩
    · rintro ⟨hrest, ⟨-, v, hv, ho⟩ | ⟨h, -⟩⟩
      · exact ⟨_, rfl, _, ⟨v, hv, rfl⟩, hrest, ho⟩
      · exact absurd h (by decide)
  · by_cases herr : name = "err"
    · subst herr
      simp only [decode, henter, bind_eq_ok_iff, map_eq_ok_iff, if_neg hok, if_true, hlast]
      constructor
      · rintro ⟨_, ⟨⟩, _, ⟨f, hf, rfl⟩, hrest, ho⟩
        exact ⟨hrest, .inr ⟨trivial, f, hf, ho⟩⟩
      · rintro ⟨hrest, ⟨h, -⟩ | ⟨-, f, hf, ho⟩⟩
        · exact absurd h hok
        · exact ⟨_, rfl, _, ⟨f, hf, rfl⟩, hrest, ho⟩
    · simp [decode, henter, bind_eq_ok_iff, hok, herr]

theorem decode_eq_ok_iff (o : Outcome) (d : Draft) :
    decode (.text nestingLimit) d = .ok o ↔ o.ToldBy d ∧ d.closed = true := by
  have henter : Place.enter (.text 126) = .ok (.text 125) := rfl
  have hclosed (name : Option String) (e : Draft) :
      (Draft.object [(name, e)]).closed = e.closed := by
    simp [Draft.closed, Draft.closedMembers]
  constructor
  · intro h
    unfold decode at h
    split at h
    · next name e rest =>
        obtain ⟨rfl, ⟨rfl, v, hv, rfl⟩ | ⟨rfl, f, hf, rfl⟩⟩ :=
          (decode_member_iff o name e rest).mp h
        · obtain ⟨t, rfl, hdepth, hvalue⟩ := Decoder.value_eq_ok_iff.mp hv
          rw [hclosed]
          exact ⟨⟨t, rfl, Nat.lt_succ_of_le hdepth, hvalue⟩, Draft.closed_ofTree t⟩
        · obtain ⟨htold, hf⟩ := (f.decode_eq_ok_iff henter).mp hf
          rw [hclosed]
          exact ⟨⟨e, rfl, htold⟩, hf⟩
    · split at h <;> cases h
    · simp only [bind_eq_ok_iff] at h
      obtain ⟨_, _, h⟩ := h
      cases h
    · cases h
  · rintro ⟨htold, hd⟩
    cases o with
    | ok v =>
        obtain ⟨t, rfl, hdepth, hvalue⟩ := htold
        have hv : Decoder.value (.text 126) (.ofTree t) = .ok v :=
          Decoder.value_eq_ok_iff.mpr ⟨t, rfl, Nat.le_of_lt_succ hdepth, hvalue⟩
        exact (decode_member_iff _ _ _ _).mpr ⟨rfl, .inl ⟨rfl, v, hv, rfl⟩⟩
    | error f =>
        obtain ⟨e, rfl, htold⟩ := htold
        rw [hclosed] at hd
        have hf := (f.decode_eq_ok_iff henter).mpr ⟨htold, hd⟩
        exact (decode_member_iff _ _ _ _).mpr ⟨rfl, .inr ⟨rfl, f, hf, rfl⟩⟩

/-- Whether bytes hold a document that tells an outcome, with blanks around it at most. -/
def WrittenIn : Outcome → ByteArray → Prop
  | .ok v, bytes => ∃ (s : String) (t : Tree), bytes = s.toUTF8 ∧
      (Draft.object [(some "ok", .ofTree t)]).SpelledBy (charsOf s) ∧
      (Tree.object [("ok", t)]).depth ≤ nestingLimit ∧ Value.ofTree t = v
  | .error f, bytes => ∃ d : Draft, (Draft.object [(some "err", d)]).SpelledBy (textOfBytes bytes) ∧
      f.ToldBy d

theorem writtenIn_iff (o : Outcome) (bytes : ByteArray) :
    o.WrittenIn bytes ↔ ∃ d : Draft, d.SpelledBy (textOfBytes bytes) ∧ o.ToldBy d := by
  cases o with
  | ok v =>
      constructor
      · rintro ⟨s, t, rfl, hspelled, hdepth, hv⟩
        have hdepth : max t.depth 0 + 1 ≤ nestingLimit := hdepth
        rw [textOfBytes_toUTF8]
        exact ⟨_, hspelled, t, rfl, by omega, hv⟩
      · rintro ⟨_, hspelled, t, rfl, hdepth, hv⟩
        obtain ⟨s, hs, hspelled⟩ :=
          @Tree.exists_toUTF8_of_spelledBy (.object [("ok", t)]) bytes hspelled
        refine ⟨s, t, hs, hspelled, ?_, hv⟩
        change max t.depth 0 + 1 ≤ nestingLimit
        omega
  | error f =>
      constructor
      · rintro ⟨d, hspelled, htold⟩
        exact ⟨_, hspelled, d, rfl, htold⟩
      · rintro ⟨_, hspelled, d, rfl, htold⟩
        exact ⟨d, hspelled, htold⟩

theorem whole_decode : Decoder.Whole decode := fun d o h ↦ ((o.decode_eq_ok_iff d).mp h).2

end Outcome

/-- Bytes are read as an outcome just if they hold a document that tells it, and are refused as what
cannot be decoded just if they hold none. -/
theorem Codec.json_reads_one_outcome (bytes : ByteArray) :
    (∀ o, Codec.json.decodeOutcome bytes = .ok o ↔ o.WrittenIn bytes) ∧
      ((∃ reason, Codec.json.decodeOutcome bytes = .error (.decode reason)) ↔
        ∀ o : Outcome, ¬o.WrittenIn bytes) := by
  have hread (o : Outcome) : Codec.json.decodeOutcome bytes = .ok o ↔ o.WrittenIn bytes := by
    change Wire.decodeBytes Outcome.decode bytes = .ok o ↔ _
    rw [Wire.decodeBytes_eq_ok_iff, Json.readBytes, read_eq_ok_iff Outcome.whole_decode,
      o.writtenIn_iff]
    refine exists_congr fun d ↦ and_congr_right fun hspelled ↦ ?_
    rw [o.decode_eq_ok_iff d, and_iff_left hspelled.1]
  refine ⟨hread, ?_⟩
  simp only [← hread]
  exact Wire.decodeBytes_error_iff

/-- A fault with one more member, whose string has a byte that is no character. -/
def strayFault : ByteArray :=
  "\x7b\"err\":\x7b\"kind\":\"K\",\"message\":\"m\",\"x\":\"".toUTF8 ++ ⟨#[0xff]⟩ ++
    "\"\x7d\x7d".toUTF8

theorem not_isValidUTF8_strayFault : ¬strayFault.IsValidUTF8 := by decide +kernel

theorem scan_strayFault : Token.scan (textOfBytes strayFault) =
    [.openObject, .text "err", .colon, .openObject, .text "kind", .colon, .text "K", .comma,
      .text "message", .colon, .text "m", .comma, .text "x", .colon, .text none, .closeObject,
      .closeObject] := by decide +kernel

/-- Members of a fault that nobody asks for need not be UTF-8. -/
theorem Codec.json_reads_strayFault :
    Codec.json.decodeOutcome strayFault = .ok (.error ⟨"K", "m"⟩) ∧
      ¬∃ s : String, strayFault = s.toUTF8 := by
  constructor
  · change Wire.decodeBytes Outcome.decode strayFault = _
    rw [Wire.decodeBytes, Json.readBytes, Json.read, scan_strayFault]
    rfl
  · rintro ⟨s, hs⟩
    apply not_isValidUTF8_strayFault
    rw [hs]
    exact s.isValidUTF8

end RemoteObjects
