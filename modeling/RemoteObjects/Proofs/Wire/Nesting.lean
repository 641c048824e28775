import RemoteObjects.Proofs.Wire.RoundTrip

/-!
# How deep values may be nested

A text holds at most so many containers in one another, and the decoders count them while the
encoders do not.  So arguments and outcomes are read back from their own bytes as long as their
values leave room for what is written around them, and beyond that they are refused for their
depth and for nothing else.
-/

namespace RemoteObjects

open Json

namespace Json

/-! ## Documents that are too deep -/

namespace Draft

mutual

theorem tree_tooDeep : ∀ (t : Tree) {room : Nat}, room < t.depth →
    (ofTree t).tree (.text room) = .error .tooDeep
  | .null, _, h | .bool _, _, h | .number _, _, h | .text _, _, h => absurd h (Nat.not_lt_zero _)
  | .array _, 0, _ | .object _, 0, _ => rfl
  | .array items, room + 1, h => by
      have hitems := treeItems_tooDeep items (Nat.lt_of_succ_lt_succ h)
      rw [ofTree, Draft.tree]
      simp only [Place.enter, bind, Except.bind, hitems]
  | .object members, room + 1, h => by
      have hmembers := treeMembers_tooDeep members (Nat.lt_of_succ_lt_succ h)
      rw [ofTree, Draft.tree]
      simp only [Place.enter, bind, Except.bind, hmembers]

theorem treeItems_tooDeep : ∀ (items : List Tree) {room : Nat},
    room < Tree.depthItems items → treeItems (.text room) (ofItems items) = .error .tooDeep
  | [], _, h => absurd h (Nat.not_lt_zero _)
  | t :: rest, room, h => by
      rw [ofItems, treeItems]
      by_cases ht : room < t.depth
      · rw [tree_tooDeep t ht]
        rfl
      · -- The first item fits, so the fault is met in the others.
        have hfirst := @tree_ofTree t (.text room) (Nat.not_lt.mp ht)
        have hmax : room < max t.depth (Tree.depthItems rest) := h
        have hrest : room < Tree.depthItems rest := by omega
        rw [hfirst, treeItems_tooDeep rest hrest]
        rfl

theorem treeMembers_tooDeep : ∀ (members : List (String × Tree)) {room : Nat},
    room < Tree.depthMembers members →
      treeMembers (.text room) (ofMembers members) = .error .tooDeep
  | [], _, h => absurd h (Nat.not_lt_zero _)
  | (name, t) :: rest, room, h => by
      rw [ofMembers, treeMembers]
      by_cases ht : room < t.depth
      · rw [tree_tooDeep t ht]
        rfl
      · have hfirst := @tree_ofTree t (.text room) (Nat.not_lt.mp ht)
        have hmax : room < max t.depth (Tree.depthMembers rest) := h
        have hrest : room < Tree.depthMembers rest := by omega
        rw [hfirst, treeMembers_tooDeep rest hrest]
        rfl

end

end Draft

namespace Decoder

variable {α β γ : Type}

theorem value_tooDeep (v : Value) {room : Nat} (h : room < v.tree.depth) :
    value (.text room) (.ofTree v.tree) = .error .tooDeep := by
  rw [value, Draft.tree_tooDeep v.tree h]
  rfl

/-- If some entries are refused, all for the same cause, so is the whole list. -/
theorem mapM_error {read : α → Except Cause β} {cause : Cause} {as : List α}
    (h : ∀ a ∈ as, (∃ b, read a = .ok b) ∨ read a = .error cause)
    (hbad : ∃ a ∈ as, read a = .error cause) : as.mapM read = .error cause := by
  induction as with
  | nil =>
      obtain ⟨a, ha, -⟩ := hbad
      cases ha
  | cons a as ih =>
      rw [List.mapM_cons]
      rcases h a List.mem_cons_self with ⟨b, hb⟩ | hb
      · have hrest : ∃ c ∈ as, read c = .error cause := by
          obtain ⟨c, hc, herror⟩ := hbad
          rcases List.mem_cons.mp hc with rfl | hc
          · rw [hb] at herror
            cases herror
          · exact ⟨c, hc, herror⟩
        rw [hb, ih (fun c hc ↦ h c (List.mem_cons_of_mem a hc)) hrest]
        rfl
      · rw [hb]
        rfl

theorem value_or_tooDeep (v : Value) (room : Nat) :
    (∃ w, value (.text room) (.ofTree v.tree) = .ok w) ∨
      value (.text room) (.ofTree v.tree) = .error .tooDeep := by
  by_cases h : room < v.tree.depth
  · exact .inr (value_tooDeep v h)
  · exact .inl ⟨v, value_ofTree v (Nat.not_lt.mp h)⟩

theorem list_tooDeep {vs : List Value} {room : Nat} (h : ∃ v ∈ vs, room < v.tree.depth) :
    list value (.text (room + 1)) (.ofTree (.array (vs.map Value.tree))) = .error .tooDeep := by
  have hitems : ((vs.map Value.tree).map Draft.ofTree).mapM (value (.text room)) =
      .error .tooDeep := by
    apply mapM_error
    · intro d hd
      rw [List.map_map] at hd
      obtain ⟨v, -, rfl⟩ := List.mem_map.mp hd
      exact value_or_tooDeep v room
    · obtain ⟨v, hv, hdeep⟩ := h
      exact ⟨_, List.mem_map_of_mem (List.mem_map_of_mem hv), value_tooDeep v hdeep⟩
  rw [Draft.ofTree, Draft.ofItems_eq_map]
  exact hitems

theorem keyed_tooDeep {vs : Keyed Value} {room : Nat} (h : ∃ v ∈ vs.values, room < v.tree.depth) :
    keyed value (.text (room + 1)) (.ofTree (.object (vs.map Value.tree).entries)) =
      .error .tooDeep := by
  have hmembers : (((vs.map Value.tree).entries).map
      fun e ↦ (some e.1, Draft.ofTree e.2)).mapM (member value (.text room)) =
        .error .tooDeep := by
    apply mapM_error
    · intro member hmember
      simp only [Keyed.map, List.map_map] at hmember
      obtain ⟨⟨name, v⟩, -, rfl⟩ := List.mem_map.mp hmember
      rcases value_or_tooDeep v room with ⟨w, hw⟩ | hw
      · exact .inl ⟨(name, w), member_ok name hw⟩
      · exact .inr (member_error name hw)
    · obtain ⟨v, hv, hdeep⟩ := h
      obtain ⟨⟨name, v⟩, he, rfl⟩ := List.mem_map.mp hv
      refine ⟨(some name, .ofTree v.tree), ?_, member_error name (value_tooDeep v hdeep)⟩
      exact List.mem_map_of_mem (List.mem_map_of_mem he)
  rw [Draft.ofTree, Draft.ofMembers_eq_map, keyed_object rfl, hmembers]
  rfl

end Decoder

end Json

/-! ## Arguments and outcomes -/

/-- Whether the values leave room for the two containers that arguments are written in. -/
def CallArgs.Fits (args : CallArgs) : Prop :=
  ∀ v ∈ args.positional ++ args.keyword.values, v.tree.depth ≤ 125

/-- Whether a value leaves room for the container that an outcome is written in; a fault does. -/
def Outcome.Fits (outcome : Outcome) : Prop := ∀ v, outcome = .ok v → v.tree.depth ≤ 126

theorem CallArgs.ReadsBack.sendable {args : CallArgs} (h : args.ReadsBack) (hfits : args.Fits) :
    args.Sendable := by
  have hvalue (v : Value) (hv : v ∈ args.positional ++ args.keyword.values) : v.Sendable 125 :=
    ⟨h v hv, hfits v hv⟩
  exact ⟨fun v hv ↦ hvalue v (List.mem_append_left _ hv),
    fun v hv ↦ hvalue v (List.mem_append_right _ hv)⟩

theorem CallArgs.decode_tooDeep (args : CallArgs) (h : ¬args.Fits) :
    CallArgs.record.decode (.text nestingLimit) (.ofTree args.tree) = .error .tooDeep := by
  simp only [CallArgs.Fits, Classical.not_forall, Nat.not_le] at h
  obtain ⟨v, hv, hdeep⟩ := h
  by_cases hpositional : ∃ v ∈ args.positional, 125 < v.tree.depth
  · have hlist := Decoder.list_tooDeep hpositional
    simp only [Draft.ofTree] at hlist
    simp [Record.decode, CallArgs.record, CallArgs.tree, Draft.ofTree, Draft.ofMembers,
      Place.enter, nestingLimit, bind, Except.bind, Fields.examine, Fields.examine?,
      Field.optional, Decoder.map, Value.array, Value.object, Value.tree, Except.map, hlist]
  · -- The positional arguments are read, so the fault is met in the keyword arguments.
    have hshallow (w : Value) (hw : w ∈ args.positional) : w.tree.depth ≤ 125 :=
      Nat.not_lt.mp fun hdeep ↦ hpositional ⟨w, hw, hdeep⟩
    have hkeyword : ∃ v ∈ args.keyword.values, 125 < v.tree.depth := by
      rcases List.mem_append.mp hv with hv | hv
      · exact absurd ⟨v, hv, hdeep⟩ hpositional
      · exact ⟨v, hv, hdeep⟩
    have hlist : Decoder.list Decoder.value (.text 126)
        (.ofTree (.array (args.positional.map Value.tree))) = .ok args.positional :=
      Decoder.list_ofItems rfl fun w hw ↦ @Decoder.value_ofTree w (.text 125) (hshallow w hw)
    have hkeyed := Decoder.keyed_tooDeep hkeyword
    simp only [Draft.ofTree] at hlist hkeyed
    simp [Record.decode, CallArgs.record, CallArgs.tree, Draft.ofTree, Draft.ofMembers,
      Place.enter, nestingLimit, bind, Except.bind, Fields.examine, Fields.examine?,
      Field.optional, Decoder.map, Value.array, Value.object, Value.tree, Except.map, hlist,
      hkeyed]

theorem Outcome.decode_tooDeep (outcome : Outcome) (h : ¬outcome.Fits) :
    Outcome.decode (.text nestingLimit) (.ofTree outcome.tree) = .error .tooDeep := by
  cases outcome with
  | ok v =>
      have hdeep : 126 < v.tree.depth := by
        apply Nat.lt_of_not_le
        intro hv
        apply h
        rintro w hw
        cases hw
        exact hv
      have hvalue := Decoder.value_tooDeep v hdeep
      simp [Outcome.decode, Outcome.tree, Draft.ofTree, Draft.ofMembers, Place.enter, nestingLimit,
        bind, Except.bind, Except.map, hvalue]
  | error f =>
      exfalso
      apply h
      intro v hv
      cases hv

theorem decodeArgs_tooDeep {args : CallArgs} (hread : args.ReadsBack) (h : ¬args.Fits) :
    Codec.json.decodeArgs (Wire.encodeTree args.tree) =
      .error (.decode Cause.tooDeep.message) := by
  change Wire.decodeBytes CallArgs.record.decode _ = _
  rw [Wire.decodeBytes_encodeTree (args.readsBack_tree hread), args.decode_tooDeep h]
  rfl

theorem decodeOutcome_tooDeep {outcome : Outcome} (hread : outcome.ReadsBack)
    (h : ¬outcome.Fits) : Codec.json.decodeOutcome (Wire.encodeTree outcome.tree) =
      .error (.decode Cause.tooDeep.message) := by
  change Wire.decodeBytes Outcome.decode _ = _
  rw [Wire.decodeBytes_encodeTree (outcome.readsBack_tree hread), outcome.decode_tooDeep h]
  rfl

/-- What is read back if it fits and refused otherwise is never taken for something else. -/
theorem eq_of_read {α : Type} {read : Except Wire.Error α} {a : α} {fits : Prop} {e : Wire.Error}
    (hfits : fits → read = .ok a) (hrefused : ¬fits → read = .error e) {other : α}
    (h : read = .ok other) : other = a := by
  by_cases hcase : fits
  · rw [hfits hcase] at h
    exact (Except.ok.inj h).symm
  · rw [hrefused hcase] at h
    cases h

/-- Arguments and outcomes are written whatever they are.  If their floats read back from their
texts, they are read back themselves as long as they fit, and are refused as too deep if they do
not; so nothing else is ever read in their place, and above all no fault in the place of a value. -/
theorem Codec.json_reads_back :
    (∀ args : CallArgs, ∃ bytes, Codec.json.encodeArgs args = .ok bytes ∧
      (args.ReadsBack →
        (args.Fits → Codec.json.decodeArgs bytes = .ok args) ∧
        (¬args.Fits → Codec.json.decodeArgs bytes = .error (.decode Cause.tooDeep.message)) ∧
        ∀ other, Codec.json.decodeArgs bytes = .ok other → other = args)) ∧
    ∀ outcome : Outcome, ∃ bytes, Codec.json.encodeOutcome outcome = .ok bytes ∧
      (outcome.ReadsBack →
        (outcome.Fits → Codec.json.decodeOutcome bytes = .ok outcome) ∧
        (¬outcome.Fits →
          Codec.json.decodeOutcome bytes = .error (.decode Cause.tooDeep.message)) ∧
        ∀ other, Codec.json.decodeOutcome bytes = .ok other → other = outcome) := by
  constructor
  · intro args
    refine ⟨Wire.encodeTree args.tree, rfl, fun hread ↦ ?_⟩
    have hfits (h : args.Fits) := (decodeArgs_encodeArgs args (hread.sendable h)).2
    have hrefused (h : ¬args.Fits) := decodeArgs_tooDeep hread h
    exact ⟨hfits, hrefused, fun other ↦ eq_of_read hfits hrefused⟩
  · intro outcome
    refine ⟨Wire.encodeTree outcome.tree, rfl, fun hread ↦ ?_⟩
    have hfits (h : outcome.Fits) :=
      (decodeOutcome_encodeOutcome outcome fun v hv ↦ ⟨hread v hv, h v hv⟩).2
    have hrefused (h : ¬outcome.Fits) := decodeOutcome_tooDeep hread h
    exact ⟨hfits, hrefused, fun other ↦ eq_of_read hfits hrefused⟩

/-- The value `0.1` inside so many arrays. -/
def boxed : Nat → Value
  | 0 => .ofTree (.number (.float ⟨false, ⟨0x3FB999999999999A, by decide⟩⟩))
  | n + 1 => .array [boxed n]

theorem depth_boxed (n : Nat) : (boxed n).tree.depth = n := by
  induction n with
  | zero => rfl
  | succ n ih =>
      change max (boxed n).tree.depth 0 + 1 = n + 1
      rw [ih, Nat.max_zero]

theorem readsBack_boxed (n : Nat) : (boxed n).tree.ReadsBack := by
  induction n with
  | zero =>
      rintro x ⟨⟩
      rw [Number.ReadsBack]
      decide +kernel
  | succ n ih => exact ⟨ih, trivial⟩

theorem mem_push_boxed {n : Nat} {v : Value} : v ∈ (CallArgs.empty.push (boxed n)).positional ++
    (CallArgs.empty.push (boxed n)).keyword.values ↔ v = boxed n := by
  simp [CallArgs.empty, CallArgs.push, Keyed.values, Keyed.empty]

theorem CallArgs.fits_push_boxed {n : Nat} :
    (CallArgs.empty.push (boxed n)).Fits ↔ n ≤ 125 := by
  constructor
  · intro hfits
    have hdepth := hfits (boxed n) (mem_push_boxed.mpr rfl)
    rwa [depth_boxed] at hdepth
  · intro hn v hv
    rwa [mem_push_boxed.mp hv, depth_boxed]

theorem Outcome.fits_boxed {n : Nat} : Outcome.Fits (.ok (boxed n)) ↔ n ≤ 126 := by
  constructor
  · intro hfits
    have hdepth := hfits (boxed n) rfl
    rwa [depth_boxed] at hdepth
  · rintro hn v ⟨⟩
    rwa [depth_boxed]

theorem Codec.json_reads_back_boxed :
    (∃ bytes, Codec.json.encodeArgs (CallArgs.empty.push (boxed 125)) = .ok bytes ∧
      Codec.json.decodeArgs bytes = .ok (CallArgs.empty.push (boxed 125))) ∧
    (∃ bytes, Codec.json.encodeArgs (CallArgs.empty.push (boxed 126)) = .ok bytes ∧
      Codec.json.decodeArgs bytes = .error (.decode "recursion limit exceeded")) ∧
    (∃ bytes, Codec.json.encodeOutcome (.ok (boxed 126)) = .ok bytes ∧
      Codec.json.decodeOutcome bytes = .ok (.ok (boxed 126))) ∧
    ∃ bytes, Codec.json.encodeOutcome (.ok (boxed 127)) = .ok bytes ∧
      Codec.json.decodeOutcome bytes = .error (.decode "recursion limit exceeded") := by
  obtain ⟨hargs, houtcome⟩ := Codec.json_reads_back
  have hreadArgs (n : Nat) : (CallArgs.empty.push (boxed n)).ReadsBack := by
    intro v hv
    rw [mem_push_boxed.mp hv]
    exact readsBack_boxed n
  have hreadOutcome (n : Nat) : Outcome.ReadsBack (.ok (boxed n)) := by
    rintro v ⟨⟩
    exact readsBack_boxed n
  refine ⟨?_, ?_, ?_, ?_⟩
  · obtain ⟨bytes, hbytes, hback⟩ := hargs (CallArgs.empty.push (boxed 125))
    exact ⟨bytes, hbytes, (hback (hreadArgs 125)).1 (CallArgs.fits_push_boxed.mpr (by decide))⟩
  · obtain ⟨bytes, hbytes, hback⟩ := hargs (CallArgs.empty.push (boxed 126))
    refine ⟨bytes, hbytes, (hback (hreadArgs 126)).2.1 ?_⟩
    rw [CallArgs.fits_push_boxed]
    decide
  · obtain ⟨bytes, hbytes, hback⟩ := houtcome (.ok (boxed 126))
    exact ⟨bytes, hbytes, (hback (hreadOutcome 126)).1 (Outcome.fits_boxed.mpr (by decide))⟩
  · obtain ⟨bytes, hbytes, hback⟩ := houtcome (.ok (boxed 127))
    refine ⟨bytes, hbytes, (hback (hreadOutcome 127)).2.1 ?_⟩
    rw [Outcome.fits_boxed]
    decide

end RemoteObjects
