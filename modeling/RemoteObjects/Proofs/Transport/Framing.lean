import RemoteObjects.Transport.Framing

/-!
# Frames are read as they were written

A stream is read one frame after another until something else comes.  What was written as frames is
read back, whatever stands behind it, and whatever is read as frames is what would be written.  A
stream that breaks off inside a body has failed, but one that breaks off inside a length passes for
one that has ended.
-/

namespace RemoteObjects.Transport

variable {s left : Incoming} {bodies : List ByteArray} {body tail : ByteArray} {a b c d : UInt8}

/-! ## Lengths -/

/-- The number that four bytes spell, the most significant first. -/
def spelled (a b c d : UInt8) : Nat :=
  ((a.toNat * 256 + b.toNat) * 256 + c.toNat) * 256 + d.toNat

theorem lengthBytes_spelled (a b c d : UInt8) :
    lengthBytes (spelled a b c d) = ⟨#[a, b, c, d]⟩ := by
  have ha := a.toNat_lt
  have hb := b.toNat_lt
  have hc := c.toNat_lt
  have hd := d.toNat_lt
  have hdigit {n : Nat} {x : UInt8} (h : n % 256 = x.toNat) : n.toUInt8 = x := by
    apply UInt8.toNat.inj
    simpa using h
  rw [lengthBytes, hdigit (x := a), hdigit (x := b), hdigit (x := c), hdigit (x := d)] <;>
    simp only [spelled, Nat.shiftRight_eq_div_pow] <;> omega

theorem exists_spelled {n : Nat} (h : n < UInt32.size) : ∃ a b c d, spelled a b c d = n := by
  refine ⟨.ofNat (n / 256 / 256 / 256), .ofNat (n / 256 / 256), .ofNat (n / 256), .ofNat n, ?_⟩
  rw [UInt32.size] at h
  simp only [spelled, UInt8.toNat_ofNat']
  omega

theorem lengthOf_header (a b c d : UInt8) (tail : ByteArray) :
    lengthOf (⟨#[a, b, c, d]⟩ ++ tail) = spelled a b c d := by
  have hhead : ((⟨#[a, b, c, d]⟩ : ByteArray) ++ tail).extract 0 4 = ⟨#[a, b, c, d]⟩ :=
    ByteArray.extract_append_eq_left rfl
  rw [lengthOf, hhead]
  simp only [List.foldl_cons, List.foldl_nil, spelled]
  omega

theorem exists_header {bytes : ByteArray} (h : 4 ≤ bytes.size) :
    ∃ a b c d tail, bytes = ⟨#[a, b, c, d]⟩ ++ tail := by
  refine ⟨bytes[0], bytes[1], bytes[2], bytes[3], bytes.extract 4 bytes.size, ?_⟩
  have hhead := ByteArray.extract_add_four (a := bytes) (i := 0) h
  have hall := ByteArray.extract_eq_extract_append_extract (a := bytes) 4 (Nat.zero_le 4) h
  rw [ByteArray.extract_zero_size, hhead] at hall
  exact hall

/-! ## One frame -/

theorem readFrame_header (a b c d : UInt8) (tail : ByteArray) (fault : Option (Fault × String)) :
    readFrame ⟨⟨#[a, b, c, d]⟩ ++ tail, fault⟩ =
      if maxFrame < spelled a b c d then .failed (.payloadTooLarge (spelled a b c d))
      else if spelled a b c d ≤ tail.size then
        .frame (tail.extract 0 (spelled a b c d))
          ⟨tail.extract (spelled a b c d) tail.size, fault⟩
      else .failed (Incoming.failure ⟨⟨#[a, b, c, d]⟩ ++ tail, fault⟩) := by
  have hsize : ((⟨#[a, b, c, d]⟩ : ByteArray) ++ tail).size = 4 + tail.size :=
    ByteArray.size_append
  have hlong : ¬4 + tail.size < 4 := by omega
  -- What lies behind the length is found at places of the tail.
  have hskip (i j : Nat) :
      ((⟨#[a, b, c, d]⟩ : ByteArray) ++ tail).extract (4 + i) (4 + j) = tail.extract i j :=
    ByteArray.extract_append_size_add' rfl
  have hbody := hskip 0 (spelled a b c d)
  have hrest := hskip (spelled a b c d) tail.size
  simp only [readFrame, lengthOf_header, hsize, if_neg hlong, Nat.add_le_add_iff_left, hbody,
    hrest]

theorem readFrame_frame (h : body.size ≤ maxFrame) (rest : ByteArray)
    (fault : Option (Fault × String)) :
    readFrame ⟨frame body ++ rest, fault⟩ = .frame body ⟨rest, fault⟩ := by
  have hsmall : body.size < UInt32.size := Nat.lt_of_le_of_lt h (by decide)
  obtain ⟨a, b, c, d, hspelled⟩ := exists_spelled hsmall
  have hframe : frame body ++ rest = ⟨#[a, b, c, d]⟩ ++ (body ++ rest) := by
    rw [frame, ← hspelled, lengthBytes_spelled, ByteArray.append_assoc]
  have hfits : body.size ≤ (body ++ rest).size := by
    rw [ByteArray.size_append]
    exact Nat.le_add_right ..
  have hbody : (body ++ rest).extract 0 body.size = body := ByteArray.extract_append_eq_left rfl
  have hrest : (body ++ rest).extract body.size (body ++ rest).size = rest :=
    ByteArray.extract_append_eq_right rfl ByteArray.size_append
  rw [hframe, readFrame_header, hspelled, if_neg (Nat.not_lt.mpr h), if_pos hfits, hbody, hrest]

/-- A frame is only read where it would have been written. -/
theorem bytes_of_readFrame (h : readFrame s = .frame body left) :
    s.bytes = frame body ++ left.bytes ∧ body.size ≤ maxFrame ∧ left.fault = s.fault := by
  obtain ⟨bytes, fault⟩ := s
  by_cases hsize : 4 ≤ bytes.size
  · obtain ⟨a, b, c, d, tail, rfl⟩ := exists_header hsize
    rw [readFrame_header] at h
    split at h
    · cases h
    · next hlong =>
        split at h
        · next hfits =>
            cases h
            have hbody : (tail.extract 0 (spelled a b c d)).size = spelled a b c d := by
              rw [ByteArray.size_extract]
              omega
            refine ⟨?_, ?_, rfl⟩
            · rw [frame, hbody, lengthBytes_spelled, ByteArray.append_assoc,
                ← ByteArray.extract_eq_extract_append_extract _ (Nat.zero_le _) hfits,
                ByteArray.extract_zero_size]
            · rw [hbody]
              exact Nat.le_of_not_lt hlong
        · cases h
  · have hshort : bytes.size < 4 := Nat.lt_of_not_le hsize
    simp only [readFrame, if_pos hshort] at h
    split at h <;> cases h

theorem readFrame_short {bytes : ByteArray} (h : bytes.size < 4) :
    readFrame ⟨bytes, none⟩ = .ended := by
  simp only [readFrame, if_pos h]
  rfl

theorem readFrame_tooLarge (h : maxFrame < spelled a b c d) :
    readFrame ⟨⟨#[a, b, c, d]⟩ ++ tail, none⟩ = .failed (.payloadTooLarge (spelled a b c d)) := by
  rw [readFrame_header, if_pos h]

theorem readFrame_cut (h : spelled a b c d ≤ maxFrame) (hcut : tail.size < spelled a b c d) :
    readFrame ⟨⟨#[a, b, c, d]⟩ ++ tail, none⟩ = .failed (.connectionLost "early eof") := by
  rw [readFrame_header, if_neg (Nat.not_lt.mpr h), if_neg (Nat.not_le.mpr hcut)]
  rfl

theorem readFrame_ended_iff {bytes : ByteArray} :
    readFrame ⟨bytes, none⟩ = .ended ↔ bytes.size < 4 := by
  refine ⟨fun h ↦ ?_, readFrame_short⟩
  rcases Nat.lt_or_ge bytes.size 4 with hshort | hsize
  · exact hshort
  · obtain ⟨a, b, c, d, tail, rfl⟩ := exists_header hsize
    rw [readFrame_header] at h
    split at h
    · cases h
    · split at h <;> cases h

/-! ## Frame after frame -/

/-- Frames that are read one after another, and what is left of the stream then. -/
inductive Incoming.Yields : Incoming → List ByteArray → Incoming → Prop
  | nothing {s : Incoming} : Yields s [] s
  | frame {s rest left : Incoming} {body : ByteArray} {bodies : List ByteArray} :
      readFrame s = .frame body rest → Yields rest bodies left → Yields s (body :: bodies) left

def Incoming.Exhausted (s : Incoming) : Prop := ∀ body rest, readFrame s ≠ .frame body rest

def Reading.failure? : Reading → Option Error
  | .failed e => some e
  | .frame _ _ | .ended => none

def framesOf (bodies : List ByteArray) : ByteArray := bodies.foldr (frame · ++ ·) .empty

def writeFrames (out : Outgoing) : List ByteArray → Except Error Unit × Outgoing
  | [] => (.ok (), out)
  | body :: rest =>
    match writeFrame out body with
    | (.ok (), out) => writeFrames out rest
    | (.error e, out) => (.error e, out)

theorem framesOf_cons (body : ByteArray) (bodies : List ByteArray) :
    framesOf (body :: bodies) = frame body ++ framesOf bodies := rfl

theorem length_le_size_framesOf (bodies : List ByteArray) :
    4 * bodies.length ≤ (framesOf bodies).size := by
  induction bodies with
  | nil => exact Nat.le_refl 0
  | cons body bodies ih =>
      have hlength : (lengthBytes body.size).size = 4 := rfl
      rw [framesOf_cons, frame, ByteArray.size_append, ByteArray.size_append, hlength,
        List.length_cons]
      omega

theorem writeFrames_unbounded (h : ∀ body ∈ bodies, body.size ≤ maxFrame) (written : ByteArray) :
    writeFrames ⟨written, none⟩ bodies = (.ok (), ⟨written ++ framesOf bodies, none⟩) := by
  induction bodies generalizing written with
  | nil => rw [framesOf, List.foldr_nil, ByteArray.append_empty, writeFrames]
  | cons body bodies ih =>
      have hbody : ¬maxFrame < body.size := Nat.not_lt.mpr (h body List.mem_cons_self)
      have hrest := ih (fun b hb ↦ h b (List.mem_cons_of_mem _ hb)) (written ++ frame body)
      rw [ByteArray.append_assoc, ← framesOf_cons] at hrest
      simp only [writeFrames, writeFrame, if_neg hbody]
      exact hrest

namespace Incoming.Yields

theorem of_framesOf (h : ∀ body ∈ bodies, body.size ≤ maxFrame) (rest : ByteArray)
    (fault : Option (Fault × String)) :
    Yields ⟨framesOf bodies ++ rest, fault⟩ bodies ⟨rest, fault⟩ := by
  induction bodies with
  | nil =>
      rw [framesOf, List.foldr_nil, ByteArray.empty_append]
      exact nothing
  | cons body bodies ih =>
      rw [framesOf_cons, ByteArray.append_assoc]
      apply frame (readFrame_frame (h body List.mem_cons_self) _ _)
      exact ih fun b hb ↦ h b (List.mem_cons_of_mem _ hb)

theorem bytes (h : s.Yields bodies left) : s.bytes = framesOf bodies ++ left.bytes := by
  induction h with
  | nothing => exact ByteArray.empty_append.symm
  | frame hread _ ih =>
      rw [(bytes_of_readFrame hread).1, ih, framesOf_cons, ByteArray.append_assoc]

theorem fits (h : s.Yields bodies left) : ∀ body ∈ bodies, body.size ≤ maxFrame := by
  induction h with
  | nothing => exact nofun
  | frame hread _ ih =>
      intro b hb
      rcases List.mem_cons.mp hb with rfl | hb
      · exact (bytes_of_readFrame hread).2.1
      · exact ih b hb

theorem fault (h : s.Yields bodies left) : left.fault = s.fault := by
  induction h with
  | nothing => rfl
  | frame hread _ ih => exact ih.trans (bytes_of_readFrame hread).2.2

theorem trans {middle : Incoming} {more : List ByteArray} (h : s.Yields bodies middle)
    (hmore : middle.Yields more left) : s.Yields (bodies ++ more) left := by
  induction h with
  | nothing => exact hmore
  | frame hread _ ih => exact frame hread (ih hmore)

theorem length_le (h : s.Yields bodies left) : 4 * bodies.length ≤ s.bytes.size := by
  rw [h.bytes, ByteArray.size_append]
  exact Nat.le_add_right_of_le (length_le_size_framesOf bodies)

theorem readFrames (h : s.Yields bodies left) (hleft : left.Exhausted) {fuel : Nat}
    (hfuel : bodies.length < fuel) : readFrames fuel s = (bodies, (readFrame left).failure?) := by
  induction h generalizing fuel with
  | @nothing s =>
      obtain ⟨fuel, rfl⟩ := Nat.exists_eq_add_one_of_ne_zero (Nat.ne_zero_of_lt hfuel)
      rw [Transport.readFrames]
      cases hread : readFrame s with
      | frame body rest => exact absurd hread (hleft body rest)
      | ended => rfl
      | failed e => rfl
  | frame hread _ ih =>
      obtain ⟨fuel, rfl⟩ := Nat.exists_eq_add_one_of_ne_zero (Nat.ne_zero_of_lt hfuel)
      have hrest := ih hleft (Nat.lt_of_succ_lt_succ hfuel)
      simp only [Transport.readFrames, hread, hrest]

theorem frames (h : s.Yields bodies left) (hleft : left.Exhausted) :
    s.frames = (bodies, (readFrame left).failure?) := by
  have hlength := h.length_le
  apply h.readFrames hleft
  omega

end Incoming.Yields

/-- Reading frames comes to an end. -/
theorem Incoming.exists_yields (s : Incoming) :
    ∃ bodies left, s.Yields bodies left ∧ left.Exhausted := by
  induction hsize : s.bytes.size using Nat.strongRecOn generalizing s with
  | ind size ih =>
      cases hread : readFrame s with
      | frame body rest =>
          -- Even an empty frame takes the four bytes of its length away.
          have hshrinks : rest.bytes.size < size := by
            have hlength : (lengthBytes body.size).size = 4 := rfl
            rw [← hsize, (bytes_of_readFrame hread).1, frame, ByteArray.size_append,
              ByteArray.size_append, hlength]
            omega
          obtain ⟨bodies, left, hrest, hleft⟩ := ih _ hshrinks rest rfl
          exact ⟨body :: bodies, left, .frame hread hrest, hleft⟩
      | ended => exact ⟨[], s, .nothing, fun _ _ h ↦ nomatch hread.symm.trans h⟩
      | failed e => exact ⟨[], s, .nothing, fun _ _ h ↦ nomatch hread.symm.trans h⟩

/-- How a stream is divided into frames and what is no frame. -/
structure Division (bytes : ByteArray) (bodies : List ByteArray) (rest : ByteArray) : Prop where
  yields : Incoming.Yields ⟨bytes, none⟩ bodies ⟨rest, none⟩
  exhausted : Incoming.Exhausted ⟨rest, none⟩
  frames : Incoming.frames ⟨bytes, none⟩ = (bodies, (readFrame ⟨rest, none⟩).failure?)
  written : ∃ written,
    writeFrames ⟨.empty, none⟩ bodies = (.ok (), ⟨written, none⟩) ∧ bytes = written ++ rest
  fits : ∀ body ∈ bodies, body.size ≤ maxFrame
  ended : rest = .empty → readFrame ⟨rest, none⟩ = .ended
  failed : 4 ≤ rest.size → ∃ a b c d tail, rest = ⟨#[a, b, c, d]⟩ ++ tail ∧
    (maxFrame < spelled a b c d →
      readFrame ⟨rest, none⟩ = .failed (.payloadTooLarge (spelled a b c d))) ∧
    (spelled a b c d ≤ maxFrame → tail.size < spelled a b c d ∧
      ∃ reason, readFrame ⟨rest, none⟩ = .failed (.connectionLost reason))

theorem exists_division (bytes : ByteArray) : ∃ bodies rest, Division bytes bodies rest := by
  obtain ⟨bodies, ⟨rest, fault⟩, hyields, hleft⟩ := Incoming.exists_yields ⟨bytes, none⟩
  cases hyields.fault
  refine ⟨bodies, rest, hyields, hleft, hyields.frames hleft, ?_, hyields.fits, ?_, ?_⟩
  · have hwritten := writeFrames_unbounded hyields.fits .empty
    rw [ByteArray.empty_append] at hwritten
    exact ⟨_, hwritten, hyields.bytes⟩
  · rintro rfl
    exact readFrame_short (by decide)
  · intro hsize
    obtain ⟨a, b, c, d, tail, rfl⟩ := exists_header hsize
    refine ⟨a, b, c, d, tail, rfl, readFrame_tooLarge, fun hsmall ↦ ?_⟩
    -- A whole body would have been read as one more frame.
    have hcut : tail.size < spelled a b c d := by
      apply Nat.lt_of_not_le
      intro hfits
      have hread := readFrame_header a b c d tail none
      rw [if_neg (Nat.not_lt.mpr hsmall), if_pos hfits] at hread
      exact hleft _ _ hread
    exact ⟨hcut, _, readFrame_cut hsmall hcut⟩

/-- Bodies that are written as frames are read back in order, and what stands behind them is read as
if they had not been there.  Conversely every stream consists of frames as they are written and of a
rest that is told apart by its first four bytes; a body that is too long is not written at all. -/
theorem framing_lossless :
    (∀ bodies rest fault, (∀ body ∈ bodies, body.size ≤ maxFrame) →
      ∃ written, writeFrames ⟨.empty, none⟩ bodies = (.ok (), ⟨written, none⟩) ∧
        Incoming.Yields ⟨written ++ rest, fault⟩ bodies ⟨rest, fault⟩ ∧
        Incoming.frames ⟨written ++ rest, fault⟩ =
          (bodies ++ (Incoming.frames ⟨rest, fault⟩).1, (Incoming.frames ⟨rest, fault⟩).2)) ∧
    (∀ bytes, ∃ bodies rest, Division bytes bodies rest) ∧
    (∀ out body, maxFrame < body.size →
      writeFrame out body = (.error (.payloadTooLarge body.size), out)) := by
  refine ⟨?_, exists_division, ?_⟩
  · intro bodies rest fault h
    have hwritten := writeFrames_unbounded h .empty
    rw [ByteArray.empty_append] at hwritten
    have hyields := Incoming.Yields.of_framesOf h rest fault
    obtain ⟨more, left, hmore, hleft⟩ := Incoming.exists_yields ⟨rest, fault⟩
    refine ⟨_, hwritten, hyields, ?_⟩
    rw [(hyields.trans hmore).frames hleft, hmore.frames hleft]
  · intro out body h
    rw [writeFrame, if_pos h]

/-! An empty body, one that is as long as can be, and one that is longer. -/

def bodyOf (size : Nat) : ByteArray := ⟨.replicate size 7⟩

theorem size_bodyOf (size : Nat) : (bodyOf size).size = size := Array.size_replicate

theorem framing_lossless_of_longest :
    (∃ written, writeFrames ⟨.empty, none⟩ [.empty, bodyOf maxFrame] = (.ok (), ⟨written, none⟩) ∧
      Incoming.frames ⟨written ++ ⟨#[0, 0, 0, 2, 7]⟩, none⟩ =
        ([.empty, bodyOf maxFrame], some (.connectionLost "early eof"))) ∧
    writeFrame ⟨⟨#[0]⟩, none⟩ (bodyOf (maxFrame + 1)) =
      (.error (.payloadTooLarge 16777217), ⟨⟨#[0]⟩, none⟩) := by
  obtain ⟨hread, -, hwrite⟩ := framing_lossless
  constructor
  · have hfits : ∀ body ∈ [.empty, bodyOf maxFrame], body.size ≤ maxFrame := by
      intro body hbody
      simp only [List.mem_cons, List.not_mem_nil, or_false] at hbody
      rcases hbody with rfl | rfl
      · exact Nat.zero_le _
      · exact Nat.le_of_eq (size_bodyOf _)
    obtain ⟨written, hwritten, -, hframes⟩ := hread _ ⟨#[0, 0, 0, 2, 7]⟩ none hfits
    have hrest : Incoming.frames ⟨⟨#[0, 0, 0, 2, 7]⟩, none⟩ =
        ([], some (.connectionLost "early eof")) := rfl
    rw [hrest, List.append_nil] at hframes
    exact ⟨written, hwritten, hframes⟩
  · have hlong : maxFrame < (bodyOf (maxFrame + 1)).size := by
      rw [size_bodyOf]
      exact Nat.lt_succ_self _
    rw [hwrite _ _ hlong, size_bodyOf]
    rfl

/-! ## Where a stream breaks off -/

/-- Wherever reading has come to, the stream passes for ended just if it has no whole length to
give, so it is only taken at its word if it does not break off in a length. -/
theorem ended_iff_of_yields {bytes : ByteArray} (h : Incoming.Yields ⟨bytes, none⟩ bodies left) :
    (readFrame left = .ended ↔ left.bytes.size < 4) ∧
    ((readFrame left = .ended ↔ left.bytes = .empty) ↔
      left.bytes.size = 0 ∨ 4 ≤ left.bytes.size) ∧
    (∀ a b c d tail, left.bytes = ⟨#[a, b, c, d]⟩ ++ tail → spelled a b c d ≤ maxFrame →
      tail.size < spelled a b c d →
        ∃ reason, readFrame left = .failed (.connectionLost reason)) := by
  obtain ⟨rest, fault⟩ := left
  cases h.fault
  refine ⟨readFrame_ended_iff, ?_, ?_⟩
  · rw [readFrame_ended_iff, ← ByteArray.size_eq_zero_iff]
    change (rest.size < 4 ↔ rest.size = 0) ↔ rest.size = 0 ∨ 4 ≤ rest.size
    omega
  · rintro a b c d tail rfl hsmall hcut
    exact ⟨_, readFrame_cut hsmall hcut⟩

/-- One frame and the first byte of another length. -/
def torn : ByteArray := ⟨#[0, 0, 0, 1, 120, 0]⟩

theorem torn_yields : Incoming.Yields ⟨torn, none⟩ [⟨#[120]⟩] ⟨⟨#[0]⟩, none⟩ :=
  .frame (readFrame_frame (show (⟨#[120]⟩ : ByteArray).size ≤ maxFrame by decide) ⟨#[0]⟩ none)
    .nothing

theorem ended_iff_of_yields_torn :
    (readFrame ⟨⟨#[0]⟩, none⟩ = .ended ↔ 1 < 4) ∧
      ((readFrame ⟨⟨#[0]⟩, none⟩ = .ended ↔ (⟨#[0]⟩ : ByteArray) = .empty) ↔ 1 = 0 ∨ 4 ≤ 1) := by
  obtain ⟨hended, hclean, -⟩ := ended_iff_of_yields torn_yields
  exact ⟨hended, hclean⟩

/-- The byte that is left over is lost without a word. -/
theorem not_ended_iff_empty :
    ¬∀ bytes bodies left, Incoming.Yields ⟨bytes, none⟩ bodies left →
      (readFrame left = .ended ↔ left.bytes = .empty) := by
  intro h
  have hempty := (h torn _ _ torn_yields).mp (readFrame_short (by decide))
  exact absurd (congrArg ByteArray.size hempty) (by decide)

end RemoteObjects.Transport
