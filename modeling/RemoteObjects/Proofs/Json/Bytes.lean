import RemoteObjects.Json.Text
import RemoteObjects.Proofs.Json.Reading

/-!
# Bytes of whole documents

Bytes that are read as a text without a stray byte are the bytes of that text, and the text of a
document whose strings all have values has no stray byte.
-/

namespace RemoteObjects.Json

/-! ## Bytes without a stray one -/

theorem none_mem_decodeFrom (bytes : ByteArray) (fuel i : Nat) {read : List (Option Char)}
    (h : none ∈ read) : none ∈ decodeFrom bytes fuel i read := by
  induction fuel generalizing i read with
  | zero => exact h
  | succ fuel ih =>
      unfold decodeFrom
      split
      · split <;> exact ih _ (List.mem_cons_of_mem _ h)
      · exact h

theorem isValidUTF8_extract {bytes : ByteArray} {fuel i : Nat} {read : List (Option Char)}
    (hfuel : bytes.size ≤ i + fuel) (h : none ∉ decodeFrom bytes fuel i read) :
    (bytes.extract i bytes.size).IsValidUTF8 := by
  have hend {i : Nat} (hi : bytes.size ≤ i) : (bytes.extract i bytes.size).IsValidUTF8 := by
    rw [ByteArray.extract_eq_empty_iff.mpr (by omega)]
    exact ByteArray.isValidUTF8_empty
  induction fuel generalizing i read with
  | zero => exact hend hfuel
  | succ fuel ih =>
      unfold decodeFrom at h
      split at h
      · split at h
        · next c hc =>
            have hpos := c.utf8Size_pos
            have hrest := ih (by omega) h
            have hsplit : bytes.extract i bytes.size =
                [c].utf8Encode ++ bytes.extract (i + c.utf8Size) bytes.size := by
              rw [ByteArray.utf8DecodeChar?_eq_utf8DecodeChar?_extract] at hc
              have hfirst := ByteArray.eq_of_utf8DecodeChar?_eq_some hc
              rw [ByteArray.extract_extract, ByteArray.size_extract] at hfirst
              rw [List.utf8Encode_singleton, hfirst]
              congr 2
              omega
            rw [hsplit, ByteArray.isValidUTF8_utf8Encode_singleton_append_iff]
            exact hrest
        · exact absurd (none_mem_decodeFrom bytes fuel _ List.mem_cons_self) h
      · next hi => exact hend (Nat.not_lt.mp hi)

theorem exists_toUTF8_of_none_notMem {bytes : ByteArray} (h : none ∉ textOfBytes bytes) :
    ∃ s : String, bytes = s.toUTF8 := by
  by_cases hvalid : bytes.IsValidUTF8
  · exact ⟨String.fromUTF8 bytes hvalid, rfl⟩
  · have hnone : String.fromUTF8? bytes = none := dif_neg hvalid
    rw [textOfBytes, hnone] at h
    have hread : none ∉ decodeFrom bytes bytes.size 0 [] := fun hmem ↦ h (List.mem_reverse.mpr hmem)
    have hwhole := isValidUTF8_extract (by omega) hread
    rw [ByteArray.extract_zero_size] at hwhole
    exact absurd hwhole hvalid

/-! ## Documents whose strings have values -/

theorem stray_notMem_of_meaning {pieces : List Piece} {cs : List Char}
    (h : meaning pieces = some cs) : .stray ∉ pieces := by
  fun_induction meaning pieces generalizing cs with
  | case1 => simp
  | case2 c rest ih | case4 n hn low rest hlow ih | case8 n rest hn hlow ih =>
      obtain ⟨ds, hds, -⟩ := Option.map_eq_some_iff.mp h
      simpa using ih hds
  | case3 | case5 | case6 | case7 => cases h

theorem PiecesSpelledBy.stray_mem {pieces : List Piece} {s : List (Option Char)}
    (h : PiecesSpelledBy pieces s) (hs : none ∈ s) : .stray ∈ pieces := by
  induction h with
  | nil => cases hs
  | cons hp _ ih =>
      rcases List.mem_append.mp hs with hs | hs
      · cases hp with
        | stray => exact List.mem_cons_self
        | _ => simp at hs
      · exact List.mem_cons_of_mem _ (ih hs)

theorem Spells.none_notMem {text : List (Option Char)} {tokens : List Token}
    (h : Spells text tokens) (htexts : .text none ∉ tokens) : none ∉ text := by
  induction h with
  | nil => simp
  | blank hc _ ih => simpa using ih htexts
  | @token t s text tokens ht _ ih =>
      rw [List.mem_cons, not_or] at htexts
      have hs : none ∉ s := by
        cases ht with
        | word | number => simp
        | @text pieces s hpieces =>
            intro hs
            have hstray : none ∈ s := by simpa using hs
            cases hmeaning : meaning pieces with
            | none => exact htexts.1 (by rw [hmeaning]; rfl)
            | some cs =>
                exact stray_notMem_of_meaning hmeaning (hpieces.stray_mem hstray)
      rw [List.mem_append, not_or]
      exact ⟨hs, ih htexts.2⟩

namespace Tree

mutual

theorem text_none_notMem_tokens : ∀ t : Tree, .text none ∉ t.tokens
  | .null | .bool _ | .number _ | .text _ => by simp [tokens]
  | .array items => by simpa [tokens] using text_none_notMem_tokensItems true items
  | .object members => by simpa [tokens] using text_none_notMem_tokensMembers true members

theorem text_none_notMem_tokensItems : ∀ (first : Bool) (items : List Tree),
    .text none ∉ tokensItems first items
  | _, [] => by simp [tokensItems]
  | first, t :: rest => by
      have ht := text_none_notMem_tokens t
      have hrest := text_none_notMem_tokensItems false rest
      cases first <;> simp [tokensItems, ht, hrest]

theorem text_none_notMem_tokensMembers : ∀ (first : Bool) (members : List (String × Tree)),
    .text none ∉ tokensMembers first members
  | _, [] => by simp [tokensMembers]
  | first, (name, t) :: rest => by
      have ht := text_none_notMem_tokens t
      have hrest := text_none_notMem_tokensMembers false rest
      cases first <;> simp [tokensMembers, ht, hrest]

end

/-- Bytes that hold a document whose strings and numbers all have values are those of a string. -/
theorem exists_toUTF8_of_spelledBy {t : Tree} {bytes : ByteArray}
    (h : (Draft.ofTree t).SpelledBy (textOfBytes bytes)) :
    ∃ s : String, bytes = s.toUTF8 ∧ (Draft.ofTree t).SpelledBy (charsOf s) := by
  have htokens := h.2
  rw [tokens_ofTree] at htokens
  obtain ⟨s, rfl⟩ := exists_toUTF8_of_none_notMem
    (htokens.none_notMem (text_none_notMem_tokens t))
  rw [textOfBytes_toUTF8] at h
  exact ⟨s, rfl, h⟩

end Tree

end RemoteObjects.Json
