/-!
# The order of strings

Strings are ordered by the code points of their characters.  UTF-8 keeps this order: of two
characters the lesser has the lesser bytes, whatever follows, so the order is that of the bytes.
-/

namespace RemoteObjects.Text

/-- The bytes of a string in UTF-8. -/
def bytesOf (s : String) : List UInt8 := s.toUTF8.data.toList

theorem bytesOf_eq_flatMap (s : String) :
    bytesOf s = s.toList.flatMap String.utf8EncodeChar := by
  rw [bytesOf, String.toUTF8_eq_toByteArray, ← String.utf8Encode_toList, List.utf8Encode,
    List.toList_data_toByteArray]

/-! ## Characters -/

theorem cons_lt_cons_of_lt {a b : Nat} (hlt : a < b) (hbyte : b < 256) (x y : List UInt8) :
    UInt8.ofNat a :: x < UInt8.ofNat b :: y := by
  rw [List.cons_lt_cons_iff, UInt8.lt_iff_toNat_lt, UInt8.toNat_ofNat', UInt8.toNat_ofNat',
    Nat.mod_eq_of_lt hbyte, Nat.mod_eq_of_lt (Nat.lt_trans hlt hbyte)]
  exact .inl hlt

/-- A number is the lesser one by its quotient, or by what remains if the quotients are equal. -/
theorem cons_lt_cons_of_div {m n a b : Nat} (k base : Nat) {x y : List UInt8} (hlt : m < n)
    (ha : a = m / k + base) (hb : b = n / k + base) (hbyte : b < 256)
    (hrest : m % k < n % k → x < y) : UInt8.ofNat a :: x < UInt8.ofNat b :: y := by
  rcases Nat.lt_or_eq_of_le (Nat.div_le_div_right (c := k) (Nat.le_of_lt hlt)) with hquot | hquot
  · apply cons_lt_cons_of_lt _ hbyte
    omega
  · have hm := Nat.div_add_mod m k
    have hn := Nat.div_add_mod n k
    rw [hquot] at hm
    rw [List.cons_lt_cons_iff, ha, hb, hquot]
    exact .inr ⟨rfl, hrest (by omega)⟩

theorem utf8EncodeChar_lt {c d : Char} (h : c < d) (x y : List UInt8) :
    String.utf8EncodeChar c ++ x < String.utf8EncodeChar d ++ y := by
  have hlt : c.val.toNat < d.val.toNat := h
  have hmax : d.val.toNat < 0x110000 := by
    have hvalid := d.valid
    simp only [UInt32.isValidChar, Nat.isValidChar] at hvalid
    omega
  unfold String.utf8EncodeChar
  generalize c.val.toNat = m at hlt
  generalize d.val.toNat = n at hlt hmax
  dsimp only
  repeat' split
  -- The first byte grows with the number of bytes, so only equal numbers of them are left.
  all_goals first
    | exact absurd hlt (by omega)
    | exact cons_lt_cons_of_lt (by omega) (by omega) _ _
    | skip
  · apply cons_lt_cons_of_div 64 0xc0 hlt (by omega) (by omega) (by omega)
    intro hlast
    exact cons_lt_cons_of_lt (by omega) (by omega) _ _
  · apply cons_lt_cons_of_div 4096 0xe0 hlt (by omega) (by omega) (by omega)
    intro hrest
    apply cons_lt_cons_of_div 64 0x80 hrest (by omega) (by omega) (by omega)
    intro hlast
    exact cons_lt_cons_of_lt (by omega) (by omega) _ _
  · apply cons_lt_cons_of_div 262144 0xf0 hlt (by omega) (by omega) (by omega)
    intro hrest
    apply cons_lt_cons_of_div 4096 0x80 hrest (by omega) (by omega) (by omega)
    intro hrest
    apply cons_lt_cons_of_div 64 0x80 hrest (by omega) (by omega) (by omega)
    intro hlast
    exact cons_lt_cons_of_lt (by omega) (by omega) _ _

/-! ## Strings -/

theorem append_lt_append {x y : List UInt8} (h : x < y) (l : List UInt8) : l ++ x < l ++ y := by
  induction l with
  | nil => exact h
  | cons b l ih => exact List.cons_lt_cons_iff.mpr (.inr ⟨rfl, ih⟩)

theorem flatMap_lt_flatMap {cs ds : List Char} (h : cs < ds) :
    cs.flatMap String.utf8EncodeChar < ds.flatMap String.utf8EncodeChar := by
  induction h with
  | @nil d ds =>
      have hpos : String.utf8EncodeChar d ≠ [] := by
        rw [← List.length_pos_iff, String.length_utf8EncodeChar]
        exact d.utf8Size_pos
      rw [List.flatMap_nil, List.flatMap_cons]
      obtain ⟨b, l, hl⟩ := List.exists_cons_of_ne_nil hpos
      rw [hl, List.cons_append]
      exact List.nil_lt_cons _ _
  | rel h =>
      rw [List.flatMap_cons, List.flatMap_cons]
      exact utf8EncodeChar_lt h _ _
  | cons _ ih =>
      rw [List.flatMap_cons, List.flatMap_cons]
      exact append_lt_append ih _

/-- The order of strings is that of their bytes. -/
theorem bytesOf_lt_iff {s t : String} : bytesOf s < bytesOf t ↔ s < t := by
  have hmono {s t : String} (h : s < t) : bytesOf s < bytesOf t := by
    rw [bytesOf_eq_flatMap, bytesOf_eq_flatMap]
    exact flatMap_lt_flatMap h
  refine ⟨fun h ↦ ?_, hmono⟩
  apply Decidable.byContradiction
  intro hst
  rw [String.not_lt] at hst
  by_cases hts : t < s
  · exact List.lt_asymm h (hmono hts)
  · obtain rfl : t = s := String.le_antisymm hst (String.not_lt.mp hts)
    exact List.lt_irrefl _ h

end RemoteObjects.Text
