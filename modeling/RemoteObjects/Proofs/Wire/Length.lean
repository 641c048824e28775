import RemoteObjects.Wire.Frame

/-!
# Messages are no shorter than the bytes they carry

Whatever is written is appended, and in an array a comma stands before each item but the first.
So a request that carries many bytes is a long message.
-/

namespace RemoteObjects

namespace Json

theorem utf8ByteSize_le_writeChar (out : String) (c : Char) :
    out.utf8ByteSize ≤ (writeChar out c).utf8ByteSize := by
  unfold writeChar
  repeat' split
  all_goals
    simp only [String.utf8ByteSize_append, String.utf8ByteSize_push]
    omega

theorem utf8ByteSize_le_writeText (out s : String) :
    out.utf8ByteSize ≤ (writeText out s).utf8ByteSize := by
  have hchars (cs : List Char) (out : String) :
      out.utf8ByteSize ≤ (cs.foldl writeChar out).utf8ByteSize := by
    induction cs generalizing out with
    | nil => exact Nat.le_refl _
    | cons c cs ih => exact Nat.le_trans (utf8ByteSize_le_writeChar out c) (ih _)
  have hquoted := hchars s.toList (out.push '"')
  rw [writeText, String.foldl_eq_foldl_toList, String.utf8ByteSize_push]
  rw [String.utf8ByteSize_push] at hquoted
  omega

namespace Tree

mutual

theorem utf8ByteSize_le_writeTo : ∀ (t : Tree) (out : String),
    out.utf8ByteSize ≤ (t.writeTo out).utf8ByteSize
  | .null, out | .bool _, out | .number _, out => by
      rw [writeTo, String.utf8ByteSize_append]
      exact Nat.le_add_right ..
  | .text s, out => utf8ByteSize_le_writeText out s
  | .array items, out => by
      have hitems := length_le_writeItems items true (out.push '[')
      rw [String.utf8ByteSize_push] at hitems
      rw [writeTo, String.utf8ByteSize_push]
      have hbracket : '['.utf8Size = 1 := rfl
      simp only [hbracket, if_true] at hitems
      omega
  | .object members, out => by
      have hmembers := utf8ByteSize_le_writeMembers members true (out.push '\x7b')
      rw [String.utf8ByteSize_push] at hmembers
      rw [writeTo, String.utf8ByteSize_push]
      omega

theorem length_le_writeItems : ∀ (items : List Tree) (first : Bool) (out : String),
    out.utf8ByteSize + items.length ≤
      (writeItems first out items).utf8ByteSize + (if first then 1 else 0)
  | [], _, _ => Nat.le_add_right ..
  | t :: rest, first, out => by
      have ht := utf8ByteSize_le_writeTo t (if first then out else out.push ',')
      have hrest := length_le_writeItems rest false
        (t.writeTo (if first then out else out.push ','))
      rw [writeItems, List.length_cons]
      cases first with
      | true =>
          simp only [if_true, Bool.false_eq_true, if_false] at ht hrest ⊢
          omega
      | false =>
          have hcomma : ','.utf8Size = 1 := rfl
          simp only [Bool.false_eq_true, if_false, String.utf8ByteSize_push, hcomma] at ht hrest ⊢
          omega

theorem utf8ByteSize_le_writeMembers : ∀ (members : List (String × Tree)) (first : Bool)
    (out : String), out.utf8ByteSize ≤ (writeMembers first out members).utf8ByteSize
  | [], _, _ => Nat.le_refl _
  | (name, t) :: rest, first, out => by
      have hname := utf8ByteSize_le_writeText (if first then out else out.push ',') name
      have ht := utf8ByteSize_le_writeTo t
        ((writeText (if first then out else out.push ',') name).push ':')
      have hrest := utf8ByteSize_le_writeMembers rest false
        (t.writeTo ((writeText (if first then out else out.push ',') name).push ':'))
      rw [String.utf8ByteSize_push] at ht
      rw [writeMembers]
      have hcomma : out.utf8ByteSize ≤ (if first then out else out.push ',').utf8ByteSize := by
        cases first with
        | true => exact Nat.le_refl _
        | false =>
            simp only [Bool.false_eq_true, if_false, String.utf8ByteSize_push]
            exact Nat.le_add_right ..
      omega

end

theorem length_le_writeTo_array (items : List Tree) (out : String) :
    items.length ≤ ((Tree.array items).writeTo out).utf8ByteSize := by
  have hitems := length_le_writeItems items true (out.push '[')
  have hclose : ']'.utf8Size = 1 := rfl
  rw [if_pos rfl] at hitems
  rw [writeTo, String.utf8ByteSize_push, hclose]
  omega

theorem length_le_writeMembers {name : String} {items : List Tree} :
    ∀ (members : List (String × Tree)) (first : Bool) (out : String),
      (name, .array items) ∈ members →
        items.length ≤ (writeMembers first out members).utf8ByteSize
  | (_, t) :: rest, first, out, h => by
      rw [writeMembers]
      rcases List.mem_cons.mp h with heq | hrest
      · cases heq
        exact Nat.le_trans (length_le_writeTo_array items _)
          (utf8ByteSize_le_writeMembers rest false _)
      · exact length_le_writeMembers rest false _ hrest

theorem length_le_write_object {name : String} {items : List Tree}
    {members : List (String × Tree)} (h : (name, .array items) ∈ members) :
    items.length ≤ (Tree.object members).write.utf8ByteSize := by
  have hmembers := length_le_writeMembers members true ("".push '\x7b') h
  rw [write, writeTo, String.utf8ByteSize_push]
  exact Nat.le_add_right_of_le hmembers

end Tree

end Json

theorem Request.size_le_encode_call (objectId : ObjectId) (method : String)
    (payload : ByteArray) : payload.size ≤ (Request.call objectId method payload).encode.size := by
  have hlength : (payload.data.toList.map fun b ↦ Json.Tree.number (.natural b.toUInt64)).length =
      payload.size := by
    rw [List.length_map]
    rfl
  have hmember : ("payload", bytesTree payload) ∈ [("op", Json.Tree.text "call"),
      ("object_id", objectId.tree), ("method", .text method), ("payload", bytesTree payload)] := by
    simp
  rw [← hlength]
  exact Json.Tree.length_le_write_object hmember

end RemoteObjects
