import RemoteObjects.Proofs.Json.Scanning

/-!
# Texts tell documents apart

Two documents have one text only if they agree, floats compared by what is printed of them.  The
first character of a document says of which kind it is; a number goes on as long as it can, a string
up to the quote that closes it, and brackets enclose the rest.  So of two texts with one beginning
the documents that they begin with agree, and so does what comes after these.
-/

namespace RemoteObjects.Json

open Token

/-! ## Documents that agree -/

/-- Whether two numbers are the same, floats by their texts. -/
def Number.Alike : Number → Number → Prop
  | .float x, .float y => Layout.json.finite x = Layout.json.finite y
  | n, m => n = m

namespace Tree

mutual

/-- Whether two documents are the same but for floats that have one text. -/
def Alike : Tree → Tree → Prop
  | .null, .null => True
  | .bool b, .bool c => b = c
  | .number n, .number m => n.Alike m
  | .text s, .text r => s = r
  | .array items, .array others => AlikeItems items others
  | .object members, .object others => AlikeMembers members others
  | _, _ => False

def AlikeItems : List Tree → List Tree → Prop
  | [], [] => True
  | t :: rest, u :: others => t.Alike u ∧ AlikeItems rest others
  | _, _ => False

def AlikeMembers : List (String × Tree) → List (String × Tree) → Prop
  | [], [] => True
  | (name, t) :: rest, (other, u) :: others => name = other ∧ t.Alike u ∧ AlikeMembers rest others
  | _, _ => False

end

end Tree

/-! ## Texts of numbers -/

theorem not_ends_of_isDigit {c : Char} (h : c.isDigit = true) : ¬Ends c := by
  simp [Ends, h]

theorem isDigit_of_mem_toString {n : Nat} {c : Char} (h : c ∈ (toString n).toList) :
    c.isDigit = true := by
  rw [Nat.toString_eq_repr, Nat.toList_repr] at h
  exact Nat.isDigit_of_mem_toDigits (by decide) (by decide) h

/-- Whether a text is made up of what numbers are made of, and has a point or a power. -/
def Fractional (s : List Char) : Prop := (∀ c ∈ s, ¬Ends c) ∧ ∃ c ∈ s, c = '.' ∨ c = 'e'

theorem fractional_of_mark {l r : List Char} {mark : Char} (hmark : mark = '.' ∨ mark = 'e')
    (hl : ∀ c ∈ l, ¬Ends c) (hr : ∀ c ∈ r, ¬Ends c) : Fractional (l ++ mark :: r) := by
  refine ⟨fun c hc ↦ ?_, mark, by simp, hmark⟩
  rcases List.mem_append.mp hc with hc | hc
  · exact hl c hc
  · rcases List.mem_cons.mp hc with rfl | hc
    · rcases hmark with rfl | rfl <;> decide
    · exact hr c hc

section

variable {digits : String} (hdigits : ∀ c ∈ digits.toList, c.isDigit = true)

include hdigits

theorem fractional_positional (point : Int) :
    Fractional (Layout.positional ".0" digits point).toList := by
  have hdigit (c : Char) (hc : c ∈ digits.toList) : ¬Ends c := not_ends_of_isDigit (hdigits c hc)
  have hzero : ¬Ends '0' := by decide
  have hzeros (n : Nat) (c : Char) (hc : c ∈ List.replicate n '0') : ¬Ends c := by
    obtain rfl := List.eq_of_mem_replicate hc
    exact hzero
  unfold Layout.positional
  dsimp only
  split
  · have htext : ("0." ++ String.ofList (List.replicate (-point).toNat '0') ++ digits).toList =
        ['0'] ++ '.' :: (List.replicate (-point).toNat '0' ++ digits.toList) := by
      simp only [String.toList_append, String.toList_ofList, List.append_assoc]
      rfl
    rw [htext]
    apply fractional_of_mark (.inl rfl) (List.forall_mem_singleton.mpr hzero)
    exact fun c hc ↦ (List.mem_append.mp hc).elim (hzeros _ c) (hdigit c)
  · split
    · rw [String.toList_append, String.toList_append, String.toList_ofList]
      apply fractional_of_mark (r := ['0']) (.inl rfl) _ (List.forall_mem_singleton.mpr hzero)
      exact fun c hc ↦ (List.mem_append.mp hc).elim (hdigit c) (hzeros _ c)
    · have htext : (String.ofList (digits.toList.take point.toNat) ++ "." ++
          String.ofList (digits.toList.drop point.toNat)).toList =
            digits.toList.take point.toNat ++ '.' :: digits.toList.drop point.toNat := by
        simp only [String.toList_append, String.toList_ofList, List.append_assoc]
        rfl
      rw [htext]
      apply fractional_of_mark (.inl rfl)
      · exact fun c hc ↦ hdigit c (List.mem_of_mem_take hc)
      · exact fun c hc ↦ hdigit c (List.mem_of_mem_drop hc)

theorem fractional_scientific (power : Int) :
    Fractional (Layout.scientific digits power).toList := by
  have hdigit (c : Char) (hc : c ∈ digits.toList) : ¬Ends c := not_ends_of_isDigit (hdigits c hc)
  have hpower (sign : Char) (hsign : ¬Ends sign) :
      ∀ c ∈ sign :: (toString power.natAbs).toList, ¬Ends c := by
    intro c hc
    rcases List.mem_cons.mp hc with rfl | hc
    · exact hsign
    · exact not_ends_of_isDigit (isDigit_of_mem_toString hc)
  have hmantissa (mantissa : List Char) (h : ∀ c ∈ mantissa, ¬Ends c) : Fractional
      (String.ofList mantissa ++ (if power < 0 then "e-" else "e+") ++
        toString power.natAbs).toList := by
    rw [String.toList_append, String.toList_append, String.toList_ofList, List.append_assoc]
    split
    · exact fractional_of_mark (.inr rfl) h (hpower '-' (by decide))
    · exact fractional_of_mark (.inr rfl) h (hpower '+' (by decide))
  unfold Layout.scientific
  dsimp only
  split
  · next first second rest hsplit =>
      apply hmantissa
      rw [hsplit] at hdigit
      intro c hc
      rcases List.mem_cons.mp hc with rfl | hc
      · exact hdigit c List.mem_cons_self
      · rcases List.mem_cons.mp hc with rfl | hc
        · decide
        · exact hdigit c (List.mem_cons_of_mem _ hc)
  · exact hmantissa _ hdigit

end

theorem fractional_decimal (d : Decimal) : Fractional (Layout.json.decimal d).toList := by
  have hsign {s : String} (h : Fractional s.toList) (negative : Bool) :
      Fractional ((if negative then "-" else "") ++ s).toList := by
    cases negative with
    | false => simpa using h
    | true =>
        obtain ⟨hall, c, hc, hmark⟩ := h
        rw [String.toList_append]
        refine ⟨fun d hd ↦ ?_, c, List.mem_append_right _ hc, hmark⟩
        rcases List.mem_cons.mp hd with rfl | hd
        · decide
        · exact hall d hd
  have hdigits : ∀ c ∈ (toString d.digits).toList, c.isDigit = true :=
    fun _ ↦ isDigit_of_mem_toString
  have hlayout (point : Int) (inside : Bool) : Fractional (if inside then
      Layout.positional ".0" (toString d.digits) point
      else Layout.scientific (toString d.digits) (point - 1)).toList := by
    split
    · exact fractional_positional hdigits point
    · exact fractional_scientific hdigits (point - 1)
  exact hsign (hlayout _ _) d.negative

/-- No float is written as an integer. -/
theorem fractional_float (x : Binary64.Finite) : Fractional (Layout.json.finite x).toList :=
  fractional_decimal _

theorem mem_write_natural {n : UInt64} {c : Char} (h : c ∈ (Number.natural n).write.toList) :
    c.isDigit = true := isDigit_of_mem_toString h

theorem mem_write_negative {below : Fin 0x8000000000000000} {c : Char}
    (h : c ∈ (Number.negative below).write.toList) : c = '-' ∨ c.isDigit = true := by
  rw [Number.write, String.toList_append] at h
  exact (List.mem_cons.mp h).imp_right isDigit_of_mem_toString

namespace Number

theorem not_ends_of_mem_write {n : Number} {c : Char} (h : c ∈ n.write.toList) : ¬Ends c := by
  cases n with
  | natural n => exact not_ends_of_isDigit (mem_write_natural h)
  | negative below =>
      rcases mem_write_negative h with rfl | h
      · decide
      · exact not_ends_of_isDigit h
  | float x => exact (fractional_float x).1 c h

theorem write_ne_nil (n : Number) : n.write.toList ≠ [] := by
  cases n with
  | natural n =>
      rw [write, Nat.toString_eq_repr, Nat.toList_repr]
      exact Nat.toDigits_ne_nil
  | negative below =>
      rw [write, String.toList_append]
      exact List.cons_ne_nil _ _
  | float x =>
      obtain ⟨-, c, hc, -⟩ := fractional_float x
      exact List.ne_nil_of_mem hc

theorem exists_float_of_mark {n : Number} {c : Char} (hc : c ∈ n.write.toList)
    (hmark : c = '.' ∨ c = 'e') : ∃ x, n = .float x := by
  cases n with
  | natural n =>
      have hdigit := mem_write_natural hc
      rcases hmark with rfl | rfl <;> cases hdigit
  | negative below =>
      rcases mem_write_negative hc with rfl | hdigit
      · simp at hmark
      · rcases hmark with rfl | rfl <;> cases hdigit
  | float x => exact ⟨x, rfl⟩

theorem scan_write_of_not_float {n : Number} (h : ∀ x, n ≠ .float x) :
    scan (charsOf n.write) = [.number (some n)] := by
  have hread : (Tree.number n).ReadsBack := fun x hx ↦ absurd hx (h x)
  have htext : (Tree.number n).write = n.write := String.empty_append
  rw [← htext, Tree.scan_write hread, Tree.tokens]

theorem alike_of_write_eq {n m : Number} (h : n.write = m.write) : n.Alike m := by
  have hfloat {n m : Number} (h : n.write = m.write) {x : Binary64.Finite} (hn : n = .float x) :
      ∃ y, m = .float y := by
    obtain ⟨-, c, hc, hmark⟩ := fractional_float x
    have hmem : c ∈ m.write.toList := by rwa [← h, hn]
    exact exists_float_of_mark hmem hmark
  -- Floats agree by their texts; the others are read back from them.
  by_cases hn : ∃ x, n = .float x
  · obtain ⟨x, rfl⟩ := hn
    obtain ⟨y, rfl⟩ := hfloat h rfl
    exact h
  · have hm : ¬∃ y, m = .float y := fun ⟨_, hm⟩ ↦ hn (hfloat h.symm hm)
    have hscan := scan_write_of_not_float (not_exists.mp hn)
    rw [h, scan_write_of_not_float (not_exists.mp hm)] at hscan
    cases hscan
    cases n <;> rfl

theorem Alike.write_eq {n m : Number} (h : n.Alike m) : n.write = m.write := by
  cases n with
  | float x =>
      cases m with
      | float y => exact h
      | _ => cases h
  | _ => exact congrArg write h

end Number

/-! ## Texts as characters -/

theorem toList_foldl_writeChar (cs : List Char) (out : String) :
    (cs.foldl writeChar out).toList = out.toList ++ (cs.foldl writeChar "").toList := by
  have hchar (out : String) (c : Char) :
      (writeChar out c).toList = out.toList ++ (writeChar "" c).toList := by
    unfold writeChar
    repeat' split
    all_goals simp
  induction cs generalizing out with
  | nil => simp
  | cons c cs ih =>
      rw [List.foldl_cons, List.foldl_cons, ih, ih (writeChar "" c), hchar, List.append_assoc]

theorem toList_writeText (out s : String) :
    (writeText out s).toList = out.toList ++ (writeText "" s).toList := by
  simp only [writeText, String.foldl_eq_foldl_toList, String.toList_push]
  rw [toList_foldl_writeChar, toList_foldl_writeChar s.toList ("".push '"')]
  simp

theorem exists_writeText_eq_cons (s : String) : ∃ cs, (writeText "" s).toList = '"' :: cs := by
  simp only [writeText, String.foldl_eq_foldl_toList, String.toList_push]
  rw [toList_foldl_writeChar]
  exact ⟨_, rfl⟩

namespace Tree

mutual

/-- The characters of the text of a document. -/
def chars : Tree → List Char
  | .null => ['n', 'u', 'l', 'l']
  | .bool true => ['t', 'r', 'u', 'e']
  | .bool false => ['f', 'a', 'l', 's', 'e']
  | .number n => n.write.toList
  | .text s => (writeText "" s).toList
  | .array items => '[' :: charsItems true items ++ [']']
  | .object members => '\x7b' :: charsMembers true members ++ ['\x7d']

def charsItems (first : Bool) : List Tree → List Char
  | [] => []
  | t :: rest => (if first then [] else [',']) ++ t.chars ++ charsItems false rest

def charsMembers (first : Bool) : List (String × Tree) → List Char
  | [] => []
  | (name, t) :: rest =>
    (if first then [] else [',']) ++ (writeText "" name).toList ++ ':' :: t.chars ++
      charsMembers false rest

end

theorem toList_comma (first : Bool) (out : String) :
    (if first then out else out.push ',').toList =
      out.toList ++ if first then [] else [','] := by
  cases first <;> simp

mutual

theorem toList_writeTo : ∀ (t : Tree) (out : String),
    (t.writeTo out).toList = out.toList ++ t.chars
  | .null, out | .bool true, out | .bool false, out => by
      rw [writeTo, String.toList_append]
      rfl
  | .number n, out => by rw [writeTo, String.toList_append, chars]
  | .text s, out => toList_writeText out s
  | .array items, out => by
      rw [writeTo, String.toList_push, toList_writeItems, String.toList_push, chars]
      simp
  | .object members, out => by
      rw [writeTo, String.toList_push, toList_writeMembers, String.toList_push, chars]
      simp

theorem toList_writeItems : ∀ (items : List Tree) (first : Bool) (out : String),
    (writeItems first out items).toList = out.toList ++ charsItems first items
  | [], _, _ => (List.append_nil _).symm
  | t :: rest, first, out => by
      rw [writeItems, toList_writeItems, toList_writeTo, toList_comma, charsItems]
      simp

theorem toList_writeMembers : ∀ (members : List (String × Tree)) (first : Bool) (out : String),
    (writeMembers first out members).toList = out.toList ++ charsMembers first members
  | [], _, _ => (List.append_nil _).symm
  | (name, t) :: rest, first, out => by
      rw [writeMembers, toList_writeMembers, toList_writeTo, String.toList_push, toList_writeText,
        toList_comma, charsMembers]
      simp

end

theorem toList_write (t : Tree) : t.write.toList = t.chars := by
  rw [write, toList_writeTo]
  rfl

end Tree

/-! ## What a text begins with -/

/-- Whether a text does not go on with what numbers are made of. -/
def Delimited (text : List Char) : Prop := ∀ c ∈ text.head?, Ends c

/-- What is made of one sort of characters ends where another comes. -/
theorem append_inj_of_forall {p : Char → Prop} {l r x y : List Char} (hl : ∀ c ∈ l, p c)
    (hr : ∀ c ∈ r, p c) (hx : ∀ c ∈ x.head?, ¬p c) (hy : ∀ c ∈ y.head?, ¬p c)
    (h : l ++ x = r ++ y) : l = r ∧ x = y := by
  induction l generalizing r with
  | nil =>
      cases r with
      | nil => exact ⟨rfl, h⟩
      | cons c r =>
          have hhead : c ∈ x.head? := by
            rw [List.nil_append] at h
            rw [h]
            rfl
          exact absurd (hr c List.mem_cons_self) (hx c hhead)
  | cons c l ih =>
      cases r with
      | nil =>
          have hhead : c ∈ y.head? := by
            rw [List.nil_append] at h
            rw [← h]
            rfl
          exact absurd (hl c List.mem_cons_self) (hy c hhead)
      | cons d r =>
          obtain ⟨rfl, htail⟩ := List.cons.inj h
          obtain ⟨rfl, rfl⟩ := ih (fun e he ↦ hl e (List.mem_cons_of_mem _ he))
            (fun e he ↦ hr e (List.mem_cons_of_mem _ he)) htail
          exact ⟨rfl, rfl⟩

theorem Number.append_inj {n m : Number} {x y : List Char} (hx : Delimited x) (hy : Delimited y)
    (h : n.write.toList ++ x = m.write.toList ++ y) : n.Alike m ∧ x = y := by
  obtain ⟨htext, rfl⟩ := append_inj_of_forall (p := fun c ↦ ¬Ends c)
    (fun _ ↦ not_ends_of_mem_write) (fun _ ↦ not_ends_of_mem_write)
    (fun c hc ↦ not_not_intro (hx c hc)) (fun c hc ↦ not_not_intro (hy c hc)) h
  exact ⟨alike_of_write_eq (String.toList_inj.mp htext), rfl⟩

theorem writeText_append_inj {s r : String} {x y : List Char}
    (h : (writeText "" s).toList ++ x = (writeText "" r).toList ++ y) : s = r ∧ x = y := by
  -- A reader hands out the string at the quote that closes it, before it sees what comes after.
  have hread (s : String) (x : List Char) :
      ((writeText "" s).toList ++ x).foldl Scan.stepChar ⟨[], .gap⟩ =
        (x.foldl Scan.stepChar ⟨[], .gap⟩).after [.text (some s)] := by
    have hscanned := scanned_writeText (show scanned "" = ⟨[], .gap⟩ from rfl) s
    rw [scanned] at hscanned
    rw [List.foldl_append, hscanned]
    exact Scan.foldl_after ⟨[], .gap⟩ [.text (some s)] x
  have htokens := congrArg (fun text ↦ (text.foldl Scan.stepChar ⟨[], .gap⟩).tokens) h
  simp only [hread] at htokens
  obtain ⟨-, hlast⟩ := List.append_inj' htokens rfl
  cases hlast
  exact ⟨rfl, List.append_cancel_left h⟩

/-! ## Documents -/

namespace Tree

/-- The first character of a document, a digit for all that numbers begin with. -/
def lead : Tree → Char
  | .null => 'n'
  | .bool true => 't'
  | .bool false => 'f'
  | .number _ => '0'
  | .text _ => '"'
  | .array _ => '['
  | .object _ => '\x7b'

theorem exists_chars_eq_cons (t : Tree) :
    ∃ c cs, t.chars = c :: cs ∧ (if Ends c then c else '0') = t.lead := by
  cases t with
  | null => exact ⟨_, _, rfl, by decide⟩
  | bool b => cases b <;> exact ⟨_, _, rfl, by decide⟩
  | number n =>
      obtain ⟨c, cs, hcs⟩ := List.exists_cons_of_ne_nil n.write_ne_nil
      refine ⟨c, cs, hcs, if_neg ?_⟩
      apply Number.not_ends_of_mem_write (n := n)
      rw [hcs]
      exact List.mem_cons_self
  | text s =>
      obtain ⟨cs, hcs⟩ := exists_writeText_eq_cons s
      exact ⟨'"', cs, hcs, if_pos (by decide)⟩
  | array items => exact ⟨'[', _, rfl, if_pos (by decide)⟩
  | object members => exact ⟨'\x7b', _, rfl, if_pos (by decide)⟩

inductive OneKind : Tree → Tree → Prop
  | null : OneKind .null .null
  | bool (b : Bool) : OneKind (.bool b) (.bool b)
  | number (n m : Number) : OneKind (.number n) (.number m)
  | text (s r : String) : OneKind (.text s) (.text r)
  | array (items others : List Tree) : OneKind (.array items) (.array others)
  | object (members others : List (String × Tree)) : OneKind (.object members) (.object others)

theorem oneKind_of_lead_eq {t u : Tree} (h : t.lead = u.lead) : t.OneKind u := by
  have hbool (b c : Bool) (h : lead (.bool b) = lead (.bool c)) : OneKind (.bool b) (.bool c) := by
    cases b <;> cases c
    · exact .bool false
    · simp [lead] at h
    · simp [lead] at h
    · exact .bool true
  cases t with
  | bool b =>
      cases u with
      | bool c => exact hbool b c h
      | _ => cases b <;> simp [lead] at h
  | _ =>
      cases u with
      | bool c => cases c <;> simp [lead] at h
      | _ =>
          first
          | constructor
          | simp [lead] at h

theorem oneKind_of_chars {t u : Tree} {x y : List Char} (h : t.chars ++ x = u.chars ++ y) :
    t.OneKind u := by
  obtain ⟨c, cs, hcs, hc⟩ := t.exists_chars_eq_cons
  obtain ⟨d, ds, hds, hd⟩ := u.exists_chars_eq_cons
  rw [hcs, hds] at h
  obtain ⟨rfl, -⟩ := List.cons.inj h
  exact oneKind_of_lead_eq (hc.symm.trans hd)

/-- No document begins with what closes a container. -/
theorem ne_cons_append_chars {c : Char} (hc : c = ']' ∨ c = '\x7d') (t : Tree) (x y : List Char) :
    c :: x ≠ t.chars ++ y := by
  intro h
  obtain ⟨d, ds, hds, hd⟩ := t.exists_chars_eq_cons
  rw [hds] at h
  obtain ⟨rfl, -⟩ := List.cons.inj h
  have hlead : c = t.lead := by
    rwa [if_pos (by rcases hc with rfl | rfl <;> decide)] at hd
  rw [hlead] at hc
  cases t with
  | bool b => cases b <;> simp [lead] at hc
  | _ => simp [lead] at hc

theorem delimited_charsItems (items : List Tree) (x : List Char) :
    Delimited (charsItems false items ++ ']' :: x) := by
  cases items with
  | nil => simp [charsItems, Delimited, Ends]
  | cons t rest => simp [charsItems, Delimited, Ends]

theorem delimited_charsMembers (members : List (String × Tree)) (x : List Char) :
    Delimited (charsMembers false members ++ '\x7d' :: x) := by
  cases members with
  | nil => simp [charsMembers, Delimited, Ends]
  | cons t rest => simp [charsMembers, Delimited, Ends]

-- What comes after a document is left open, for inside a container that is the rest of it.
mutual

theorem alike_of_chars : ∀ (t u : Tree) {x y : List Char}, Delimited x → Delimited y →
    t.chars ++ x = u.chars ++ y → t.Alike u ∧ x = y
  | .null, u, x, y, _, _, h => by
      cases oneKind_of_chars h with
      | null => exact ⟨trivial, List.append_cancel_left h⟩
  | .bool b, u, x, y, _, _, h => by
      cases oneKind_of_chars h with
      | bool => exact ⟨rfl, List.append_cancel_left h⟩
  | .number n, u, x, y, hx, hy, h => by
      cases oneKind_of_chars h with
      | number _ m => exact Number.append_inj hx hy h
  | .text s, u, x, y, _, _, h => by
      cases oneKind_of_chars h with
      | text _ r => exact writeText_append_inj h
  | .array items, u, x, y, _, _, h => by
      cases oneKind_of_chars h with
      | array _ others =>
          simp only [chars, List.cons_append, List.append_assoc, List.nil_append] at h
          exact alike_of_charsItems items others true (List.cons.inj h).2
  | .object members, u, x, y, _, _, h => by
      cases oneKind_of_chars h with
      | object _ others =>
          simp only [chars, List.cons_append, List.append_assoc, List.nil_append] at h
          exact alike_of_charsMembers members others true (List.cons.inj h).2

theorem alike_of_charsItems : ∀ (items others : List Tree) (first : Bool) {x y : List Char},
    charsItems first items ++ ']' :: x = charsItems first others ++ ']' :: y →
      AlikeItems items others ∧ x = y
  | [], [], _, _, _, h => ⟨trivial, (List.cons.inj h).2⟩
  | [], u :: others, first, x, y, h => by
      cases first with
      | true =>
          simp only [charsItems, if_true, List.nil_append, List.append_assoc] at h
          exact absurd h (ne_cons_append_chars (.inl rfl) u x _)
      | false => simp [charsItems] at h
  | t :: rest, [], first, x, y, h => by
      cases first with
      | true =>
          simp only [charsItems, if_true, List.nil_append, List.append_assoc] at h
          exact absurd h.symm (ne_cons_append_chars (.inl rfl) t y _)
      | false => simp [charsItems] at h
  | t :: rest, u :: others, first, x, y, h => by
      simp only [charsItems, List.append_assoc] at h
      obtain ⟨ht, hrest⟩ := alike_of_chars t u (delimited_charsItems rest x)
        (delimited_charsItems others y) (List.append_cancel_left h)
      obtain ⟨hitems, hxy⟩ := alike_of_charsItems rest others false hrest
      exact ⟨⟨ht, hitems⟩, hxy⟩

theorem alike_of_charsMembers : ∀ (members others : List (String × Tree)) (first : Bool)
    {x y : List Char},
    charsMembers first members ++ '\x7d' :: x = charsMembers first others ++ '\x7d' :: y →
      AlikeMembers members others ∧ x = y
  | [], [], _, _, _, h => ⟨trivial, (List.cons.inj h).2⟩
  | [], (name, u) :: others, first, x, y, h => by
      obtain ⟨cs, hcs⟩ := exists_writeText_eq_cons name
      cases first <;> simp [charsMembers, hcs] at h
  | (name, t) :: rest, [], first, x, y, h => by
      obtain ⟨cs, hcs⟩ := exists_writeText_eq_cons name
      cases first <;> simp [charsMembers, hcs] at h
  | (name, t) :: rest, (other, u) :: others, first, x, y, h => by
      simp only [charsMembers, List.append_assoc, List.cons_append] at h
      obtain ⟨hname, hcolon⟩ := writeText_append_inj (List.append_cancel_left h)
      obtain ⟨ht, hrest⟩ := alike_of_chars t u (delimited_charsMembers rest x)
        (delimited_charsMembers others y) (List.cons.inj hcolon).2
      obtain ⟨hmembers, hxy⟩ := alike_of_charsMembers rest others false hrest
      exact ⟨⟨hname, ht, hmembers⟩, hxy⟩

end

mutual

theorem Alike.chars_eq : ∀ {t u : Tree}, t.Alike u → t.chars = u.chars
  | .null, u, h => by
      cases u with
      | null => rfl
      | _ => cases h
  | .bool b, u, h => by
      cases u with
      | bool c =>
          cases h
          rfl
      | _ => cases h
  | .number n, u, h => by
      cases u with
      | number m => exact congrArg String.toList (Number.Alike.write_eq h)
      | _ => cases h
  | .text s, u, h => by
      cases u with
      | text r =>
          cases h
          rfl
      | _ => cases h
  | .array items, u, h => by
      cases u with
      | array others => rw [chars, chars, AlikeItems.chars_eq items others h]
      | _ => cases h
  | .object members, u, h => by
      cases u with
      | object others => rw [chars, chars, AlikeMembers.chars_eq members others h]
      | _ => cases h

theorem AlikeItems.chars_eq : ∀ (items others : List Tree), AlikeItems items others →
    ∀ {first : Bool}, charsItems first items = charsItems first others
  | [], [], _, _ => rfl
  | [], _ :: _, h, _ | _ :: _, [], h, _ => by cases h
  | t :: rest, u :: others, h, first => by
      rw [charsItems, charsItems, Alike.chars_eq h.1, AlikeItems.chars_eq rest others h.2]

theorem AlikeMembers.chars_eq : ∀ (members others : List (String × Tree)),
    AlikeMembers members others →
      ∀ {first : Bool}, charsMembers first members = charsMembers first others
  | [], [], _, _ => rfl
  | [], _ :: _, h, _ | _ :: _, [], h, _ => by cases h
  | (name, t) :: rest, (other, u) :: others, h, first => by
      obtain ⟨rfl, ht, hrest⟩ := h
      rw [charsMembers, charsMembers, Alike.chars_eq ht, AlikeMembers.chars_eq rest others hrest]

end

/-- Just documents that agree have one text. -/
theorem write_eq_write_iff {t u : Tree} : t.write = u.write ↔ t.Alike u := by
  rw [← String.toList_inj, toList_write, toList_write]
  refine ⟨fun h ↦ ?_, Alike.chars_eq⟩
  have hnil : Delimited [] := by simp [Delimited]
  apply (alike_of_chars t u hnil hnil _).1
  rw [List.append_nil, List.append_nil, h]

end Tree

end RemoteObjects.Json
