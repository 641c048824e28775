import RemoteObjects.Json.Text
import RemoteObjects.Json.Token
import RemoteObjects.Json.Write

/-!
# Written documents are scanned back

The writer appends a document to what it has written, and the scanner goes on from where it
stands, so each piece of a document adds its own tokens.  A number is complete only when something
else comes after it.
-/

namespace RemoteObjects.Json

open Token

/-! ## Scanning on -/

/-- What has been read when a text has been scanned that is still being written. -/
def scanned (out : String) : Scan := out.toList.foldl Scan.stepChar ⟨[], .gap⟩

theorem scanned_append (out s : String) :
    scanned (out ++ s) = s.toList.foldl Scan.stepChar (scanned out) := by
  rw [scanned, String.toList_append, List.foldl_append, scanned]

theorem scanned_push (out : String) (c : Char) :
    scanned (out.push c) = (scanned out).stepChar c := by
  rw [scanned, String.toList_push, List.foldl_append, scanned]
  rfl

theorem scan_charsOf (s : String) : scan (charsOf s) = (scanned s).finish.reverse := by
  rw [scan, charsOf, List.foldl_map, scanned]
  rfl

/-- Whether some tokens have been read completely, except that a number may still go on. -/
def Token.Scan.Settles (s : Scan) (tokens : List Token) : Prop :=
  s = ⟨tokens, .gap⟩ ∨ ∃ before phase n, phase.complete = true ∧ s = ⟨before, .number phase n⟩ ∧
    tokens = .number n.number? :: before

theorem Token.Scan.Settles.finish {s : Scan} {tokens : List Token} (h : s.Settles tokens) :
    s.finish = tokens := by
  rcases h with rfl | ⟨before, phase, n, hphase, rfl, rfl⟩
  · rfl
  · exact if_pos hphase

/-- What may follow a number without becoming part of it. -/
def Token.Ends (c : Char) : Prop := c.isDigit = false ∧ c ∉ ['.', 'e', 'E', '+', '-']

instance (c : Char) : Decidable (Token.Ends c) := inferInstanceAs (Decidable (_ ∧ _))

theorem Token.Ends.extend? {c : Char} (hc : Ends c) (phase : Phase) (n : Numeral) :
    extend? phase n c = none := by
  obtain ⟨hdigit, hmark⟩ := hc
  simp only [List.mem_cons, List.not_mem_nil, or_false, not_or] at hmark
  simp [Token.extend?, digit?, hdigit, hmark]

theorem Token.Scan.Settles.step {s : Scan} {tokens : List Token} (h : s.Settles tokens) {c : Char}
    (hc : Ends c) : s.stepChar c = Scan.between tokens c := by
  rcases h with rfl | ⟨before, phase, n, hphase, rfl, rfl⟩
  · rfl
  · simp [Scan.stepChar, hc.extend?, hphase, hc.1]

/-! ## Integers -/

theorem digit?_digitChar : ∀ d < 10, digit? (Nat.digitChar d) = some d := by decide

theorem toNat_toUInt64 {n : Nat} (h : n < UInt64.size) : n.toUInt64.toNat = n := by
  rw [Nat.toUInt64, UInt64.toNat_ofNat']
  exact Nat.mod_eq_of_lt h

theorem pushWhole_start {negative : Bool} {n d : Nat} (h : n * 10 + d < UInt64.size) :
    (Numeral.start negative n).pushWhole d = .start negative (n * 10 + d) := by
  have hn : n.toUInt64.toNat = n := toNat_toUInt64 (by omega)
  simp [Numeral.pushWhole, Numeral.keep?, Numeral.start, hn, h]

def phaseOf (n : Nat) : Phase := if n = 0 then .zero else .whole

theorem complete_phaseOf (n : Nat) : (phaseOf n).complete = true := by
  unfold phaseOf
  split <;> rfl

/-- The digits of an integer add up, if the first of them is read as the beginning of one. -/
theorem scanned_repr {out : String} {negative : Bool} {tokens : List Token}
    (hfirst : ∀ d < 10, (scanned out).stepChar (Nat.digitChar d) =
      ⟨tokens, .number (phaseOf d) (.start negative d)⟩) (n : Nat) (hn : n < UInt64.size) :
    scanned (out ++ n.repr) = ⟨tokens, .number (phaseOf n) (.start negative n)⟩ := by
  induction n using Nat.strongRecOn with
  | _ n ih =>
      rcases Nat.lt_or_ge n 10 with hsmall | hlarge
      · rw [Nat.repr_of_lt hsmall, ← String.push_eq_append, scanned_push]
        exact hfirst n hsmall
      · have hrest := ih (n / 10) (by omega) (by omega)
        have hsum : n / 10 * 10 + n % 10 = n := by omega
        have hpush : (Numeral.start negative (n / 10)).pushWhole (n % 10) = .start negative n := by
          rw [pushWhole_start (by omega), hsum]
        have hbefore : phaseOf (n / 10) = .whole := if_neg (by omega)
        have hafter : phaseOf n = .whole := if_neg (by omega)
        rw [Nat.repr_of_ge hlarge, ← String.append_assoc, ← String.push_eq_append, scanned_push,
          hrest, hbefore, hafter]
        simp only [Scan.stepChar, extend?, digit?_digitChar (n % 10) (by omega), hpush]

theorem number?_start_natural (n : UInt64) :
    (Numeral.start false n.toNat).number? = some (.natural n) := by
  simp [Numeral.number?, Numeral.start]

theorem number?_start_negative (below : Fin 0x8000000000000000) :
    (Numeral.start true (below.val + 1)).number? = some (.negative below) := by
  have hbelow := below.isLt
  have hsize : UInt64.size = 2 ^ 64 := rfl
  have hdigits : (Numeral.start true (below.val + 1)).digits.toNat = below.val + 1 :=
    toNat_toUInt64 (by omega)
  rw [Numeral.number?, if_pos ⟨rfl, rfl⟩,
    if_pos (show (Numeral.start true (below.val + 1)).negative = true from rfl),
    dif_pos ⟨by omega, by omega⟩]
  simp only [hdigits, Nat.add_sub_cancel]

/-- Whether a number is the one token that is read from its own text. -/
def Number.ReadsBack (n : Number) : Prop := scan (charsOf n.write) = [.number (some n)]

theorem scanned_natural {out : String} {tokens : List Token} (hout : scanned out = ⟨tokens, .gap⟩)
    (n : UInt64) :
    (scanned (out ++ (Number.natural n).write)).Settles
      (.number (some (.natural n)) :: tokens) := by
  have hfirst : ∀ d < 10, (scanned out).stepChar (Nat.digitChar d) =
      ⟨tokens, .number (phaseOf d) (.start false d)⟩ := by
    intro d hd
    rw [hout]
    have hcases : d = 0 ∨ d = 1 ∨ d = 2 ∨ d = 3 ∨ d = 4 ∨ d = 5 ∨ d = 6 ∨ d = 7 ∨ d = 8 ∨
        d = 9 := by
      omega
    rcases hcases with rfl | rfl | rfl | rfl | rfl | rfl | rfl | rfl | rfl | rfl <;> rfl
  have hscanned := scanned_repr hfirst n.toNat n.toNat_lt
  refine .inr ⟨tokens, phaseOf n.toNat, .start false n.toNat, ?_, hscanned, ?_⟩
  · exact complete_phaseOf n.toNat
  · rw [number?_start_natural]

theorem scanned_negative {out : String} {tokens : List Token} (hout : scanned out = ⟨tokens, .gap⟩)
    (below : Fin 0x8000000000000000) :
    (scanned (out ++ (Number.negative below).write)).Settles
      (.number (some (.negative below)) :: tokens) := by
  have hbelow := below.isLt
  have hsize : UInt64.size = 2 ^ 64 := rfl
  have hminus : scanned (out ++ "-") = ⟨tokens, .number .minus (.start true 0)⟩ := by
    rw [scanned_append, hout]
    rfl
  have hfirst : ∀ d < 10, (scanned (out ++ "-")).stepChar (Nat.digitChar d) =
      ⟨tokens, .number (phaseOf d) (.start true d)⟩ := by
    intro d hd
    have hpush := @pushWhole_start true 0 d (by omega)
    rw [Nat.zero_mul, Nat.zero_add] at hpush
    rw [hminus]
    simp only [Scan.stepChar, extend?, digit?_digitChar d hd, hpush]
    rfl
  have hscanned := scanned_repr hfirst (below.val + 1) (by omega)
  rw [String.append_assoc] at hscanned
  refine .inr ⟨tokens, phaseOf (below.val + 1), .start true (below.val + 1), ?_, hscanned, ?_⟩
  · exact complete_phaseOf (below.val + 1)
  · rw [number?_start_negative]

/-! ## Floats -/

namespace Token.Scan

/-- The same reading after some more tokens. -/
def after (s : Scan) (tokens : List Token) : Scan := ⟨s.tokens ++ tokens, s.mode⟩

theorem between_after (tokens : List Token) (c : Char) :
    between tokens c = (between [] c).after tokens := by
  unfold between
  split
  case h_16 =>
      split <;> rfl
  all_goals rfl

theorem stepChar_after (s : Scan) (tokens : List Token) (c : Char) :
    (s.after tokens).stepChar c = (s.stepChar c).after tokens := by
  have hbetween (before : List Token) :
      between (before ++ tokens) c = (between before c).after tokens := by
    rw [between_after, between_after before]
    simp [after]
  obtain ⟨before, mode⟩ := s
  cases mode with
  | gap => exact hbetween before
  | word left token =>
      cases left with
      | nil => exact hbetween (token :: before)
      | cons l left =>
          simp only [stepChar, after]
          split
          · rfl
          · split <;> rfl
  | number phase n =>
      simp only [stepChar, after]
      split
      · rfl
      · split
        · exact hbetween (.number n.number? :: before)
        · rfl
  | string q =>
      simp only [stepChar, after]
      split
      · rfl
      · split <;> rfl
  | bad => rfl

theorem foldl_after (s : Scan) (tokens : List Token) (text : List Char) :
    text.foldl stepChar (s.after tokens) = (text.foldl stepChar s).after tokens := by
  induction text generalizing s with
  | nil => rfl
  | cons c text ih => rw [List.foldl_cons, List.foldl_cons, stepChar_after, ih]

/-- Whoever reads nothing any more has met a fault. -/
def Sound (s : Scan) : Prop := s.mode = .bad → .bad ∈ s.tokens

theorem Sound.stop (tokens : List Token) : (stop tokens).Sound := fun _ ↦ List.mem_cons_self

theorem Sound.between (tokens : List Token) (c : Char) : (between tokens c).Sound := by
  unfold Scan.between
  split
  case h_16 =>
      split
      · simp [Sound]
      · exact .stop tokens
  all_goals simp [Sound]

theorem Sound.step {s : Scan} (h : s.Sound) (c : Char) : (s.stepChar c).Sound := by
  obtain ⟨before, mode⟩ := s
  cases mode with
  | gap => exact .between before c
  | word left token =>
      cases left with
      | nil => exact .between (token :: before) c
      | cons l left =>
          simp only [stepChar]
          split
          · exact .stop before
          · split <;> simp [Sound]
  | number phase n =>
      simp only [stepChar]
      split
      · simp [Sound]
      · split
        · exact .between _ c
        · exact .stop before
  | string q =>
      simp only [stepChar]
      split
      · simp [Sound]
      · split
        · simp [Sound]
        · exact .stop before
  | bad => exact h

end Token.Scan

theorem scanned_sound (out : String) : (scanned out).Sound := by
  unfold scanned
  have h (s : Scan) (hs : s.Sound) (text : List Char) : (text.foldl Scan.stepChar s).Sound := by
    induction text generalizing s with
    | nil => exact hs
    | cons c text ih => exact ih _ (hs.step c)
  exact h _ (by simp [Scan.Sound]) _

/-- What reads back alone reads back within a document. -/
theorem scanned_float {out : String} {tokens : List Token} (hout : scanned out = ⟨tokens, .gap⟩)
    {x : Binary64.Finite} (hx : (Number.float x).ReadsBack) :
    (scanned (out ++ (Number.float x).write)).Settles (.number (some (.float x)) :: tokens) := by
  have halone : (scanned (Number.float x).write).finish = [.number (some (.float x))] := by
    rw [Number.ReadsBack, scan_charsOf] at hx
    simpa using congrArg List.reverse hx
  have hafter : scanned (out ++ (Number.float x).write) =
      (scanned (Number.float x).write).after tokens := by
    rw [scanned_append, hout]
    exact Scan.foldl_after ⟨[], .gap⟩ tokens _
  have hsound := scanned_sound (Number.float x).write
  rw [hafter]
  generalize scanned (Number.float x).write = s at halone hsound
  obtain ⟨before, mode⟩ := s
  cases mode with
  | gap =>
      cases halone
      exact .inl rfl
  | number phase n =>
      simp only [Scan.finish] at halone
      split at halone
      · next hphase =>
          obtain ⟨hn, rfl⟩ := List.cons.inj halone
          exact .inr ⟨tokens, phase, n, hphase, rfl, by rw [hn]⟩
      · cases halone
  | bad =>
      cases halone
      simpa using hsound rfl
  | _ => cases halone

/-! ## Strings -/

/-- A string of which some text has been read, all of it sound. -/
def Token.Quoted.plain (text : String) : Quoted := ⟨text, true, none, .none⟩

theorem hexValue?_hexDigit : ∀ d < 16, Quoted.hexValue? (hexDigit d) = some d := by decide

theorem Token.Scan.step_hex {tokens : List Token} {q : Quoted} {left value d : Nat}
    (hq : q.escape = .hex left value) (hd : d < 16) :
    Scan.stepChar ⟨tokens, .string q⟩ (hexDigit d) =
      ⟨tokens, .string (if left ≤ 1 then q.pushUnit (value * 16 + d)
        else { q with escape := .hex (left - 1) (value * 16 + d) })⟩ := by
  simp [stepChar, Quoted.step?, hq, hexValue?_hexDigit d hd]

/-- A control character without a letter of its own is written by its number. -/
theorem scanned_unicode {out text : String} {tokens : List Token}
    (hout : scanned out = ⟨tokens, .string (.plain text)⟩) {c : Char} (hc : c.toNat < 0x20) :
    scanned (((out ++ "\\u00").push (hexDigit (c.toNat / 16))).push (hexDigit c.toNat)) =
      ⟨tokens, .string (.plain (text.push c))⟩ := by
  have hlast : hexDigit c.toNat = hexDigit (c.toNat % 16) := by simp [hexDigit]
  have hbegun : scanned (out ++ "\\u00") = ⟨tokens, .string ⟨text, true, none, .hex 2 0⟩⟩ := by
    rw [scanned_append, hout]
    rfl
  have hmiddle : Scan.stepChar ⟨tokens, .string ⟨text, true, none, .hex 2 0⟩⟩
      (hexDigit (c.toNat / 16)) = ⟨tokens, .string ⟨text, true, none, .hex 1 (c.toNat / 16)⟩⟩ := by
    rw [Scan.step_hex rfl (by omega)]
    simp
  have hunit : Quoted.pushUnit ⟨text, true, none, .hex 1 (c.toNat / 16)⟩ c.toNat =
      .plain (text.push c) := by
    rw [Quoted.pushUnit, if_neg (by omega), if_neg (by omega), Char.ofNat_toNat]
    rfl
  have hvalue : c.toNat / 16 * 16 + c.toNat % 16 = c.toNat := by omega
  rw [scanned_push, scanned_push, hbegun, hmiddle, hlast, Scan.step_hex rfl (by omega), hvalue,
    hunit]
  rfl

theorem scanned_writeChar {out text : String} {tokens : List Token}
    (hout : scanned out = ⟨tokens, .string (.plain text)⟩) (c : Char) :
    scanned (writeChar out c) = ⟨tokens, .string (.plain (text.push c))⟩ := by
  have hletter {escape : String} (hescape : escape.toList.foldl Scan.stepChar
      ⟨tokens, .string (.plain text)⟩ = ⟨tokens, .string (.plain (text.push c))⟩) :
      scanned (out ++ escape) = ⟨tokens, .string (.plain (text.push c))⟩ := by
    rw [scanned_append, hout, hescape]
  have hcode {n : Nat} (hn : c.toNat = n) : c = Char.ofNat n := by rw [← hn, Char.ofNat_toNat]
  unfold writeChar
  split
  · next hc =>
      subst hc
      exact hletter rfl
  · next hquote =>
      split
      · next hc =>
          subst hc
          exact hletter rfl
      · next hslash =>
          split
          · next hprintable =>
              rw [scanned_push, hout]
              have hnot : ¬c.toNat < 0x20 := Nat.not_lt.mpr hprintable
              simp [Scan.stepChar, Quoted.step?, Quoted.plain, hquote, hslash, hnot, Quoted.push]
          · next hcontrol =>
              repeat' split
              · next hc => exact hletter (by rw [hc]; rfl)
              · next hc => exact hletter (by rw [hc]; rfl)
              · next hc => exact hletter (by rw [hc]; rfl)
              · next hc => exact hletter (by rw [hcode hc]; rfl)
              · next hc => exact hletter (by rw [hcode hc]; rfl)
              · exact scanned_unicode hout (Nat.lt_of_not_le hcontrol)

theorem scanned_writeText {out : String} {tokens : List Token} (hout : scanned out = ⟨tokens, .gap⟩)
    (s : String) : scanned (writeText out s) = ⟨.text (some s) :: tokens, .gap⟩ := by
  have hopen : scanned (out.push '"') = ⟨tokens, .string (.plain "")⟩ := by
    rw [scanned_push, hout]
    rfl
  have hchars (text : String) (cs : List Char) {out : String}
      (hout : scanned out = ⟨tokens, .string (.plain text)⟩) :
      scanned (cs.foldl writeChar out) = ⟨tokens, .string (.plain (text ++ .ofList cs))⟩ := by
    induction cs generalizing text out with
    | nil => simpa using hout
    | cons c cs ih =>
        rw [List.foldl_cons, ih _ (scanned_writeChar hout c)]
        have htext : text.push c ++ .ofList cs = text ++ .ofList (c :: cs) :=
          String.toList_inj.mp (by simp)
        rw [htext]
  rw [writeText, String.foldl_eq_foldl_toList, scanned_push, hchars "" s.toList hopen]
  simp [Scan.stepChar, Quoted.plain, Quoted.token]

/-! ## Documents -/

namespace Tree

mutual

def tokens : Tree → List Token
  | .null => [.null]
  | .bool b => [.bool b]
  | .number n => [.number (some n)]
  | .text s => [.text (some s)]
  | .array items => .openArray :: tokensItems true items ++ [.closeArray]
  | .object members => .openObject :: tokensMembers true members ++ [.closeObject]

def tokensItems (first : Bool) : List Tree → List Token
  | [] => []
  | t :: rest => (if first then [] else [.comma]) ++ t.tokens ++ tokensItems false rest

def tokensMembers (first : Bool) : List (String × Tree) → List Token
  | [] => []
  | (name, t) :: rest =>
    (if first then [] else [.comma]) ++ .text (some name) :: .colon :: t.tokens ++
      tokensMembers false rest

end

mutual

/-- Whether all floats of a document read back from their own texts. -/
def ReadsBack : Tree → Prop
  | .number n => ∀ x, n = .float x → n.ReadsBack
  | .array items => ReadsBackItems items
  | .object members => ReadsBackMembers members
  | _ => True

def ReadsBackItems : List Tree → Prop
  | [] => True
  | t :: rest => t.ReadsBack ∧ ReadsBackItems rest

def ReadsBackMembers : List (String × Tree) → Prop
  | [] => True
  | (_, t) :: rest => t.ReadsBack ∧ ReadsBackMembers rest

end

/-- A comma stands before each entry of a container but the first. -/
theorem scanned_comma {first : Bool} {out : String} {tokens : List Token}
    (hfirst : first = true → scanned out = ⟨tokens, .gap⟩) (hout : (scanned out).Settles tokens) :
    scanned (if first then out else out.push ',') =
      ⟨(if first then [] else [.comma]) ++ tokens, .gap⟩ := by
  cases first with
  | true => exact hfirst rfl
  | false =>
      change scanned (out.push ',') = _
      rw [scanned_push, hout.step (by decide)]
      rfl

mutual

theorem scanned_writeTo : ∀ (t : Tree) {out : String} {before : List Token},
    t.ReadsBack → scanned out = ⟨before, .gap⟩ →
      (scanned (t.writeTo out)).Settles (t.tokens.reverse ++ before)
  | .null, out, before, _, hout => by
      rw [writeTo, scanned_append, hout]
      exact .inl rfl
  | .bool b, out, before, _, hout => by
      rw [writeTo, scanned_append, hout]
      cases b <;> exact .inl rfl
  | .number n, out, before, hread, hout => by
      cases n with
      | natural n => exact scanned_natural hout n
      | negative below => exact scanned_negative hout below
      | float x => exact scanned_float hout (hread x rfl)
  | .text s, out, before, _, hout => .inl (scanned_writeText hout s)
  | .array items, out, before, hread, hout => by
      have hopen : scanned (out.push '[') = ⟨.openArray :: before, .gap⟩ := by
        rw [scanned_push, hout]
        rfl
      have hitems := scanned_writeItems items true hread (fun _ ↦ hopen) (.inl hopen)
      rw [writeTo, scanned_push, hitems.step (by decide)]
      apply Or.inl
      simp [Scan.between, tokens]
  | .object members, out, before, hread, hout => by
      have hopen : scanned (out.push '\x7b') = ⟨.openObject :: before, .gap⟩ := by
        rw [scanned_push, hout]
        rfl
      have hmembers := scanned_writeMembers members true hread (fun _ ↦ hopen) (.inl hopen)
      rw [writeTo, scanned_push, hmembers.step (by decide)]
      apply Or.inl
      simp [Scan.between, tokens]

theorem scanned_writeItems : ∀ (items : List Tree) (first : Bool) {out : String}
    {before : List Token}, ReadsBackItems items →
      (first = true → scanned out = ⟨before, .gap⟩) → (scanned out).Settles before →
        (scanned (writeItems first out items)).Settles ((tokensItems first items).reverse ++ before)
  | [], first, out, before, _, _, hout => hout
  | t :: rest, first, out, before, hread, hfirst, hout => by
      have ht := scanned_writeTo t hread.1 (scanned_comma hfirst hout)
      have hrest := scanned_writeItems rest false hread.2 (by simp) ht
      have htokens : (tokensItems first (t :: rest)).reverse ++ before =
          (tokensItems false rest).reverse ++
            (t.tokens.reverse ++ ((if first then [] else [.comma]) ++ before)) := by
        cases first <;> simp [tokensItems]
      rw [writeItems, htokens]
      exact hrest

theorem scanned_writeMembers : ∀ (members : List (String × Tree)) (first : Bool) {out : String}
    {before : List Token}, ReadsBackMembers members →
      (first = true → scanned out = ⟨before, .gap⟩) → (scanned out).Settles before →
        (scanned (writeMembers first out members)).Settles
          ((tokensMembers first members).reverse ++ before)
  | [], first, out, before, _, _, hout => hout
  | (name, t) :: rest, first, out, before, hread, hfirst, hout => by
      have hname := scanned_writeText (scanned_comma hfirst hout) name
      have hcolon := scanned_push (writeText (if first then out else out.push ',') name) ':'
      rw [hname] at hcolon
      have ht := scanned_writeTo t hread.1 hcolon
      have hrest := scanned_writeMembers rest false hread.2 (by simp) ht
      have htokens : (tokensMembers first ((name, t) :: rest)).reverse ++ before =
          (tokensMembers false rest).reverse ++ (t.tokens.reverse ++
            .colon :: .text (some name) :: ((if first then [] else [.comma]) ++ before)) := by
        cases first <;> simp [tokensMembers]
      rw [writeMembers, htokens]
      exact hrest

end

theorem scan_write {t : Tree} (h : t.ReadsBack) : scan (charsOf t.write) = t.tokens := by
  have hsettles := scanned_writeTo t h (show scanned "" = ⟨[], .gap⟩ from rfl)
  rw [scan_charsOf, write, hsettles.finish]
  simp

end Tree

end RemoteObjects.Json
