import RemoteObjects.Proofs.Json.Lexing

/-!
# What the scanner reads is spelled

While a text is scanned, what has been read of it spells the tokens so far and the beginning of one
more, or a fault has been met.  So tokens without a fault spell the text they were scanned from.
-/

namespace RemoteObjects.Json

open Token

/-! ## Scanned numbers are spelled -/

theorem Token.digit?_eq_some {c : Char} {d : Nat} (h : digit? c = some d) :
    d < 10 ∧ c = Nat.digitChar d := by
  unfold digit? at h
  split at h
  · next hc =>
      cases h
      have hbounds : 48 ≤ c.toNat ∧ c.toNat ≤ 57 := by
        simpa [Char.isDigit, UInt32.le_iff_toNat_le] using hc
      have hlt : c.toNat - 48 < 10 := by omega
      refine ⟨hlt, Char.toNat_inj.mp ?_⟩
      rw [Nat.toNat_digitChar_of_lt_ten hlt]
      omega
  · cases h

theorem Digits.singleton {d : Nat} (hd : d < 10) : Digits [d] := by
  refine ⟨List.cons_ne_nil d [], fun e he ↦ ?_⟩
  rwa [List.mem_singleton.mp he]

theorem Digits.concat {ds : List Nat} (h : Digits ds) {d : Nat} (hd : d < 10) :
    Digits (ds ++ [d]) := by
  refine ⟨List.concat_ne_nil d ds, fun e he ↦ ?_⟩
  rcases List.mem_append.mp he with he | he
  · exact h.2 e he
  · rwa [List.mem_singleton.mp he]

/-- What a number may look like where the reading stands in it. -/
inductive Token.Phase.Begun : Phase → Numeral → List Char → Prop where
  | minus : Begun .minus (.start true 0) ['-']
  | zero {l : Literal} (h : l.Valid) (hwhole : l.whole = [0]) (hfraction : l.fraction = none)
    (hpower : l.power = none) : Begun .zero l.numeral l.text
  | whole {l : Literal} (h : l.Valid) (hwhole : l.whole.head? ≠ some 0)
    (hfraction : l.fraction = none) (hpower : l.power = none) : Begun .whole l.numeral l.text
  | point {l : Literal} (h : l.Valid) (hfraction : l.fraction = none) (hpower : l.power = none) :
    Begun .point l.numeral.pushPoint (l.text ++ ['.'])
  | fraction {l : Literal} {ds : List Nat} (h : l.Valid) (hfraction : l.fraction = some ds)
    (hpower : l.power = none) : Begun .fraction l.numeral l.text
  | exponent {l : Literal} {mark : Char} (h : l.Valid) (hpower : l.power = none)
    (hmark : mark = 'e' ∨ mark = 'E') : Begun .exponent (l.signed none) (l.text ++ [mark])
  | exponentSign {l : Literal} {mark sign : Char} (h : l.Valid) (hpower : l.power = none)
    (hmark : mark = 'e' ∨ mark = 'E') (hsign : sign = '+' ∨ sign = '-') :
    Begun .exponentSign (l.signed (some sign)) (l.text ++ [mark, sign])
  | power {l : Literal} {p : Power} (h : l.Valid) (hpower : l.power = some p) :
    Begun .power l.numeral l.text

namespace Token.Phase.Begun

theorem first (negative : Bool) {d : Nat} (hd : d < 10) :
    Begun (phaseOf d) (.start negative d)
      ((if negative then ['-'] else []) ++ [Nat.digitChar d]) := by
  let l : Literal := ⟨negative, [d], none, none⟩
  have hvalid : l.Valid := by
    refine ⟨.singleton hd, ?_, by simp [l], by simp [l]⟩
    rintro ⟨⟩
    rfl
  have hnumeral : l.numeral = .start negative d := Scan.pushWhole_start_zero negative hd
  have htext : l.text = (if negative then ['-'] else []) ++ [Nat.digitChar d] := by
    simp [l, Literal.text, Literal.wholeText, Literal.fractionText, Literal.powerText, digitsText]
  rw [← hnumeral, ← htext]
  by_cases hzero : d = 0
  · subst hzero
    exact .zero hvalid rfl rfl rfl
  · rw [phaseOf, if_neg hzero]
    exact .whole hvalid (by simpa [l] using hzero) rfl rfl

theorem whole_digit {l : Literal} (h : l.Valid) (hwhole : l.whole.head? ≠ some 0)
    (hfraction : l.fraction = none) (hpower : l.power = none) {d : Nat} (hd : d < 10) :
    Begun .whole (l.numeral.pushWhole d) (l.text ++ [Nat.digitChar d]) := by
  let l' : Literal := { l with whole := l.whole ++ [d] }
  have hhead : l'.whole.head? = l.whole.head? := List.head?_append_of_ne_nil _ h.whole.1
  have hvalid : l'.Valid := by
    refine ⟨h.whole.concat hd, ?_, h.fraction, h.power⟩
    intro hzero
    exact absurd (hhead.symm.trans hzero) hwhole
  have hnumeral : l'.numeral = l.numeral.pushWhole d := by
    simp [l', Literal.numeral, Literal.fractionNumeral, Literal.wholeNumeral, hfraction, hpower]
  have htext : l'.text = l.text ++ [Nat.digitChar d] := by
    simp [l', Literal.text, Literal.wholeText, Literal.fractionText, Literal.powerText,
      digitsText, hfraction, hpower]
  rw [← hnumeral, ← htext]
  exact .whole hvalid (hhead ▸ hwhole) hfraction hpower

theorem fraction_first {l : Literal} (h : l.Valid) (hfraction : l.fraction = none)
    (hpower : l.power = none) {d : Nat} (hd : d < 10) :
    Begun .fraction (l.numeral.pushPoint.pushFraction d)
      (l.text ++ ['.'] ++ [Nat.digitChar d]) := by
  let l' : Literal := { l with fraction := some [d] }
  have hvalid : l'.Valid := by
    refine ⟨h.whole, h.zero, ?_, h.power⟩
    rintro ds ⟨⟩
    exact .singleton hd
  have hnumeral : l'.numeral = l.numeral.pushPoint.pushFraction d := by
    simp [l', Literal.numeral, Literal.fractionNumeral, Literal.wholeNumeral, hfraction, hpower]
  have htext : l'.text = l.text ++ ['.'] ++ [Nat.digitChar d] := by
    simp [l', Literal.text, Literal.wholeText, Literal.fractionText, Literal.powerText,
      digitsText, hfraction, hpower]
  rw [← hnumeral, ← htext]
  exact .fraction hvalid rfl hpower

theorem fraction_digit {l : Literal} {ds : List Nat} (h : l.Valid)
    (hfraction : l.fraction = some ds) (hpower : l.power = none) {d : Nat} (hd : d < 10) :
    Begun .fraction (l.numeral.pushFraction d) (l.text ++ [Nat.digitChar d]) := by
  let l' : Literal := { l with fraction := some (ds ++ [d]) }
  have hvalid : l'.Valid := by
    refine ⟨h.whole, h.zero, ?_, h.power⟩
    rintro ds ⟨⟩
    exact (h.fraction _ hfraction).concat hd
  have hnumeral : l'.numeral = l.numeral.pushFraction d := by
    simp [l', Literal.numeral, Literal.fractionNumeral, Literal.wholeNumeral, hfraction, hpower]
  have htext : l'.text = l.text ++ [Nat.digitChar d] := by
    simp [l', Literal.text, Literal.wholeText, Literal.fractionText, Literal.powerText,
      digitsText, hfraction, hpower]
  rw [← hnumeral, ← htext]
  exact .fraction hvalid rfl hpower

theorem power_first {l : Literal} (h : l.Valid) (hpower : l.power = none) {mark : Char}
    (hmark : mark = 'e' ∨ mark = 'E') {sign : Option Char}
    (hsign : ∀ c ∈ sign, c = '+' ∨ c = '-') {d : Nat} (hd : d < 10) :
    Begun .power ((l.signed sign).pushExponent d)
      (l.text ++ mark :: sign.toList ++ [Nat.digitChar d]) := by
  let l' : Literal := { l with power := some ⟨mark, sign, [d]⟩ }
  have hvalid : l'.Valid := by
    refine ⟨h.whole, h.zero, h.fraction, ?_⟩
    rintro p ⟨⟩
    exact ⟨hmark, hsign, .singleton hd⟩
  have htext : l'.text = l.text ++ mark :: sign.toList ++ [Nat.digitChar d] := by
    simp [l', Literal.text, Literal.wholeText, Literal.fractionText, Literal.powerText,
      Power.text, digitsText, hpower]
  rw [← htext]
  exact .power hvalid rfl

theorem power_digit {l : Literal} {p : Power} (h : l.Valid) (hpower : l.power = some p)
    {d : Nat} (hd : d < 10) :
    Begun .power (l.numeral.pushExponent d) (l.text ++ [Nat.digitChar d]) := by
  let l' : Literal := { l with power := some { p with digits := p.digits ++ [d] } }
  have hp := h.power p hpower
  have hvalid : l'.Valid := by
    refine ⟨h.whole, h.zero, h.fraction, ?_⟩
    rintro p ⟨⟩
    exact ⟨hp.mark, hp.sign, hp.digits.concat hd⟩
  have hnumeral : l'.numeral = l.numeral.pushExponent d := by
    simp [l', Literal.numeral, Literal.signed, Literal.fractionNumeral, Literal.wholeNumeral,
      hpower]
  have htext : l'.text = l.text ++ [Nat.digitChar d] := by
    simp [l', Literal.text, Literal.wholeText, Literal.fractionText, Literal.powerText,
      Power.text, digitsText, hpower]
  rw [← hnumeral, ← htext]
  exact .power hvalid rfl

theorem digit {phase phase' : Phase} {n n' : Numeral} {text : List Char}
    (h : Begun phase n text) {d : Nat} (hd : d < 10)
    (hextend : extend? phase n (Nat.digitChar d) = some (phase', n')) :
    Begun phase' n' (text ++ [Nat.digitChar d]) := by
  rw [Scan.extend?_digit n hd] at hextend
  cases h with
  | minus =>
      cases hextend
      rw [Scan.pushWhole_start_zero true hd]
      exact first true hd
  -- A whole part that starts with a zero ends with it.
  | zero => cases hextend
  | whole h hwhole hfraction hpower =>
      cases hextend
      exact whole_digit h hwhole hfraction hpower hd
  | point h hfraction hpower =>
      cases hextend
      exact fraction_first h hfraction hpower hd
  | fraction h hfraction hpower =>
      cases hextend
      exact fraction_digit h hfraction hpower hd
  | exponent h hpower hmark =>
      cases hextend
      exact power_first h hpower hmark (by simp) hd
  | exponentSign h hpower hmark hsign =>
      cases hextend
      exact power_first h hpower hmark (by simpa using hsign) hd
  | power h hpower =>
      cases hextend
      exact power_digit h hpower hd

/-- A character that is no digit adds a point, the mark of a power or the sign of one. -/
theorem mark {phase phase' : Phase} {n n' : Numeral} {text : List Char}
    (h : Begun phase n text) {c : Char} (hc : digit? c = none)
    (hextend : extend? phase n c = some (phase', n')) : Begun phase' n' (text ++ [c]) := by
  simp only [extend?, hc] at hextend
  split at hextend
  · next hpoint =>
      obtain ⟨rfl, hphase⟩ := hpoint
      cases hextend
      cases h with
      | zero h _ hfraction hpower => exact .point h hfraction hpower
      | whole h _ hfraction hpower => exact .point h hfraction hpower
      | _ => simp at hphase
  · split at hextend
    · next hpower =>
        obtain ⟨hmark, hphase⟩ := hpower
        cases hextend
        have hbegin {l : Literal} (h : l.Valid) (hpower : l.power = none) :
            Begun .exponent { l.numeral with whole := false } (l.text ++ [c]) := by
          have hnumeral : l.numeral = l.fractionNumeral := by simp [Literal.numeral, hpower]
          rw [hnumeral, ← l.signed_none]
          exact .exponent h hpower hmark
        cases h with
        | zero h _ _ hpower => exact hbegin h hpower
        | whole h _ _ hpower => exact hbegin h hpower
        | fraction h _ hpower => exact hbegin h hpower
        | _ => simp at hphase
    · split at hextend
      · next hsign =>
          obtain ⟨hsign, rfl⟩ := hsign
          cases hextend
          cases h with
          | exponent h hpower hmark =>
              rw [List.append_assoc]
              exact .exponentSign h hpower hmark hsign
      · cases hextend

theorem step {phase phase' : Phase} {n n' : Numeral} {text : List Char}
    (h : Begun phase n text) {c : Char} (hextend : extend? phase n c = some (phase', n')) :
    Begun phase' n' (text ++ [c]) := by
  cases hc : digit? c with
  | none => exact h.mark hc hextend
  | some d =>
      obtain ⟨hd, rfl⟩ := digit?_eq_some hc
      exact h.digit hd hextend

theorem spelledBy {phase : Phase} {n : Numeral} {text : List Char} (h : Begun phase n text)
    (hphase : phase.complete = true) : (Token.number n.number?).SpelledBy (text.map some) := by
  cases h with
  | zero h | whole h | fraction h | power h => exact .number h
  | _ => cases hphase

end Token.Phase.Begun

/-! ## Scanned strings are spelled -/

/-- What an escape may look like where the reading stands in it. -/
inductive Token.Escape.Begun : Escape → List (Option Char) → Prop where
  | none : Begun .none []
  | started : Begun .started [some '\\']
  | four : Begun (.hex 4 0) [some '\\', some 'u']
  | three {a : Char} {i : Nat} (ha : Quoted.hexValue? a = some i) :
    Begun (.hex 3 i) [some '\\', some 'u', some a]
  | two {a b : Char} {i j : Nat} (ha : Quoted.hexValue? a = some i)
    (hb : Quoted.hexValue? b = some j) :
    Begun (.hex 2 (i * 16 + j)) [some '\\', some 'u', some a, some b]
  | one {a b c : Char} {i j k : Nat} (ha : Quoted.hexValue? a = some i)
    (hb : Quoted.hexValue? b = some j) (hc : Quoted.hexValue? c = some k) :
    Begun (.hex 1 ((i * 16 + j) * 16 + k)) [some '\\', some 'u', some a, some b, some c]

theorem PiecesSpelledBy.concat {pieces : List Piece} {text : List (Option Char)}
    (h : PiecesSpelledBy pieces text) {p : Piece} {s : List (Option Char)} (hp : p.SpelledBy s) :
    PiecesSpelledBy (pieces ++ [p]) (text ++ s) := by
  induction h with
  | nil => simpa using PiecesSpelledBy.cons hp .nil
  | cons hfirst _ ih =>
      rw [List.append_assoc]
      exact .cons hfirst ih

namespace Token.Quoted

/-- A string as it has been read from a text: some pieces, and perhaps part of an escape. -/
inductive ReadFrom : Quoted → List (Option Char) → Prop where
  | mk {pieces : List Piece} {body rest : List (Option Char)} {e : Escape}
    (hbody : PiecesSpelledBy pieces body) (hrest : e.Begun rest) :
    ReadFrom { pieces.foldl add .start with escape := e } (body ++ rest)

theorem ReadFrom.start : start.ReadFrom [] := .mk .nil .none

theorem ReadFrom.piece {pieces : List Piece} {body s : List (Option Char)} {p : Piece}
    (hbody : PiecesSpelledBy pieces body) (hp : p.SpelledBy s) :
    ((pieces.foldl add .start).add p).ReadFrom (body ++ s) := by
  have hescape : ((pieces.foldl add .start).add p).escape = .none :=
    escape_add (escape_foldl_add rfl pieces) p
  have h := ReadFrom.mk (hbody.concat hp) .none
  rw [List.foldl_append, List.foldl_cons, List.foldl_nil, List.append_nil, ← hescape] at h
  exact h

theorem ReadFrom.stray {q q' : Quoted} {text : List (Option Char)} (h : q.ReadFrom text)
    (hstep : q.pushStray? = some q') : q'.ReadFrom (text ++ [none]) := by
  obtain ⟨hbody, hrest⟩ := h
  cases hrest with
  | none =>
      have hescape := escape_foldl_add (q := .start) rfl
      cases hstep
      rw [List.append_nil, ← hescape]
      exact .piece hbody .stray
  | _ => cases hstep

theorem ReadFrom.step {q q' : Quoted} {text : List (Option Char)} (h : q.ReadFrom text) {c : Char}
    (hquote : ¬(c = '"' ∧ q.escape = .none)) (hstep : q.step? c = some q') :
    q'.ReadFrom (text ++ [some c]) := by
  obtain ⟨hbody, hrest⟩ := h
  rw [List.append_assoc]
  cases hrest with
  | none =>
      simp only [step?] at hstep
      split at hstep
      · next hc =>
          subst hc
          cases hstep
          exact .mk hbody .started
      · next hslash =>
          split at hstep
          · cases hstep
          · next hcontrol =>
              cases hstep
              have hplain : c ≠ '"' := fun hc ↦ hquote ⟨hc, rfl⟩
              exact .piece hbody (.plain hplain hslash (Nat.not_lt.mp hcontrol))
  | started =>
      simp only [step?] at hstep
      split at hstep
      · next hc =>
          subst hc
          cases hstep
          exact .mk hbody .four
      · obtain ⟨c', hletter, rfl⟩ := Option.map_eq_some_iff.mp hstep
        exact .piece hbody (.letter hletter)
  | four =>
      obtain ⟨d, hd, rfl⟩ := Option.map_eq_some_iff.mp hstep
      simpa using ReadFrom.mk hbody (.three hd)
  | three ha =>
      obtain ⟨d, hd, rfl⟩ := Option.map_eq_some_iff.mp hstep
      exact .mk hbody (.two ha hd)
  | two ha hb =>
      obtain ⟨d, hd, rfl⟩ := Option.map_eq_some_iff.mp hstep
      exact .mk hbody (.one ha hb hd)
  | one ha hb hc =>
      obtain ⟨d, hd, rfl⟩ := Option.map_eq_some_iff.mp hstep
      exact .piece hbody (.unit ha hb hc hd)

theorem ReadFrom.spelledBy {q : Quoted} {text : List (Option Char)} (h : q.ReadFrom text)
    (hq : q.escape = .none) : q.token.SpelledBy (some '"' :: text ++ [some '"']) := by
  obtain ⟨hbody, hrest⟩ := h
  cases hrest with
  | none =>
      have htoken := SpelledBy.text hbody
      rw [← token_pieces] at htoken
      rwa [List.append_nil]
  | _ => cases hq

end Token.Quoted

/-! ## Scanned texts are spelled -/

theorem Spells.append {a b : List (Option Char)} {ts us : List Token} (ha : Spells a ts)
    (hb : Spells b us) : Spells (a ++ b) (ts ++ us) := by
  induction ha with
  | nil => exact hb
  | blank hc _ ih => exact .blank hc ih
  | token ht _ ih =>
      rw [List.append_assoc]
      exact .token ht ih

theorem Spells.concat {text s : List (Option Char)} {tokens : List Token} {t : Token}
    (h : Spells text tokens.reverse) (ht : t.SpelledBy s) :
    Spells (text ++ s) (t :: tokens).reverse := by
  have hlast := h.append (.token ht .nil)
  rwa [List.append_nil, ← List.reverse_cons] at hlast

theorem Spells.concat_blank {text : List (Option Char)} {tokens : List Token} {c : Char}
    (h : Spells text tokens) (hc : Blank c) : Spells (text ++ [some c]) tokens := by
  have hlast := h.append (.blank hc .nil)
  rwa [List.append_nil] at hlast

namespace Token

/-- What a token may look like of which some has been read. -/
inductive Mode.Begun : Mode → List (Option Char) → Prop where
  | gap : Begun .gap []
  | word {token : Token} {w : String} {done left : List Char} (hw : token.word? = some w)
    (hsplit : w.toList = done ++ left) (hleft : left ≠ []) :
    Begun (.word left token) (done.map some)
  | number {phase : Phase} {n : Numeral} {text : List Char} (h : phase.Begun n text) :
    Begun (.number phase n) (text.map some)
  | string {q : Quoted} {text : List (Option Char)} (h : q.ReadFrom text) :
    Begun (.string q) (some '"' :: text)

namespace Scan

/-- The state of reading after a text: its tokens so far are spelled by the text up to the token
that is being read, unless a fault has been met. -/
inductive ReadFrom : Scan → List (Option Char) → Prop where
  | good {tokens : List Token} {mode : Mode} {before rest : List (Option Char)}
    (hbefore : Spells before tokens.reverse) (hrest : mode.Begun rest) :
    ReadFrom ⟨tokens, mode⟩ (before ++ rest)
  | bad {tokens : List Token} {text : List (Option Char)} (h : .bad ∈ tokens) :
    ReadFrom ⟨tokens, .bad⟩ text

theorem ReadFrom.gap {tokens : List Token} {text : List (Option Char)}
    (h : Spells text tokens.reverse) : ReadFrom ⟨tokens, .gap⟩ text := by
  have hgood := ReadFrom.good h .gap
  rwa [List.append_nil] at hgood

theorem ReadFrom.stop (tokens : List Token) (text : List (Option Char)) :
    (stop tokens).ReadFrom text := .bad List.mem_cons_self

theorem ReadFrom.between {tokens : List Token} {text : List (Option Char)}
    (h : Spells text tokens.reverse) (c : Char) :
    (between tokens c).ReadFrom (text ++ [some c]) := by
  have hpunctuation {t : Token} {w : String} (hw : t.word? = some w) (hc : w.toList = [c]) :
      ReadFrom ⟨t :: tokens, .gap⟩ (text ++ [some c]) := by
    have ht := SpelledBy.word hw
    rw [hc] at ht
    exact .gap (h.concat ht)
  have hblank (hc : Blank c) : ReadFrom ⟨tokens, .gap⟩ (text ++ [some c]) :=
    .gap (h.concat_blank hc)
  have hword {t : Token} {w : String} {left : List Char} (hw : t.word? = some w)
      (hsplit : w.toList = c :: left) (hleft : left ≠ []) :
      ReadFrom ⟨tokens, .word left t⟩ (text ++ [some c]) :=
    .good h (@Mode.Begun.word t w [c] left hw hsplit hleft)
  unfold Scan.between
  split
  · exact hblank (.inl rfl)
  · exact hblank (.inr (.inl rfl))
  · exact hblank (.inr (.inr (.inl rfl)))
  · exact hblank (.inr (.inr (.inr rfl)))
  · exact hpunctuation rfl rfl
  · exact hpunctuation rfl rfl
  · exact hpunctuation rfl rfl
  · exact hpunctuation rfl rfl
  · exact hpunctuation rfl rfl
  · exact hpunctuation rfl rfl
  · exact hword rfl rfl (by simp)
  · exact hword rfl rfl (by simp)
  · exact hword rfl rfl (by simp)
  · exact .good h (.string .start)
  · exact .good h (.number .minus)
  · split
    · next d hdigit =>
        obtain ⟨hd, rfl⟩ := digit?_eq_some hdigit
        exact .good h (.number (.first false hd))
    · exact .stop tokens _

theorem ReadFrom.stepStray {tokens : List Token} {mode : Mode} {before rest : List (Option Char)}
    (hbefore : Spells before tokens.reverse) (hrest : mode.Begun rest) :
    (stepStray ⟨tokens, mode⟩).ReadFrom (before ++ (rest ++ [none])) := by
  unfold Scan.stepStray
  cases hrest with
  | string h =>
      simp only
      split
      · next hstep => exact .good hbefore (.string (h.stray hstep))
      · exact .stop tokens _
  | _ => exact .stop _ _

/-- The next letter of a word, which may be its last one. -/
theorem ReadFrom.stepWord {tokens : List Token} {before : List (Option Char)} {token : Token}
    {w : String} {done left : List Char} {l : Char} (hbefore : Spells before tokens.reverse)
    (hw : token.word? = some w) (hsplit : w.toList = done ++ l :: left) :
    ReadFrom (if left.isEmpty then ⟨token :: tokens, .gap⟩ else ⟨tokens, .word left token⟩)
      (before ++ (done.map some ++ [some l])) := by
  have hdone : done.map some ++ [some l] = (done ++ [l]).map some := by
    rw [List.map_append, List.map_singleton]
  have hsplit' : w.toList = (done ++ [l]) ++ left := by
    rw [hsplit, List.append_assoc]
    rfl
  rw [hdone]
  split
  · next hempty =>
      rw [List.isEmpty_iff.mp hempty, List.append_nil] at hsplit'
      rw [← hsplit']
      exact .gap (hbefore.concat (.word hw))
  · next hleft =>
      refine .good hbefore (.word hw hsplit' ?_)
      rintro rfl
      exact hleft rfl

theorem ReadFrom.stepChar {tokens : List Token} {mode : Mode} {before rest : List (Option Char)}
    (hbefore : Spells before tokens.reverse) (hrest : mode.Begun rest) (c : Char) :
    (stepChar ⟨tokens, mode⟩ c).ReadFrom (before ++ (rest ++ [some c])) := by
  unfold Scan.stepChar
  cases hrest with
  | gap => exact .between hbefore c
  | @word token w done left hw hsplit hleft =>
      cases left with
      | nil => exact absurd rfl hleft
      | cons l left =>
          simp only
          split
          · exact .stop tokens _
          · next hc =>
              obtain rfl : c = l := Classical.not_not.mp hc
              exact .stepWord hbefore hw hsplit
  | number h =>
      simp only
      split
      · next hextend =>
          have hstep := Mode.Begun.number (h.step hextend)
          rw [List.map_append] at hstep
          exact .good hbefore hstep
      · split
        · next hcomplete =>
            rw [← List.append_assoc]
            exact .between (hbefore.concat (h.spelledBy hcomplete.1)) c
        · exact .stop tokens _
  | string h =>
      simp only
      split
      · next hquote =>
          obtain ⟨rfl, hq⟩ := hquote
          exact .gap (hbefore.concat (h.spelledBy hq))
      · next hquote =>
          split
          · next hstep => exact .good hbefore (.string (h.step hquote hstep))
          · exact .stop tokens _

theorem ReadFrom.step {s : Scan} {text : List (Option Char)} (h : s.ReadFrom text)
    (c : Option Char) : (s.step c).ReadFrom (text ++ [c]) := by
  cases h with
  | bad h => cases c <;> exact .bad h
  | good hbefore hrest =>
      rw [List.append_assoc]
      cases c with
      | none => exact .stepStray hbefore hrest
      | some c => exact .stepChar hbefore hrest c

theorem ReadFrom.spells {s : Scan} {text : List (Option Char)} (h : s.ReadFrom text)
    (hgood : .bad ∉ s.finish) : Spells text s.finish.reverse := by
  cases h with
  | bad h => exact absurd h hgood
  | @good tokens mode before rest hbefore hrest =>
      cases hrest with
      | gap => rwa [List.append_nil]
      | number h =>
          simp only [finish] at hgood ⊢
          split at hgood
          · next hphase =>
              rw [if_pos hphase]
              exact hbefore.concat (h.spelledBy hphase)
          · exact absurd List.mem_cons_self hgood
      | word | string => exact absurd List.mem_cons_self hgood

end Scan

/-- Tokens that are all good spell the text they were scanned from. -/
theorem spells_scan {text : List (Option Char)} (h : .bad ∉ scan text) :
    Spells text (scan text) := by
  have hread (s : Scan) (before rest : List (Option Char)) (hs : s.ReadFrom before) :
      (rest.foldl Scan.step s).ReadFrom (before ++ rest) := by
    induction rest generalizing s before with
    | nil => rwa [List.append_nil]
    | cons c rest ih => simpa using ih (s.step c) (before ++ [c]) (hs.step c)
  have hend := hread ⟨[], .gap⟩ [] text (.gap .nil)
  apply hend.spells
  intro hbad
  exact h (List.mem_reverse.mpr hbad)

end Token

end RemoteObjects.Json
