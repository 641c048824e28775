import Mathlib.Data.List.Chain
import RemoteObjects.Proofs.Json.Grammar
import RemoteObjects.Proofs.Json.Scanning

/-!
# The scanner reads what the grammar spells

A text is scanned as some tokens that are all good if and only if they spell it.
-/

namespace RemoteObjects.Json

open Token

namespace Literal

theorem exponentNegative_foldl {push : Numeral → Nat → Numeral}
    (hpush : ∀ n d, (push n d).exponentNegative = n.exponentNegative) (ds : List Nat)
    (n : Numeral) : (ds.foldl push n).exponentNegative = n.exponentNegative := by
  induction ds generalizing n with
  | nil => rfl
  | cons d ds ih => rw [List.foldl_cons, ih, hpush]

theorem exponentNegative_pushWhole (n : Numeral) (d : Nat) :
    (n.pushWhole d).exponentNegative = n.exponentNegative := by
  unfold Numeral.pushWhole
  split <;> rfl

theorem exponentNegative_pushFraction (n : Numeral) (d : Nat) :
    (n.pushFraction d).exponentNegative = n.exponentNegative := by
  unfold Numeral.pushFraction
  split <;> rfl

theorem exponentNegative_fractionNumeral (l : Literal) :
    l.fractionNumeral.exponentNegative = false := by
  have hwhole : l.wholeNumeral.exponentNegative = false :=
    exponentNegative_foldl exponentNegative_pushWhole l.whole _
  rw [fractionNumeral]
  cases l.fraction with
  | none => exact hwhole
  | some ds => exact (exponentNegative_foldl exponentNegative_pushFraction ds _).trans hwhole

theorem signed_none (l : Literal) : l.signed none = { l.fractionNumeral with whole := false } := by
  simp [signed, l.exponentNegative_fractionNumeral]

end Literal

namespace Token.Scan

theorem foldl_step_some (s : Scan) (cs : List Char) :
    (cs.map some).foldl step s = cs.foldl stepChar s := by
  rw [List.foldl_map]
  rfl

/-! ## Spelled numbers are scanned -/

theorem foldl_digits {first last : Phase} {push : Numeral → Nat → Numeral}
    (hfirst : ∀ n, ∀ d < 10, extend? first n (Nat.digitChar d) = some (last, push n d))
    (hlast : ∀ n, ∀ d < 10, extend? last n (Nat.digitChar d) = some (last, push n d))
    {ds : List Nat} (h : Digits ds) (tokens : List Token) (n : Numeral) :
    (digitsText ds).foldl stepChar ⟨tokens, .number first n⟩ =
      ⟨tokens, .number last (ds.foldl push n)⟩ := by
  obtain ⟨hne, hds⟩ := h
  have hstep {phase : Phase} (hphase : ∀ n, ∀ d < 10, extend? phase n (Nat.digitChar d) =
      some (last, push n d)) (n : Numeral) {d : Nat} (hd : d < 10) :
      stepChar ⟨tokens, .number phase n⟩ (Nat.digitChar d) = ⟨tokens, .number last (push n d)⟩ := by
    simp only [stepChar, hphase n d hd]
  have hrest (ds : List Nat) (hds : ∀ d ∈ ds, d < 10) (n : Numeral) :
      (digitsText ds).foldl stepChar ⟨tokens, .number last n⟩ =
        ⟨tokens, .number last (ds.foldl push n)⟩ := by
    induction ds generalizing n with
    | nil => rfl
    | cons d ds ih =>
        rw [digitsText, List.map_cons, List.foldl_cons, hstep hlast n (hds d List.mem_cons_self)]
        exact ih (fun e he ↦ hds e (List.mem_cons_of_mem d he)) (push n d)
  cases ds with
  | nil => exact absurd rfl hne
  | cons d ds =>
      rw [digitsText, List.map_cons, List.foldl_cons, hstep hfirst n (hds d List.mem_cons_self)]
      exact hrest ds (fun e he ↦ hds e (List.mem_cons_of_mem d he)) (push n d)

theorem extend?_digit {phase : Phase} (n : Numeral) {d : Nat} (hd : d < 10) :
    extend? phase n (Nat.digitChar d) = match phase with
      | .minus => some (phaseOf d, n.pushWhole d)
      | .zero => none
      | .whole => some (.whole, n.pushWhole d)
      | .point | .fraction => some (.fraction, n.pushFraction d)
      | .exponent | .exponentSign | .power => some (.power, n.pushExponent d) := by
  simp only [extend?, digit?_digitChar d hd]
  rfl

theorem between_digit (tokens : List Token) {d : Nat} (hd : d < 10) :
    between tokens (Nat.digitChar d) = ⟨tokens, .number (phaseOf d) (.start false d)⟩ := by
  have hcases : d = 0 ∨ d = 1 ∨ d = 2 ∨ d = 3 ∨ d = 4 ∨ d = 5 ∨ d = 6 ∨ d = 7 ∨ d = 8 ∨ d = 9 := by
    omega
  rcases hcases with rfl | rfl | rfl | rfl | rfl | rfl | rfl | rfl | rfl | rfl <;> rfl

theorem pushWhole_start_zero (negative : Bool) {d : Nat} (hd : d < 10) :
    (Numeral.start negative 0).pushWhole d = .start negative d := by
  have hsize : UInt64.size = 2 ^ 64 := rfl
  have h := @pushWhole_start negative 0 d (by omega)
  rwa [Nat.zero_mul, Nat.zero_add] at h

/-- The first digit of a number, behind its sign. -/
theorem foldl_first (tokens : List Token) (negative : Bool) {d : Nat} (hd : d < 10) :
    ((if negative then ['-'] else []) ++ [Nat.digitChar d]).foldl stepChar ⟨tokens, .gap⟩ =
      ⟨tokens, .number (phaseOf d) ((Numeral.start negative 0).pushWhole d)⟩ := by
  cases negative with
  | true =>
      change stepChar ⟨tokens, .number .minus (.start true 0)⟩ (Nat.digitChar d) = _
      simp only [stepChar, extend?_digit _ hd]
  | false =>
      rw [pushWhole_start_zero false hd]
      exact between_digit tokens hd

theorem foldl_wholeText {l : Literal} (h : l.Valid) (tokens : List Token) :
    ∃ phase : Phase, (phase = .zero ∨ phase = .whole) ∧
      l.wholeText.foldl stepChar ⟨tokens, .gap⟩ = ⟨tokens, .number phase l.wholeNumeral⟩ := by
  obtain ⟨hne, hds⟩ := h.whole
  have hzero := h.zero
  rw [Literal.wholeText, Literal.wholeNumeral]
  generalize l.whole = ds at hne hds hzero
  cases ds with
  | nil => exact absurd rfl hne
  | cons d ds =>
      have hd : d < 10 := hds d List.mem_cons_self
      have hfirst := foldl_first tokens l.negative hd
      have hsplit : (if l.negative then ['-'] else []) ++ digitsText (d :: ds) =
          ((if l.negative then ['-'] else []) ++ [Nat.digitChar d]) ++ digitsText ds := by
        simp [digitsText]
      rw [hsplit, List.foldl_append, hfirst, List.foldl_cons]
      by_cases hrest : ds = []
      · subst hrest
        refine ⟨phaseOf d, ?_, rfl⟩
        unfold phaseOf
        split
        · exact .inl rfl
        · exact .inr rfl
      · -- More digits follow, so the first is not a zero.
        have hphase : phaseOf d = .whole := by
          apply if_neg
          rintro rfl
          exact hrest (List.cons.inj (hzero rfl)).2
        have hdigits : Digits ds := ⟨hrest, fun e he ↦ hds e (List.mem_cons_of_mem d he)⟩
        rw [hphase]
        exact ⟨.whole, .inr rfl, foldl_digits (fun n e he ↦ extend?_digit n he)
          (fun n e he ↦ extend?_digit n he) hdigits tokens _⟩

theorem foldl_fractionText {l : Literal} (h : l.Valid) {phase : Phase}
    (hphase : phase = .zero ∨ phase = .whole) (tokens : List Token) :
    ∃ phase' : Phase, (phase' = .zero ∨ phase' = .whole ∨ phase' = .fraction) ∧
      l.fractionText.foldl stepChar ⟨tokens, .number phase l.wholeNumeral⟩ =
        ⟨tokens, .number phase' l.fractionNumeral⟩ := by
  rw [Literal.fractionText, Literal.fractionNumeral]
  cases hfraction : l.fraction with
  | none =>
      refine ⟨phase, ?_, rfl⟩
      rcases hphase with rfl | rfl
      · exact .inl rfl
      · exact .inr (.inl rfl)
  | some ds =>
      have hpoint : stepChar ⟨tokens, .number phase l.wholeNumeral⟩ '.' =
          ⟨tokens, .number .point l.wholeNumeral.pushPoint⟩ := by
        rcases hphase with rfl | rfl <;> rfl
      refine ⟨.fraction, .inr (.inr rfl), ?_⟩
      rw [Option.elim_some, Option.elim_some, List.foldl_cons, hpoint]
      exact foldl_digits (fun n e he ↦ extend?_digit n he) (fun n e he ↦ extend?_digit n he)
        (h.fraction ds hfraction) tokens _

theorem foldl_powerText {l : Literal} (h : l.Valid) {phase : Phase}
    (hphase : phase = .zero ∨ phase = .whole ∨ phase = .fraction) (tokens : List Token) :
    ∃ phase' : Phase, phase'.complete = true ∧
      l.powerText.foldl stepChar ⟨tokens, .number phase l.fractionNumeral⟩ =
        ⟨tokens, .number phase' l.numeral⟩ := by
  rw [Literal.powerText, Literal.numeral]
  cases hpower : l.power with
  | none =>
      refine ⟨phase, ?_, rfl⟩
      rcases hphase with rfl | rfl | rfl <;> rfl
  | some p =>
      obtain ⟨hmark, hsign, hdigits⟩ := h.power p hpower
      have hbegin : stepChar ⟨tokens, .number phase l.fractionNumeral⟩ p.mark =
          ⟨tokens, .number .exponent { l.fractionNumeral with whole := false }⟩ := by
        rcases hmark with hmark | hmark <;> rw [hmark] <;>
          rcases hphase with rfl | rfl | rfl <;> rfl
      refine ⟨.power, rfl, ?_⟩
      rw [Option.elim_some, Option.elim_some, Power.text, List.foldl_cons, hbegin,
        List.foldl_append, ← l.signed_none]
      cases hs : p.sign with
      | none =>
          exact foldl_digits (fun n e he ↦ extend?_digit n he) (fun n e he ↦ extend?_digit n he)
            hdigits tokens _
      | some c =>
          have hsigned : stepChar ⟨tokens, .number .exponent (l.signed none)⟩ c =
              ⟨tokens, .number .exponentSign (l.signed (some c))⟩ := by
            rcases hsign c hs with rfl | rfl <;> rfl
          rw [Option.toList_some, List.foldl_cons, List.foldl_nil, hsigned]
          exact foldl_digits (fun n e he ↦ extend?_digit n he) (fun n e he ↦ extend?_digit n he)
            hdigits tokens _

theorem foldl_literal {l : Literal} (h : l.Valid) (tokens : List Token) :
    ∃ phase : Phase, phase.complete = true ∧
      l.text.foldl stepChar ⟨tokens, .gap⟩ = ⟨tokens, .number phase l.numeral⟩ := by
  obtain ⟨_, hwhole, hwholeText⟩ := foldl_wholeText h tokens
  obtain ⟨_, hfraction, hfractionText⟩ := foldl_fractionText h hwhole tokens
  obtain ⟨phase, hphase, hpowerText⟩ := foldl_powerText h hfraction tokens
  refine ⟨phase, hphase, ?_⟩
  rw [Literal.text, List.foldl_append, List.foldl_append, hwholeText, hfractionText, hpowerText]

end Token.Scan

/-! ## Spelled strings are scanned -/

namespace Token.Quoted

/-- A string being read, after one more piece. -/
def add (q : Quoted) : Piece → Quoted
  | .char c => q.push c
  | .unit n => q.pushUnit n
  | .stray => { q with sound := false, leading := none }

theorem escape_add {q : Quoted} (h : q.escape = .none) (p : Piece) : (q.add p).escape = .none := by
  cases p with
  | char c => rfl
  | unit n =>
      simp only [add, pushUnit]
      repeat' split
      all_goals rfl
  | stray => exact h

theorem escape_foldl_add {q : Quoted} (h : q.escape = .none) (pieces : List Piece) :
    (pieces.foldl add q).escape = .none := by
  induction pieces generalizing q with
  | nil => exact h
  | cons p pieces ih => exact ih (escape_add h p)

theorem sound_add {q : Quoted} (h : q.sound = false) (p : Piece) : (q.add p).sound = false := by
  cases p with
  | char c => simp [add, push, h]
  | unit n =>
      simp only [add, pushUnit, push]
      repeat' split
      all_goals simp [h]
  | stray => rfl

/-- No string becomes sound again. -/
theorem token_of_unsound {q : Quoted} (h : q.sound = false) (pieces : List Piece) :
    (pieces.foldl add q).token = .text none := by
  induction pieces generalizing q with
  | nil => simp [token, h]
  | cons p pieces ih => exact ih (sound_add h p)

theorem push_append (text : String) (c : Char) (cs : List Char) :
    text.push c ++ .ofList cs = text ++ .ofList (c :: cs) := String.toList_inj.mp (by simp)

theorem add_leading {q : Quoted} {n : Nat} (hn : Leading n) :
    q.add (.unit n) = ⟨q.text, q.sound && q.leading.isNone, some n, .none⟩ := if_pos hn

theorem add_paired {q : Quoted} {high low : Nat} (hhigh : q.leading = some high)
    (hlow : Trailing low) :
    q.add (.unit low) = ⟨q.text.push (paired high low), q.sound, none, .none⟩ := by
  have hleading : ¬Leading low := by omega
  rw [add, pushUnit, if_neg hleading, if_pos hlow, hhigh]
  rfl

theorem add_trailing {q : Quoted} {n : Nat} (hq : q.leading = none) (hn : Trailing n) :
    q.add (.unit n) = ⟨q.text, false, none, .none⟩ := by
  have hleading : ¬Leading n := by omega
  rw [add, pushUnit, if_neg hleading, if_pos hn, hq]

theorem add_unit {q : Quoted} {n : Nat} (hleading : ¬Leading n) (htrailing : ¬Trailing n) :
    q.add (.unit n) = q.push (.ofNat n) := by
  rw [add, pushUnit, if_neg hleading, if_neg htrailing]

/-- A leading half stands alone unless a trailing one follows. -/
theorem sound_add_of_leading {q : Quoted} {high : Nat} (hq : q.leading = some high) {p : Piece}
    (hp : ∀ n, p = .unit n → ¬Trailing n) : (q.add p).sound = false := by
  cases p with
  | char c => simp [add, push, hq]
  | stray => rfl
  | unit n =>
      by_cases hn : Leading n
      · simp [add_leading hn, hq]
      · simp [add_unit hn (hp n rfl), push, hq]

/-- What a sound string says after some more pieces; a leading half that was read last counts as
the first of them. -/
theorem token_foldl_add (pieces : List Piece) {q : Quoted} (hsound : q.sound = true)
    (hleading : ∀ n, q.leading = some n → Leading n) :
    (pieces.foldl add q).token = .text
      ((meaning (q.leading.toList.map .unit ++ pieces)).map fun cs ↦ q.text ++ .ofList cs) := by
  induction pieces generalizing q with
  | nil =>
      cases hq : q.leading with
      | none => simp [token, hsound, hq, meaning]
      | some high =>
          have halone : meaning [.unit high] = none := meaning_leading (hleading high hq) (by simp)
          simp [token, hq, halone]
  | cons p pieces ih =>
      -- A character that completes what has been read so far.
      have hpush {q' : Quoted} {c : Char} (hsound' : q'.sound = true)
          (hnone : q'.leading = none) (htext : q'.text = q.text.push c) :
          (pieces.foldl add q').token = .text
            (((meaning pieces).map (c :: ·)).map fun cs ↦ q.text ++ .ofList cs) := by
        rw [ih hsound' (by simp [hnone]), hnone, htext, Option.map_map]
        simp only [Option.toList_none, List.map_nil, List.nil_append, push_append]
        rfl
      rw [List.foldl_cons]
      cases hq : q.leading with
      | none =>
          rw [Option.toList_none, List.map_nil, List.nil_append]
          cases p with
          | char c => exact hpush (by simp [add, push, hsound, hq]) rfl rfl
          | stray => exact token_of_unsound rfl pieces
          | unit n =>
              by_cases hn : Leading n
              · rw [add_leading hn, ih (by simp [hsound, hq]) (by simpa using hn)]
                rfl
              · rw [meaning_unit hn]
                by_cases hlow : Trailing n
                · rw [add_trailing hq hlow, if_pos hlow, token_of_unsound rfl]
                  rfl
                · rw [add_unit hn hlow, if_neg hlow]
                  exact hpush (by simp [push, hsound, hq]) rfl rfl
      | some high =>
          have hhigh := hleading high hq
          rw [Option.toList_some, List.map_singleton, List.singleton_append]
          by_cases hpaired : ∃ low, p = .unit low ∧ Trailing low
          · obtain ⟨low, rfl, hlow⟩ := hpaired
            rw [add_paired hq hlow, meaning_pair hhigh hlow]
            exact hpush hsound rfl rfl
          · have halone : meaning (.unit high :: p :: pieces) = none := by
              apply meaning_leading hhigh
              rintro low others ⟨⟩ hlow
              exact hpaired ⟨low, rfl, hlow⟩
            have hunsound := sound_add_of_leading hq fun n hn hlow ↦ hpaired ⟨n, hn, hlow⟩
            rw [token_of_unsound hunsound, halone]
            rfl

theorem token_pieces (pieces : List Piece) :
    (pieces.foldl add .start).token = .text ((meaning pieces).map .ofList) := by
  have h := token_foldl_add pieces (q := .start) rfl (by simp [start])
  simpa [start] using h

end Token.Quoted

namespace Token.Scan

theorem foldl_piece {p : Piece} {s : List (Option Char)} (h : p.SpelledBy s) {q : Quoted}
    (hq : q.escape = .none) (tokens : List Token) :
    s.foldl step ⟨tokens, .string q⟩ = ⟨tokens, .string (q.add p)⟩ := by
  cases h with
  | plain hquote hslash hcontrol =>
      have hcontrol : ¬_ < _ := Nat.not_lt.mpr hcontrol
      simp [step, stepChar, Quoted.step?, hq, hquote, hslash, hcontrol, Quoted.add]
  | @letter l c h =>
      have hu : l ≠ 'u' := by
        rintro rfl
        cases h
      simp [step, stepChar, Quoted.step?, hq, hu, h, Quoted.add, Quoted.push]
  | unit ha hb hc hd =>
      simp [step, stepChar, Quoted.step?, hq, ha, hb, hc, hd, Quoted.add, Quoted.pushUnit,
        Quoted.push]
  | stray => simp [step, stepStray, Quoted.pushStray?, hq, Quoted.add]

theorem foldl_pieces {pieces : List Piece} {s : List (Option Char)} (h : PiecesSpelledBy pieces s)
    {q : Quoted} (hq : q.escape = .none) (tokens : List Token) :
    s.foldl step ⟨tokens, .string q⟩ = ⟨tokens, .string (pieces.foldl Quoted.add q)⟩ := by
  induction h generalizing q with
  | nil => rfl
  | cons hp _ ih =>
      rw [List.foldl_append, foldl_piece hp hq, ih (Quoted.escape_add hq _), List.foldl_cons]

/-! ## Spelled texts are scanned -/

theorem foldl_token {t : Token} {s : List (Option Char)} (h : t.SpelledBy s)
    (before : List Token) : (s.foldl step ⟨before, .gap⟩).Settles (t :: before) := by
  cases h with
  | @word t s h =>
      rw [foldl_step_some]
      apply Or.inl
      cases t with
      | bool b => cases b <;> cases h <;> rfl
      | number n => cases h
      | text s => cases h
      | bad => cases h
      | _ => cases h; rfl
  | number h =>
      obtain ⟨phase, hphase, htext⟩ := foldl_literal h before
      rw [foldl_step_some]
      exact .inr ⟨before, phase, _, hphase, htext, rfl⟩
  | text h =>
      have hescape := Quoted.escape_foldl_add (q := .start) rfl
      have hopen : step ⟨before, .gap⟩ (some '"') = ⟨before, .string .start⟩ := rfl
      apply Or.inl
      rw [List.cons_append, List.foldl_cons, hopen, List.foldl_append, foldl_pieces h rfl]
      simp [step, stepChar, hescape, Quoted.token_pieces]

end Token.Scan

/-- Only numbers need something between them. -/
def Token.Apart (t u : Token) : Prop := ∀ n, t = .number n → ∀ m, u ≠ .number m

/-- Nothing but a number begins with a character that could belong to a number. -/
theorem Token.SpelledBy.begins {t : Token} {s : List (Option Char)} (h : t.SpelledBy s)
    (ht : ∀ n, t ≠ .number n) : ∃ c rest, s = some c :: rest ∧ Ends c := by
  cases h with
  | @word t s h =>
      cases t with
      | bool b => cases b <;> cases h <;> exact ⟨_, _, rfl, by decide⟩
      | number n => cases h
      | text s => cases h
      | bad => cases h
      | _ => cases h; exact ⟨_, _, rfl, by decide⟩
  | number h => exact absurd rfl (ht _)
  | text h => exact ⟨'"', _, rfl, by decide⟩

theorem Blank.ends {c : Char} (h : Blank c) : Ends c := by
  rcases h with rfl | rfl | rfl | rfl <;> decide

theorem Blank.between {c : Char} (h : Blank c) (tokens : List Token) :
    Scan.between tokens c = ⟨tokens, .gap⟩ := by
  rcases h with rfl | rfl | rfl | rfl <;> rfl

theorem Spells.settles {text : List (Option Char)} {tokens : List Token} (h : Spells text tokens)
    (hapart : tokens.IsChain Apart) {s : Scan} {before : List Token} (hs : s.Settles before)
    (hfirst : s = ⟨before, .gap⟩ ∨ ∀ n, tokens.head? ≠ some (.number n)) :
    (text.foldl Scan.step s).Settles (tokens.reverse ++ before) := by
  induction h generalizing s before with
  | nil => exact hs
  | @blank c text tokens hc _ ih =>
      have hstep : s.step (some c) = ⟨before, .gap⟩ := (hs.step hc.ends).trans (hc.between before)
      rw [List.foldl_cons, hstep]
      exact ih hapart (.inl rfl) (.inl rfl)
  | @token t spelling text tokens ht _ ih =>
      have hgap : spelling.foldl Scan.step s = spelling.foldl Scan.step ⟨before, .gap⟩ := by
        rcases hfirst with rfl | hfirst
        · rfl
        · obtain ⟨c, rest, rfl, hc⟩ := ht.begins fun n hn ↦ hfirst n (congrArg some hn)
          rw [List.foldl_cons, List.foldl_cons]
          exact congrArg (List.foldl Scan.step · rest) (hs.step hc)
      obtain ⟨hnext, hapart⟩ := List.isChain_cons.mp hapart
      have ht' := Scan.foldl_token ht before
      rw [List.foldl_append, hgap, List.reverse_cons, List.append_assoc]
      apply ih hapart ht'
      rcases ht' with hs | ⟨_, phase, n, -, -, hn⟩
      · exact .inl hs
      · -- The token is a number, so none follows.
        right
        intro m hm
        exact hnext _ hm _ (List.cons.inj hn).1 m rfl

theorem Spells.scan_eq {text : List (Option Char)} {tokens : List Token} (h : Spells text tokens)
    (hapart : tokens.IsChain Apart) : scan text = tokens := by
  have hsettles := @Spells.settles _ _ h hapart ⟨[], .gap⟩ [] (.inl rfl) (.inl rfl)
  rw [scan, hsettles.finish, List.append_nil, List.reverse_reverse]

end RemoteObjects.Json
