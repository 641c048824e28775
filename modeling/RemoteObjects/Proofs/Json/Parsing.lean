import RemoteObjects.Proofs.Json.Reading
import RemoteObjects.Proofs.Json.Spelling

/-!
# A document is read exactly from what spells it

The tokens read so far are those of the containers that are still open and of what is complete in
them, so a document that comes out whole is spelled by its text.  A text spells at most one.
-/

namespace RemoteObjects.Json

namespace Draft

/-! ## The tokens of open containers -/

/-- The comma before the next entry, if it is not the first. -/
def comma {α : Type} (entries : List α) : List Token := if entries.isEmpty then [] else [.comma]

theorem comma_of_ne_nil {α : Type} {entries : List α} (h : entries ≠ []) :
    comma entries = [.comma] := by
  rw [comma, List.isEmpty_eq_false_iff.mpr h]
  rfl

theorem tokensItems_concat (first : Bool) (items : List Draft) (d : Draft) :
    tokensItems first (items ++ [d]) = tokensItems first items ++
      ((if first && items.isEmpty then [] else [.comma]) ++ d.tokens) := by
  induction items generalizing first with
  | nil => simp [tokensItems]
  | cons e rest ih => simp [tokensItems, ih]

theorem tokensMembers_concat (first : Bool) (members : List (Option String × Draft))
    (name : Option String) (d : Draft) :
    tokensMembers first (members ++ [(name, d)]) =
      tokensMembers first members ++ ((if first && members.isEmpty then [] else [.comma]) ++
        [.text name, .colon] ++ d.tokens) := by
  induction members generalizing first with
  | nil => simp [tokensMembers]
  | cons e rest ih => simp [tokensMembers, ih]

namespace Open

/-- The tokens of the entries so far. -/
def entries : Open → List Token
  | .array items => .openArray :: tokensItems true items.reverse
  | .object members _ => .openObject :: tokensMembers true members.reverse

/-- The tokens up to the awaited value. -/
def tokens : Open → List Token
  | .array items => entries (.array items) ++ comma items
  | .object members name => entries (.object members name) ++ comma members ++ [.text name, .colon]

theorem entries_add (o : Open) (d : Draft) : (o.add d).entries = o.tokens ++ d.tokens := by
  cases o with
  | array items => simp [add, entries, tokens, comma, tokensItems_concat]
  | object members name => simp [add, entries, tokens, comma, tokensMembers_concat]

/-- The tokens up to the value that is awaited in the innermost of some containers. -/
def stackTokens : List Open → List Token
  | [] => []
  | o :: stack => stackTokens stack ++ o.tokens

theorem closed_close_add {d : Draft} (h : d.closed = false) (o : Open) :
    (o.add d).close.closed = false := by
  rw [← Bool.not_eq_true] at h ⊢
  intro hclosed
  cases o with
  | array items => exact h (closedItems_iff.mp hclosed d (by simp))
  | object members name => exact h (closedMembers_iff.mp hclosed (name, d) (by simp))

theorem closed_abandon {d : Draft} (h : d.closed = false) (stack : List Open) :
    (abandon stack d).closed = false := by
  induction stack generalizing d with
  | nil => exact h
  | cons o stack ih => exact ih (closed_close_add h o)

end Open

/-! ## What is read is spelled -/

namespace Stage

open Open

/-- The stage of reading after some tokens. -/
inductive ReadFrom : Stage → List Token → Prop where
  | value {stack : List Open} : ReadFrom (.value stack) (stackTokens stack)
  | firstItem {stack : List Open} : ReadFrom (.firstItem stack) (stackTokens stack ++ [.openArray])
  | firstMember {stack : List Open} :
    ReadFrom (.member true [] stack) (stackTokens stack ++ [.openObject])
  | member {members : List (Option String × Draft)} {stack : List Open} (h : members ≠ []) :
    ReadFrom (.member false members stack)
      (stackTokens stack ++ entries (.object members none) ++ [.comma])
  | colon {name : Option String} {members : List (Option String × Draft)} {stack : List Open} :
    ReadFrom (.colon name members stack)
      (stackTokens stack ++ entries (.object members none) ++ comma members ++ [.text name])
  | array {items : List Draft} {stack : List Open} (h : items ≠ []) :
    ReadFrom (.separator (.array items) stack) (stackTokens stack ++ entries (.array items))
  | object {members : List (Option String × Draft)} {stack : List Open} (h : members ≠ []) :
    ReadFrom (.separator (.object members none) stack)
      (stackTokens stack ++ entries (.object members none))
  | complete {d : Draft} : ReadFrom (.complete d false) d.tokens
  | surplus {d : Draft} {tokens : List Token} : ReadFrom (.complete d true) tokens
  | broken {d : Draft} {tokens : List Token} (h : d.closed = false) : ReadFrom (.broken d) tokens

theorem ReadFrom.after (stack : List Open) (d : Draft) :
    (after stack d).ReadFrom (stackTokens stack ++ d.tokens) := by
  cases stack with
  | nil => exact .complete
  | cons o stack =>
      rw [stackTokens, List.append_assoc, ← entries_add]
      cases o with
      | array items => exact .array (List.cons_ne_nil _ _)
      | object members name => exact .object (List.cons_ne_nil _ _)

theorem ReadFrom.value? {stack : List Open} {t : Token} {stage : Stage}
    (h : value? stack t = some stage) : stage.ReadFrom (stackTokens stack ++ [t]) := by
  cases t with
  | openArray => cases h; exact .firstItem
  | openObject => cases h; exact .firstMember
  | null => cases h; exact .after stack .null
  | bool b => cases h; exact .after stack (.bool b)
  | number n => cases h; exact .after stack (.number n)
  | text s => cases h; exact .after stack (.text s)
  | _ => cases h

theorem ReadFrom.step? {stage stage' : Stage} {tokens : List Token} {t : Token}
    (h : stage.ReadFrom tokens) (hstep : stage.step? t = some stage') :
    stage'.ReadFrom (tokens ++ [t]) := by
  cases h with
  | value => exact .value? hstep
  | @firstItem stack =>
      cases t with
      | closeArray =>
          cases hstep
          rw [List.append_assoc]
          exact .after stack (.array [])
      | _ => exact @ReadFrom.value? (.array [] :: stack) _ _ hstep
  | @firstMember stack =>
      cases t with
      | text s =>
          cases hstep
          rw [List.append_assoc]
          simpa [comma, entries, tokensMembers] using @ReadFrom.colon s [] stack
      | closeObject =>
          cases hstep
          rw [List.append_assoc]
          exact .after stack (.object [])
      | _ => cases hstep
  | @member members stack h =>
      cases t with
      | text s =>
          cases hstep
          rw [← comma_of_ne_nil h]
          exact .colon
      | _ => cases hstep
  | @colon name members stack =>
      cases t with
      | colon =>
          cases hstep
          simpa [stackTokens, Open.tokens, entries] using
            @ReadFrom.value (.object members name :: stack)
      | _ => cases hstep
  | @array items stack h =>
      cases t with
      | comma =>
          cases hstep
          rw [List.append_assoc, ← comma_of_ne_nil h]
          exact .value
      | closeArray =>
          cases hstep
          rw [List.append_assoc]
          exact .after stack (.array items.reverse)
      | _ => cases hstep
  | @object members stack h =>
      cases t with
      | comma =>
          cases hstep
          exact .member h
      | closeObject =>
          cases hstep
          rw [List.append_assoc]
          exact .after stack (.object members.reverse)
      | _ => cases hstep
  | complete | surplus | broken => cases hstep

/-- What a text leaves that stops before a document is complete is cut off somewhere. -/
theorem closed_abandon {stage : Stage} (hcomplete : ∀ d surplus, stage ≠ .complete d surplus)
    (hbroken : ∀ d, stage ≠ .broken d) : stage.abandon.closed = false := by
  cases stage with
  | value stack => exact Open.closed_abandon rfl stack
  | firstItem stack => exact Open.closed_abandon rfl stack
  | member first members stack => exact Open.closed_abandon (closed_close_add rfl _) stack
  | colon name members stack => exact Open.closed_abandon (closed_close_add rfl _) stack
  | separator inner stack => exact Open.closed_abandon (closed_close_add rfl _) stack
  | complete d surplus => exact absurd rfl (hcomplete d surplus)
  | broken d => exact absurd rfl (hbroken d)

theorem ReadFrom.step {stage : Stage} {tokens : List Token} (h : stage.ReadFrom tokens)
    (t : Token) : (stage.step t).ReadFrom (tokens ++ [t]) := by
  have hstep (hcomplete : ∀ d surplus, stage ≠ .complete d surplus)
      (hbroken : ∀ d, stage ≠ .broken d) :
      ((stage.step? t).getD (.broken stage.abandon)).ReadFrom (tokens ++ [t]) := by
    cases hnext : stage.step? t with
    | none => exact .broken (closed_abandon hcomplete hbroken)
    | some next => exact h.step? hnext
  cases h with
  | complete => exact .surplus
  | surplus => exact .surplus
  | broken h => exact .broken h
  | _ => exact hstep (by simp) (by simp)

theorem ReadFrom.foldl {stage : Stage} {before : List Token} (h : stage.ReadFrom before)
    (tokens : List Token) : (tokens.foldl Stage.step stage).ReadFrom (before ++ tokens) := by
  induction tokens generalizing stage before with
  | nil => rwa [List.append_nil]
  | cons t tokens ih => simpa using ih (h.step t)

end Stage

theorem tokens_of_ofTokens {tokens : List Token} {d : Draft} (hd : d.closed = true)
    (h : ofTokens tokens = (d, false)) : tokens = d.tokens := by
  have hread := (@Stage.ReadFrom.value []).foldl tokens
  rw [Open.stackTokens, List.nil_append] at hread
  rw [ofTokens] at h
  generalize tokens.foldl Stage.step (.value []) = stage at h hread
  have hcut (hcomplete : ∀ d surplus, stage ≠ .complete d surplus)
      (hbroken : ∀ d, stage ≠ .broken d) : stage.abandon ≠ d := by
    rintro rfl
    rw [Stage.closed_abandon hcomplete hbroken] at hd
    cases hd
  cases hread with
  | complete => cases h; rfl
  | surplus => cases h
  | broken hbroken =>
      cases h
      rw [Stage.abandon, hbroken] at hd
      cases hd
  | _ => exact absurd (Prod.mk.inj h).1 (hcut (by simp) (by simp))

/-! ## Documents and their texts -/

theorem isChain_cons {t : Token} (ht : ∀ n, t ≠ .number n) {rest : List Token}
    (h : rest.IsChain Token.Apart) : (t :: rest).IsChain Token.Apart :=
  List.isChain_cons.mpr ⟨fun _ _ n hn ↦ absurd hn (ht n), h⟩

theorem isChain_comma {first : Bool} {rest : List Token} (h : rest.IsChain Token.Apart) :
    ((if first then [] else [Token.comma]) ++ rest).IsChain Token.Apart := by
  cases first with
  | true => exact h
  | false => exact isChain_cons (by simp) h

theorem head?_tokensItems (items : List Draft) {rest : List Token}
    (h : ∀ n, rest.head? ≠ some (.number n)) (n : Option Number) :
    (tokensItems false items ++ rest).head? ≠ some (.number n) := by
  cases items with
  | nil => exact h n
  | cons d items => simp [tokensItems]

theorem head?_tokensMembers (members : List (Option String × Draft)) {rest : List Token}
    (h : ∀ n, rest.head? ≠ some (.number n)) (n : Option Number) :
    (tokensMembers false members ++ rest).head? ≠ some (.number n) := by
  cases members with
  | nil => exact h n
  | cons e members => simp [tokensMembers]

mutual

/-- No two numbers of a document stand side by side, nor does one before what is no number. -/
theorem isChain_tokens : ∀ (d : Draft) {rest : List Token}, rest.IsChain Token.Apart →
    (∀ n, rest.head? ≠ some (.number n)) → (d.tokens ++ rest).IsChain Token.Apart
  | .null, _, h, _ | .bool _, _, h, _ | .text _, _, h, _ | .cut, _, h, _ =>
      isChain_cons (by simp) h
  | .number _, rest, h, hhead => by
      refine List.isChain_cons.mpr ⟨?_, h⟩
      rintro u hu n - m rfl
      exact hhead m hu
  | .array items, rest, h, _ => by
      have hclose : (Token.closeArray :: rest).IsChain Token.Apart := isChain_cons (by simp) h
      simp only [tokens, List.cons_append, List.append_assoc]
      exact isChain_cons (by simp) (isChain_tokensItems items true hclose (by simp))
  | .object members, rest, h, _ => by
      have hclose : (Token.closeObject :: rest).IsChain Token.Apart := isChain_cons (by simp) h
      simp only [tokens, List.cons_append, List.append_assoc]
      exact isChain_cons (by simp) (isChain_tokensMembers members true hclose (by simp))

theorem isChain_tokensItems : ∀ (items : List Draft) (first : Bool) {rest : List Token},
    rest.IsChain Token.Apart → (∀ n, rest.head? ≠ some (.number n)) →
      (tokensItems first items ++ rest).IsChain Token.Apart
  | [], _, _, h, _ => h
  | d :: items, first, rest, h, hhead => by
      have hrest := isChain_tokensItems items false h hhead
      rw [tokensItems, List.append_assoc, List.append_assoc]
      exact isChain_comma (isChain_tokens d hrest (head?_tokensItems items hhead))

theorem isChain_tokensMembers : ∀ (members : List (Option String × Draft)) (first : Bool)
    {rest : List Token}, rest.IsChain Token.Apart → (∀ n, rest.head? ≠ some (.number n)) →
      (tokensMembers first members ++ rest).IsChain Token.Apart
  | [], _, _, h, _ => h
  | (name, d) :: members, first, rest, h, hhead => by
      have hrest := isChain_tokensMembers members false h hhead
      have hd := isChain_tokens d hrest (head?_tokensMembers members hhead)
      have hname : (Token.text name :: .colon :: (d.tokens ++
          (tokensMembers false members ++ rest))).IsChain Token.Apart :=
        isChain_cons (by simp) (isChain_cons (by simp) hd)
      rw [tokensMembers, List.append_assoc, List.append_assoc]
      exact isChain_comma hname

end

mutual

theorem bad_notMem_tokens : ∀ {d : Draft}, d.closed = true → .bad ∉ d.tokens
  | .null, _ | .bool _, _ | .number _, _ | .text _, _ => by simp [tokens]
  | .array items, h => by
      have hitems := bad_notMem_tokensItems true h
      simpa [tokens] using hitems
  | .object members, h => by
      have hmembers := bad_notMem_tokensMembers true h
      simpa [tokens] using hmembers

theorem bad_notMem_tokensItems : ∀ (first : Bool) {items : List Draft},
    closedItems items = true → .bad ∉ tokensItems first items
  | _, [], _ => by simp [tokensItems]
  | first, d :: rest, h => by
      obtain ⟨hd, hclosed⟩ := Bool.and_eq_true_iff.mp h
      have hfirst := bad_notMem_tokens hd
      have hrest := bad_notMem_tokensItems false hclosed
      cases first <;> simp [tokensItems, hfirst, hrest]

theorem bad_notMem_tokensMembers : ∀ (first : Bool) {members : List (Option String × Draft)},
    closedMembers members = true → .bad ∉ tokensMembers first members
  | _, [], _ => by simp [tokensMembers]
  | first, (name, d) :: rest, h => by
      obtain ⟨hd, hclosed⟩ := Bool.and_eq_true_iff.mp h
      have hfirst := bad_notMem_tokens hd
      have hrest := bad_notMem_tokensMembers false hclosed
      cases first <;> simp [tokensMembers, hfirst, hrest]

end

/-- A text is read as a document, with nothing after it, if and only if it spells the document. -/
theorem spelledBy_iff {d : Draft} {text : List (Option Char)} :
    d.SpelledBy text ↔ d.closed = true ∧ ofTokens (Token.scan text) = (d, false) := by
  constructor
  · rintro ⟨hclosed, hspells⟩
    have hchain : d.tokens.IsChain Token.Apart := by
      have h := isChain_tokens d (@List.IsChain.nil _ Token.Apart) (by simp)
      rwa [List.append_nil] at h
    rw [hspells.scan_eq hchain]
    exact ⟨hclosed, ofTokens_tokens hclosed⟩
  · rintro ⟨hclosed, hread⟩
    have htokens := tokens_of_ofTokens hclosed hread
    have hgood : .bad ∉ Token.scan text := by
      rw [htokens]
      exact bad_notMem_tokens hclosed
    refine ⟨hclosed, ?_⟩
    rw [← htokens]
    exact Token.spells_scan hgood

end Draft

/-! ## Reading data -/

variable {α : Type}

/-- Whether a decoder refuses a text that is cut off somewhere. -/
def Decoder.Whole (decode : Decoder α) : Prop :=
  ∀ d a, decode (.text nestingLimit) d = .ok a → d.closed = true

theorem read_of_spelledBy {decode : Decoder α} {text : List (Option Char)} {d : Draft}
    (h : d.SpelledBy text) : read decode text = decode (.text nestingLimit) d := by
  rw [read, (Draft.spelledBy_iff.mp h).2]
  cases hd : decode (.text nestingLimit) d with
  | ok a =>
      simp only [bind, Except.bind, hd]
      rfl
  | error cause => simp only [bind, Except.bind, hd]

theorem read_eq_ok_iff {decode : Decoder α} (hwhole : decode.Whole) {text : List (Option Char)}
    {a : α} : read decode text = .ok a ↔
      ∃ d : Draft, d.SpelledBy text ∧ decode (.text nestingLimit) d = .ok a := by
  constructor
  · intro h
    rw [read] at h
    cases hread : Draft.ofTokens (Token.scan text) with
    | mk d surplus =>
        simp only [hread, bind_eq_ok_iff] at h
        obtain ⟨b, hb, h⟩ := h
        cases surplus with
        | true => cases h
        | false =>
            cases h
            exact ⟨d, Draft.spelledBy_iff.mpr ⟨hwhole d _ hb, hread⟩, hb⟩
  · rintro ⟨d, hd, ha⟩
    rw [read_of_spelledBy hd, ha]

end RemoteObjects.Json
