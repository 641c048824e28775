import RemoteObjects.Proofs.Proxy.Life

/-!
# Contracts of doings

A contract says what a doing may ask, given what has happened by then, and how it may end.  A
dialogue obeys a contract if it does so whatever happens between its own exchanges.  When every deed
that can begin obeys its contract, all doings of a life keep theirs.
-/

namespace RemoteObjects.Proxy

variable {κ ℓ α β : Type}

structure Contract (κ ℓ α : Type) where
  may : History κ ℓ → Query κ ℓ → Prop
  ends : History κ ℓ → α → Prop

section Obeys

variable [DecidableEq ℓ]

namespace Dialogue

/-- Whether a dialogue that goes on from a past keeps to a contract.  Other doings may act before
each of its exchanges, and before its end is looked at. -/
def Obeys (who : Option Nat) (c : Contract κ ℓ α) : Dialogue κ ℓ α → History κ ℓ → Prop
  | .done a, past => ∀ now, past <:+ now → c.ends now a
  | .ask q next, past => ∀ now, past <:+ now → c.may now q ∧
      ∀ a, Fits now ⟨q, a⟩ → (next a).Obeys who c (.said who ⟨q, a⟩ :: now)
  | .crash _, _ => False

/-- Whatever else happens, each query that is left in the dialogue can be answered at once, and the
dialogue ends as told. -/
def Finishes (who : Option Nat) (ends : History κ ℓ → α → Prop)
    (d : Dialogue κ ℓ α) (past : History κ ℓ) : Prop :=
  d.Obeys who ⟨fun now q ↦ ∃ a, Fits now ⟨q, a⟩, ends⟩ past

variable {who : Option Nat}

theorem Obeys.later {c : Contract κ ℓ α} {d : Dialogue κ ℓ α} {past now : History κ ℓ}
    (h : d.Obeys who c past) (hnow : past <:+ now) : d.Obeys who c now := by
  cases d with
  | done a => exact fun then' hthen ↦ h then' (hnow.trans hthen)
  | ask q next => exact fun then' hthen ↦ h then' (hnow.trans hthen)
  | crash reason => exact h

theorem Obeys.ask {c : Contract κ ℓ α} {q : Query κ ℓ} {next : q.Answer → Dialogue κ ℓ α}
    {past : History κ ℓ}
    (h : ∀ now, past <:+ now → c.may now q ∧ ∀ a, Fits now ⟨q, a⟩ → (next a).Obeys who c now) :
    (Dialogue.ask q next).Obeys who c past :=
  fun now hnow ↦ ⟨(h now hnow).1, fun a ha ↦ ((h now hnow).2 a ha).later (List.suffix_cons _ _)⟩

theorem Obeys.mono {c c' : Contract κ ℓ α} {d : Dialogue κ ℓ α} {past : History κ ℓ}
    (h : d.Obeys who c past) (hmay : ∀ now q, past <:+ now → c.may now q → c'.may now q)
    (hends : ∀ now a, past <:+ now → c.ends now a → c'.ends now a) : d.Obeys who c' past := by
  induction d generalizing past with
  | done a => exact fun now hnow ↦ hends now a hnow (h now hnow)
  | ask q next ih =>
      intro now hnow
      obtain ⟨hq, hnext⟩ := h now hnow
      refine ⟨hmay now q hnow hq, fun a ha ↦ ?_⟩
      have hlater {then' : History κ ℓ} (hthen : .said who ⟨q, a⟩ :: now <:+ then') :
          past <:+ then' := (hnow.trans (List.suffix_cons _ _)).trans hthen
      exact ih a (hnext a ha) (fun then' q' hthen ↦ hmay then' q' (hlater hthen))
        fun then' r hthen ↦ hends then' r (hlater hthen)
  | crash reason => exact h

theorem Obeys.bind {may : History κ ℓ → Query κ ℓ → Prop} {ends : History κ ℓ → β → Prop}
    {d : Dialogue κ ℓ α} {f : α → Dialogue κ ℓ β} {past : History κ ℓ}
    (h : d.Obeys who ⟨may, fun now a ↦ (f a).Obeys who ⟨may, ends⟩ now⟩ past) :
    (d >>= f).Obeys who ⟨may, ends⟩ past := by
  induction d generalizing past with
  | done a => exact h past List.suffix_rfl
  | ask q next ih =>
      intro now hnow
      obtain ⟨hmay, hnext⟩ := h now hnow
      exact ⟨hmay, fun a ha ↦ ih a (hnext a ha)⟩
  | crash reason => exact h

end Dialogue

end Obeys

/-! ## Doings in a life -/

namespace Life

abbrev Terms (κ ℓ : Type) : Type := Deed κ ℓ → History κ ℓ → Contract κ ℓ (Upshot κ ℓ)

theorem getElem?_concat {l : List α} {a b : α} {i : Nat} (h : (l ++ [a])[i]? = some b) :
    l[i]? = some b ∨ i = l.length ∧ b = a := by
  rcases Nat.lt_or_ge i l.length with hi | hi
  · rw [List.getElem?_append_left hi] at h
    exact .inl h
  · rw [List.getElem?_append_right hi, List.getElem?_singleton] at h
    split at h
    · next hzero => exact .inr ⟨by omega, (Option.some.inj h).symm⟩
    · cases h

theorem getElem?_replace {before after : List α} (a : α) {b x : α} {i : Nat}
    (h : (before ++ b :: after)[i]? = some x) :
    i ≠ before.length ∧ (before ++ a :: after)[i]? = some x ∨ i = before.length ∧ x = b := by
  rcases Nat.lt_or_ge i before.length with hi | hi
  · rw [List.getElem?_append_left hi] at h
    rw [List.getElem?_append_left hi]
    exact .inl ⟨Nat.ne_of_lt hi, h⟩
  · rw [List.getElem?_append_right hi] at h
    rw [List.getElem?_append_right hi]
    cases hn : i - before.length with
    | zero =>
        rw [hn, List.getElem?_cons_zero] at h
        exact .inr ⟨by omega, (Option.some.inj h).symm⟩
    | succ n =>
        rw [hn, List.getElem?_cons_succ] at h
        exact .inl ⟨by omega, by rwa [List.getElem?_cons_succ]⟩

variable [DecidableEq ℓ] {terms : Terms κ ℓ}

/-- All doings of a life keep to their contracts, and have done so from the beginning. -/
structure Lawful (terms : Terms κ ℓ) (life : Life κ ℓ) : Prop where
  /-- Nobody has said anything yet who is not there. -/
  known : ∀ (i : Nat) (e : Exchange κ ℓ), .said (some i) e ∈ life.past → i < life.doings.length
  since : ∀ d ∈ life.doings, d.since <:+ life.past
  obeys : ∀ (i : Nat) (d : Doing κ ℓ), life.doings[i]? = some d →
    d.rest.Obeys (some i) (terms d.deed d.since) life.past
  permitted : ∀ (i : Nat) (d : Doing κ ℓ), life.doings[i]? = some d →
    ∀ (e : Exchange κ ℓ) (later earlier : History κ ℓ),
      life.past = later ++ .said (some i) e :: earlier →
        (terms d.deed d.since).may earlier e.query

/-- What happens apart from the doings breaks no contract. -/
theorem Lawful.happen {past : History κ ℓ} {hands hands' : Holdings κ ℓ}
    {doings : List (Doing κ ℓ)} (h : Lawful terms ⟨past, hands, doings⟩) (x : Happening κ ℓ)
    (hx : ∀ i e, x ≠ .said (some i) e) : Lawful terms ⟨x :: past, hands', doings⟩ where
  known i e he := by
    rcases List.mem_cons.mp he with heq | he
    · exact absurd heq.symm (hx i e)
    · exact h.known i e he
  since d hd := (h.since d hd).trans (List.suffix_cons x past)
  obeys i d hd := (h.obeys i d hd).later (List.suffix_cons x past)
  permitted i d hd e later earlier hpast := by
    cases later with
    | nil => exact absurd (List.cons.inj hpast).1 (hx i e)
    | cons y later => exact h.permitted i d hd e later earlier (List.cons.inj hpast).2

theorem Lawful.begin {past : History κ ℓ} {hands hands' : Holdings κ ℓ}
    {doings : List (Doing κ ℓ)} (h : Lawful terms ⟨past, hands, doings⟩) {slot : Option String}
    {deed : Deed κ ℓ}
    (hobeys : deed.course.Obeys (some doings.length) (terms deed past) past) :
    Lawful terms ⟨past, hands', doings ++ [⟨slot, deed, past, deed.course⟩]⟩ where
  known i e he := by
    have hi := h.known i e he
    rw [List.length_append]
    exact Nat.lt_add_right _ hi
  since d hd := by
    rcases List.mem_append.mp hd with hd | hd
    · exact h.since d hd
    · obtain rfl := List.mem_singleton.mp hd
      exact List.suffix_rfl
  obeys i d hd := by
    rcases getElem?_concat hd with hd | ⟨rfl, rfl⟩
    · exact h.obeys i d hd
    · exact hobeys
  permitted i d hd e later earlier hpast := by
    rcases getElem?_concat hd with hd | ⟨rfl, rfl⟩
    · exact h.permitted i d hd e later earlier hpast
    · have hi := h.known doings.length e (by rw [hpast]; simp)
      exact absurd hi (Nat.lt_irrefl _)

theorem Lawful.proceed {past : History κ ℓ} {hands : Holdings κ ℓ}
    {before after : List (Doing κ ℓ)} {d : Doing κ ℓ} {q : Query κ ℓ}
    {next : q.Answer → Dialogue κ ℓ (Upshot κ ℓ)} {a : q.Answer}
    (h : Lawful terms ⟨past, hands, before ++ d :: after⟩) (hrest : d.rest = .ask q next)
    (hfits : Fits past ⟨q, a⟩) :
    Lawful terms ⟨.said (some before.length) ⟨q, a⟩ :: past, hands,
      before ++ { d with rest := next a } :: after⟩ := by
  have hdoing : (before ++ d :: after)[before.length]? = some d := by simp
  have hobeys := h.obeys before.length d hdoing
  rw [hrest] at hobeys
  obtain ⟨hmay, hnext⟩ := hobeys past List.suffix_rfl
  refine ⟨fun i e he ↦ ?_, fun x hx ↦ ?_, fun i x hx ↦ ?_, fun i x hx e later earlier hpast ↦ ?_⟩
  · rcases List.mem_cons.mp he with heq | he
    · cases heq
      simp
    · simpa using h.known i e he
  · obtain ⟨y, hy, -, -, hsince⟩ := Doing.mem_advance hx
    rw [hsince]
    exact (h.since y hy).trans (List.suffix_cons _ _)
  · rcases getElem?_replace d hx with ⟨-, hx⟩ | ⟨rfl, rfl⟩
    · exact (h.obeys i x hx).later (List.suffix_cons _ _)
    · exact hnext a hfits
  · cases later with
    | nil =>
        obtain ⟨heq, rfl⟩ := List.cons.inj hpast
        cases heq
        rcases getElem?_replace d hx with ⟨hne, -⟩ | ⟨-, rfl⟩
        · exact absurd rfl hne
        · exact hmay
    | cons y later =>
        have hearlier := (List.cons.inj hpast).2
        rcases getElem?_replace d hx with ⟨-, hx⟩ | ⟨rfl, rfl⟩
        · exact h.permitted i x hx e later earlier hearlier
        · exact h.permitted before.length d hdoing e later earlier hearlier

/-- If every deed obeys its contract from its beginning on, all doings keep to theirs. -/
theorem Lawful.step {life life' : Life κ ℓ} (h : Lawful terms life) (hstep : Step life life')
    (hdeeds : ∀ (deed : Deed κ ℓ) (i : Nat) (past : History κ ℓ),
      deed.course.Obeys (some i) (terms deed past) past) : Lawful terms life' := by
  cases hstep with
  | copy hheld hfree => exact ⟨h.known, h.since, h.obeys, h.permitted⟩
  | take hheld hmethod hfree => exact ⟨h.known, h.since, h.obeys, h.permitted⟩
  | keep hd hrest hfree => exact ⟨h.known, h.since, h.obeys, h.permitted⟩
  | begin hbegins => exact h.begin (hdeeds _ _ _)
  | proceed hrest hfits => exact h.proceed hrest hfits
  | create hstart hnew => exact h.happen _ (by simp)
  | settle hcreated hnew => exact h.happen _ (by simp)

theorem Lawful.start (p : Proxy κ ℓ) (said : List (Exchange κ ℓ)) (slot : String) :
    Lawful terms (Life.start p said slot) where
  known i e he := by simp [Life.start] at he
  since d hd := by cases hd
  obeys i d hd := by cases hd
  permitted i d hd := by cases hd

theorem Lawful.reaches {life life' : Life κ ℓ} (hreaches : Reaches life life')
    (hdeeds : ∀ (deed : Deed κ ℓ) (i : Nat) (past : History κ ℓ),
      deed.course.Obeys (some i) (terms deed past) past) (h : Lawful terms life) :
    Lawful terms life' := by
  induction hreaches with
  | refl => exact h
  | tail _ hstep ih => exact ih.step hstep hdeeds

theorem Lawful.may_ask {life : Life κ ℓ} (h : Lawful terms life) {d : Doing κ ℓ}
    (hd : d ∈ life.doings) {q : Query κ ℓ} {next : q.Answer → Dialogue κ ℓ (Upshot κ ℓ)}
    (hrest : d.rest = .ask q next) : (terms d.deed d.since).may life.past q := by
  obtain ⟨i, hi⟩ := List.mem_iff_getElem?.mp hd
  have hobeys := h.obeys i d hi
  rw [hrest] at hobeys
  exact (hobeys life.past List.suffix_rfl).1

theorem Lawful.ends_done {life : Life κ ℓ} (h : Lawful terms life) {d : Doing κ ℓ}
    (hd : d ∈ life.doings) {u : Upshot κ ℓ} (hrest : d.rest = .done u) :
    (terms d.deed d.since).ends life.past u := by
  obtain ⟨i, hi⟩ := List.mem_iff_getElem?.mp hd
  have hobeys := h.obeys i d hi
  rw [hrest] at hobeys
  exact hobeys life.past List.suffix_rfl

theorem Lawful.not_crashed {life : Life κ ℓ} (h : Lawful terms life) {d : Doing κ ℓ}
    (hd : d ∈ life.doings) (reason : String) : d.rest ≠ .crash reason := by
  intro hrest
  obtain ⟨i, hi⟩ := List.mem_iff_getElem?.mp hd
  have hobeys := h.obeys i d hi
  rw [hrest] at hobeys
  exact hobeys

theorem Lawful.may_of_said {life : Life κ ℓ} (h : Lawful terms life) {i : Nat}
    {e : Exchange κ ℓ} (he : .said (some i) e ∈ life.past) :
    ∃ d earlier, life.doings[i]? = some d ∧ earlier <:+ life.past ∧
      (terms d.deed d.since).may earlier e.query := by
  obtain ⟨later, earlier, hpast⟩ := List.append_of_mem he
  have hi := h.known i e he
  refine ⟨life.doings[i], earlier, List.getElem?_eq_getElem hi, ?_,
    h.permitted i _ (List.getElem?_eq_getElem hi) e later earlier hpast⟩
  rw [hpast]
  exact (List.suffix_cons _ _).trans (List.suffix_append _ _)

theorem exists_append_of_getElem? {l : List α} {i : Nat} {a : α} (h : l[i]? = some a) :
    ∃ before after, l = before ++ a :: after ∧ before.length = i := by
  obtain ⟨hi, rfl⟩ := List.getElem?_eq_some_iff.mp h
  exact ⟨l.take i, l.drop (i + 1), by simp, List.length_take_of_le (Nat.le_of_lt hi)⟩

theorem step_at {past : History κ ℓ} (hands : Holdings κ ℓ) {doings : List (Doing κ ℓ)} {i : Nat}
    {d : Doing κ ℓ} (hd : doings[i]? = some d) {q : Query κ ℓ}
    {next : q.Answer → Dialogue κ ℓ (Upshot κ ℓ)} (hrest : d.rest = .ask q next) {a : q.Answer}
    (hfits : Fits past ⟨q, a⟩) :
    Step ⟨past, hands, doings⟩
      ⟨.said (some i) ⟨q, a⟩ :: past, hands, doings.set i { d with rest := next a }⟩ := by
  obtain ⟨before, after, rfl, rfl⟩ := exists_append_of_getElem? hd
  simpa using Step.proceed hrest hfits

/-- A doing of which it is said how it finishes can go on to its end, if nothing else happens. -/
theorem exists_done {ends : History κ ℓ → Upshot κ ℓ → Prop} {i : Nat} {past : History κ ℓ}
    (hands : Holdings κ ℓ) {doings : List (Doing κ ℓ)} {d : Doing κ ℓ} (hd : doings[i]? = some d)
    (h : d.rest.Finishes (some i) ends past) :
    ∃ past' u, past <:+ past' ∧ ends past' u ∧
      Reaches ⟨past, hands, doings⟩ ⟨past', hands, doings.set i { d with rest := .done u }⟩ := by
  generalize hrest : d.rest = rest at h
  induction rest generalizing past doings d with
  | done u =>
      refine ⟨past, u, List.suffix_rfl, h past List.suffix_rfl, ?_⟩
      obtain ⟨hi, rfl⟩ := List.getElem?_eq_some_iff.mp hd
      rw [← hrest, List.set_getElem_self hi]
  | crash reason => exact h.elim
  | ask q next ih =>
      obtain ⟨⟨a, hfits⟩, hnext⟩ := h past List.suffix_rfl
      have hstep := step_at hands hd hrest hfits
      have hd' : (doings.set i { d with rest := next a })[i]? = some { d with rest := next a } :=
        List.getElem?_set_self (List.getElem?_eq_some_iff.mp hd).1
      obtain ⟨past', u, hpast, hends, hreaches⟩ := ih a hd' rfl (hnext a hfits)
      refine ⟨past', u, (List.suffix_cons _ _).trans hpast, hends, ?_⟩
      rw [List.set_set] at hreaches
      exact .head hstep hreaches

end Life

end RemoteObjects.Proxy
