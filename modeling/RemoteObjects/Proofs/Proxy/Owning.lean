import RemoteObjects.Proofs.Proxy.Building
import RemoteObjects.Proofs.Proxy.Family

/-!
# The owner of a launched server

A server that was launched for a proxy is shut down once: by `stop` on that proxy, or when the last
that keeps it is let go.  The launcher is first taken and then used, and other deeds may come
between the two, so a launcher may be in the hands of a doing that has not used it yet.
-/

namespace RemoteObjects.Proxy

variable {κ ℓ : Type}

/-! ## What is told -/

def Happening.isShutdown : Happening κ ℓ → Bool
  | .said _ ⟨.shutdown _, _⟩ => true
  | _ => false

def shutdowns (past : History κ ℓ) : Nat := past.countP Happening.isShutdown

/-- The launcher that a dialogue is about to shut down with. -/
def Dialogue.shutting? {α : Type} : Dialogue κ ℓ α → Option ℓ
  | .ask (.shutdown launcher) _ => some launcher
  | _ => none

/-- How many doings have taken a launcher and not used it yet. -/
def inHand (doings : List (Doing κ ℓ)) : Nat := doings.countP (·.rest.shutting?.isSome)

section

variable [DecidableEq ℓ]

/-- Whether a deed lets go of the last that keeps a launcher. -/
def Deed.LetsGo (launcher : ℓ) (deed : Deed κ ℓ) : Prop :=
  ∃ hands slot gone, deed = .drop hands slot ∧ hands.LastKeeper slot gone launcher

/-- The deeds that end the ownership of a launched server. -/
def Deed.Disowns (p : Proxy κ ℓ) (launcher : ℓ) (deed : Deed κ ℓ) : Prop :=
  deed = .stop p ∨ deed.LetsGo launcher

/-- What a deed is done with, or lets go of. -/
def Deed.holder? : Deed κ ℓ → Option (Holder κ ℓ)
  | .drop hands slot => hands.get? slot
  | deed => deed.user?

def Query.stops : Query κ ℓ → Bool
  | .release _ | .shutdown _ => true
  | _ => false

/-- A proxy and the methods taken from it. -/
inductive Own (p : Proxy κ ℓ) : Holder κ ℓ → Prop where
  | self : Own p (.proxy p)
  | method {name : String} {f : Method κ ℓ} (hf : p.method name = .ok f) : Own p (.method f)

/-- What is only lent: copies of proxies, proxies made from descriptors, and what is taken or copied
from these. -/
inductive Life.Lent (life : Life κ ℓ) : Holder κ ℓ → Prop where
  | copied (q : Proxy κ ℓ) : Lent life (Holder.proxy q).copy
  | revived {d : Doing κ ℓ} {q : Proxy κ ℓ} (hd : d ∈ life.doings)
      (hrest : d.rest = .done (.revived (.ok q))) : Lent life (.proxy q)
  | again {u : Holder κ ℓ} (h : Lent life u) : Lent life u.copy
  | taken {q : Proxy κ ℓ} {name : String} {f : Method κ ℓ} (h : Lent life (.proxy q))
      (hf : q.method name = .ok f) : Lent life (.method f)

/-- What is said of the launched server in the life of the proxy it was launched for. -/
structure Ownership (p : Proxy κ ℓ) (launcher : ℓ) (life : Life κ ℓ) : Prop where
  /-- All that is held, and all that is used or dropped, is the owner's or lent. -/
  holders : ∀ u, (u ∈ life.hands.values ∨ ∃ d ∈ life.doings, d.deed.holder? = some u) →
    p.Own u ∨ life.Lent u
  lent : ∀ u, life.Lent u → u.held.launcher = none
  /-- Nothing that is done with what is lent stops a server, letting go of it included. -/
  lentIdle : ∀ (i : Nat) d u, life.doings[i]? = some d → d.deed.holder? = some u → life.Lent u →
    ∀ e, .said (some i) e ∈ life.past → e.query.stops = false
  /-- Only the proxy itself and the methods taken from it keep the launcher. -/
  keepers : ∀ u ∈ life.hands.values, ∀ l, u.held.launcher = some l → u.held = p
  /-- As long as one of them is held and `stop` was not called, the server runs. -/
  kept : life.hands.keeps launcher = true → (∀ d ∈ life.doings, d.deed ≠ .stop p) →
    shutdowns life.past = 0
  once : shutdowns life.past + inHand life.doings ≤ 1
  /-- After a `stop` has returned, the server is shut down, or an overlapping doing has taken the
  launcher before and is about to. -/
  stopped : ∀ d ∈ life.doings, d.deed = .stop p → d.isOver = true →
    shutdowns life.past + inHand life.doings = 1
  /-- So it is shut down when all that could do so have returned. -/
  allStopped : ∀ d ∈ life.doings, d.deed = .stop p → d.isOver = true →
    (∀ d' ∈ life.doings, d'.deed.Disowns p launcher → d'.isOver = true) → shutdowns life.past = 1
  /-- When the last keeper is gone, the server is shut down. -/
  letGo : ∀ d ∈ life.doings, d.deed.LetsGo launcher → d.isOver = true → shutdowns life.past = 1
  /-- Nobody else shuts a server down. -/
  shutBy : ∀ who l result, .said who ⟨.shutdown l, result⟩ ∈ life.past →
    l = launcher ∧ ∃ i d, who = some i ∧ life.doings[i]? = some d ∧ d.deed.Disowns p launcher
  /-- Neither `stop` nor letting go ever waits. -/
  returns : ∀ (i : Nat) d, life.doings[i]? = some d →
    (∃ q, d.deed = .stop q) ∨ (∃ hands slot, d.deed = .drop hands slot) →
      d.rest.Finishes (some i) (fun _ _ ↦ True) life.past
  /-- The proxy owns the server until the launcher is taken. -/
  owns : ∀ (i : Nat) d, life.doings[i]? = some d → d.deed = .ownsServer p →
    d.rest.Finishes (some i) (fun now u ↦ ∃ mid, d.since <:+ mid ∧ mid <:+ now ∧
      u = .owns (!taken launcher mid)) life.past
  /-- Clones and proxies made from descriptors never own it. -/
  ownsNot : ∀ (i : Nat) d q, life.doings[i]? = some d → d.deed = .ownsServer q →
    life.Lent (.proxy q) ∨ q ≠ p →
      d.rest.Finishes (some i) (fun _ u ↦ u = .owns false) life.past

end

/-! ## The hands a launcher goes through -/

def Exchange.released? : Exchange κ ℓ → Option ℓ
  | ⟨.release launcher, true⟩ => some launcher
  | _ => none

/-- Whether a dialogue shuts down with a launcher just after it has taken it. -/
def Dialogue.Orderly {α : Type} : Dialogue κ ℓ α → Prop
  | .ask q next => ∀ a, (next a).Orderly ∧ (next a).shutting? = Exchange.released? ⟨q, a⟩
  | _ => True

theorem Dialogue.eq_of_shutting? {α : Type} {d : Dialogue κ ℓ α} {l : ℓ}
    (h : d.shutting? = some l) : ∃ next, d = .ask (.shutdown l) next := by
  cases d with
  | ask q next =>
      cases q with
      | shutdown launcher =>
          cases h
          exact ⟨next, rfl⟩
      | _ => cases h
  | _ => cases h

theorem Exchange.eq_of_released? {e : Exchange κ ℓ} {l : ℓ} (h : e.released? = some l) :
    e = ⟨.release l, true⟩ := by
  obtain ⟨q, a⟩ := e
  cases q with
  | release launcher =>
      cases a <;> cases h
      rfl
  | _ => cases h

theorem Dialogue.shutting?_bind_done {α β : Type} (d : Dialogue κ ℓ α) (f : α → β) :
    (d >>= fun a ↦ .done (f a)).shutting? = d.shutting? := by
  cases d with
  | ask q next => cases q <;> rfl
  | _ => rfl

theorem Dialogue.Orderly.bind_done {α β : Type} {d : Dialogue κ ℓ α} (h : d.Orderly)
    (f : α → β) : (d >>= fun a ↦ .done (f a)).Orderly := by
  induction d with
  | done a => trivial
  | ask q next ih =>
      intro a
      obtain ⟨hnext, hshutting⟩ := h a
      exact ⟨ih a hnext, (shutting?_bind_done (next a) f).trans hshutting⟩
  | crash reason => trivial

theorem stop_orderly (p : Proxy κ ℓ) :
    (p.stop Dialogue.surroundings : Dialogue κ ℓ Unit).Orderly ∧
      (p.stop Dialogue.surroundings : Dialogue κ ℓ Unit).shutting? = none := by
  unfold stop
  split
  · exact ⟨trivial, rfl⟩
  · refine ⟨fun free ↦ ?_, rfl⟩
    cases free with
    | false => exact ⟨trivial, rfl⟩
    | true =>
        refine ⟨fun result ↦ ?_, rfl⟩
        cases result <;> exact ⟨fun _ ↦ ⟨trivial, rfl⟩, rfl⟩

theorem shutdowns_said {α : Type} (past : History κ ℓ) (who : Option Nat) (q : Query κ ℓ)
    (next : q.Answer → Dialogue κ ℓ α) (a : q.Answer) :
    shutdowns (.said who ⟨q, a⟩ :: past) =
      shutdowns past + if (Dialogue.ask q next).shutting?.isSome then 1 else 0 := by
  cases q with
  | shutdown launcher => exact List.countP_cons_of_pos rfl
  | _ => simp [shutdowns, Happening.isShutdown, Dialogue.shutting?]

theorem inHand_middle (before after : List (Doing κ ℓ)) (d : Doing κ ℓ) :
    inHand (before ++ d :: after) =
      inHand before + inHand after + if d.rest.shutting?.isSome then 1 else 0 := by
  simp only [inHand, List.countP_append, List.countP_cons]
  omega

theorem Plan.Building.not_stopping {plan : Plan ℓ} {args : ByteArray}
    {said : List (Exchange κ ℓ)} {p : Proxy κ ℓ} (h : plan.Building args (contacts said) (.ok p))
    {e : Exchange κ ℓ} (he : e ∈ said) (l : ℓ) : e.query ≠ .release l ∧ e.query ≠ .shutdown l := by
  obtain ⟨q, a⟩ := e
  constructor
  all_goals
    rintro rfl
    rcases h.asks he with hreport | hseeks | hid | ⟨creation, c, -, heq⟩
    · cases hreport
    · cases hseeks
    · cases hid
    · cases heq

/-! ## What is lent -/

theorem Known.own_or_lent {p : Proxy κ ℓ} {u : Holder κ ℓ} (h : p.Known u) (life : Life κ ℓ) :
    p.Own u ∨ life.Lent u := by
  have hmethod (f : Method κ ℓ) (hf : u = .method f) : f.proxy.method f.name = .ok f := by
    rw [method, if_pos (h.isPublic f hf)]
  have hheld : u.held = p ∨ u.held.clone = u.held := by
    rcases h.origin with hkin | hforeign
    · rcases hkin.eq_or with heq | heq
      · exact .inl heq
      · exact .inr (heq ▸ clone_clone p)
    · exact .inr hforeign.clone_eq
  rcases hheld with heq | hclone
  · left
    cases u with
    | proxy q =>
        obtain rfl : q = p := heq
        exact .self
    | method f =>
        obtain rfl : f.proxy = p := heq
        exact .method (hmethod f rfl)
  · right
    have hlent : life.Lent (.proxy u.held) := by
      rw [← hclone]
      exact .copied u.held
    cases u with
    | proxy q => exact hlent
    | method f => exact .taken hlent (hmethod f rfl)

theorem Life.Familiar.known {p : Proxy κ ℓ} {life : Life κ ℓ} (h : Familiar p life)
    {d : Doing κ ℓ} (hd : d ∈ life.doings) {u : Holder κ ℓ} (hu : d.deed.holder? = some u) :
    p.Known u := by
  have hused := h.used d hd
  have hdropped := h.dropped d hd
  cases hdeed : d.deed <;> rw [hdeed] at hu hused
  case drop hands slot => exact Known.get (hdropped hands slot hdeed) hu
  all_goals exact hused u hu

/-! ## How the ownership ends -/

variable [DecidableEq ℓ]

theorem letGo_orderly (rest : Holdings κ ℓ) (gone : Holder κ ℓ) :
    (Holdings.letGo Dialogue.surroundings rest gone : Dialogue κ ℓ Unit).Orderly ∧
      (Holdings.letGo Dialogue.surroundings rest gone : Dialogue κ ℓ Unit).shutting? = none := by
  unfold Holdings.letGo
  split
  · exact ⟨trivial, rfl⟩
  · split
    · exact ⟨trivial, rfl⟩
    · exact stop_orderly gone.held

theorem Deed.Disowns.orderly {p : Proxy κ ℓ} {launcher : ℓ} {deed : Deed κ ℓ}
    (h : deed.Disowns p launcher) : deed.course.Orderly ∧ deed.course.shutting? = none := by
  rcases h with rfl | ⟨hands, slot, gone, rfl, hlast⟩
  · obtain ⟨horderly, hstart⟩ := stop_orderly p
    exact ⟨horderly.bind_done _, (Dialogue.shutting?_bind_done _ _).trans hstart⟩
  · obtain ⟨horderly, hstart⟩ := letGo_orderly (hands.erase slot) gone
    have hdrop : (Deed.drop hands slot).course =
        (Holdings.letGo Dialogue.surroundings (hands.erase slot) gone >>= fun _ ↦
          .done (hands.erase slot)) >>= fun rest ↦ .done (.dropped rest) := by
      rw [Deed.course, Holdings.drop, hlast.1]
      rfl
    rw [hdrop]
    refine ⟨(horderly.bind_done _).bind_done _, ?_⟩
    rw [Dialogue.shutting?_bind_done, Dialogue.shutting?_bind_done, hstart]

/-! ## Who may lay hands on a launcher -/

theorem keeps_iff {hands : Holdings κ ℓ} {launcher : ℓ} :
    hands.keeps launcher = true ↔
      ∃ slot u, (slot, u) ∈ hands.entries ∧ u.held.launcher = some launcher := by
  simp only [Holdings.keeps, List.any_eq_true, decide_eq_true_eq, Keyed.mem_values]
  constructor
  · rintro ⟨u, ⟨slot, hu⟩, hl⟩
    exact ⟨slot, u, hu, hl⟩
  · rintro ⟨slot, u, hu, hl⟩
    exact ⟨u, ⟨slot, hu⟩, hl⟩

theorem Holdings.LastKeeper.keeps {hands : Holdings κ ℓ} {slot : String} {gone : Holder κ ℓ}
    {launcher : ℓ} (h : hands.LastKeeper slot gone launcher) : hands.keeps launcher = true :=
  keeps_iff.mpr ⟨slot, gone, Keyed.mem_of_get? h.1, h.2.1⟩

/-- Only the deeds that end the ownership take the launcher or use it. -/
theorem Deed.May.disowns {p : Proxy κ ℓ} {launcher : ℓ} (hp : p.launcher = some launcher)
    {life : Life κ ℓ} (hfamiliar : Life.Familiar p life) {d : Doing κ ℓ} (hd : d ∈ life.doings)
    {now : History κ ℓ} {l : ℓ}
    (h : d.deed.May now (.release l) ∨ d.deed.May now (.shutdown l)) :
    l = launcher ∧ d.deed.Disowns p launcher := by
  have hused := hfamiliar.used d hd
  have hdropped := hfamiliar.dropped d hd
  cases hdeed : d.deed <;> rw [hdeed] at h hused
  case stop q =>
    have hl : q.launcher = some l := by
      rcases h with h | h <;> exact h
    have heq : q = p := (hused (.proxy q) rfl).held_eq hl
    subst heq
    exact ⟨Option.some.inj (hl.symm.trans hp), .inl rfl⟩
  case drop hands slot =>
    have hkeeper : ∃ gone, hands.LastKeeper slot gone l := by
      rcases h with ⟨gone, l', hlast, hl⟩ | ⟨gone, l', hlast, hl⟩ <;>
        cases hlast.2.1.symm.trans hl <;> exact ⟨gone, hlast⟩
    obtain ⟨gone, hlast⟩ := hkeeper
    have hgone : gone ∈ hands.values := Keyed.mem_values.mpr ⟨slot, Keyed.mem_of_get? hlast.1⟩
    have heq := (hdropped hands slot hdeed gone hgone).held_eq hlast.2.1
    have hl : l = launcher := by
      have hl := hlast.2.1
      rw [heq, hp] at hl
      exact (Option.some.inj hl).symm
    subst hl
    exact ⟨rfl, .inr ⟨hands, slot, gone, rfl, hlast⟩⟩
  all_goals
    rcases h with h | h <;> simp [May, MayCall, Awaits, Peeks] at h

/-- The ownership can only be ended from a holder that keeps the launcher. -/
theorem Begins.keeps {p : Proxy κ ℓ} {launcher : ℓ} {hands : Holdings κ ℓ}
    {doings : List (Doing κ ℓ)} {name : Option String} {deed : Deed κ ℓ}
    (h : Begins hands doings name deed) (hp : p.launcher = some launcher)
    (hdis : deed.Disowns p launcher) : hands.keeps launcher = true := by
  rcases hdis with rfl | ⟨hands', slot, gone, rfl, hlast⟩
  · obtain ⟨slot, -, hmem, -⟩ := h.user rfl
    exact keeps_iff.mpr ⟨slot, .proxy p, hmem, hp⟩
  · cases h with
    | use hheld huser => cases huser
    | drop hheld hidle => exact hlast.keeps

theorem Life.Lent.launcher_eq {life : Life κ ℓ} (hlawful : Lawful Deed.terms life)
    {u : Holder κ ℓ} (h : life.Lent u) : u.held.launcher = none := by
  induction h with
  | copied q => rfl
  | revived hd hrest => exact (hlawful.foreign hd hrest).2.2
  | @again u _ ih =>
      cases u with
      | proxy q => rfl
      | method f => exact ih
  | taken _ hf ih =>
      unfold method at hf
      split at hf <;> cases hf
      exact ih

/-- Whoever ends the ownership does it with something that keeps the launcher. -/
theorem Deed.Disowns.launcher_eq {p : Proxy κ ℓ} {launcher : ℓ} (hp : p.launcher = some launcher)
    {deed : Deed κ ℓ} (h : deed.Disowns p launcher) {u : Holder κ ℓ}
    (hu : deed.holder? = some u) : u.held.launcher = some launcher := by
  rcases h with rfl | ⟨hands, slot, gone, rfl, hlast⟩
  · cases hu
    exact hp
  · cases hlast.1.symm.trans hu
    exact hlast.2.1

/-! ## What each step keeps -/

/-- A launcher counts as taken from the exchange on that hands it over. -/
theorem taken_said {past : History κ ℓ} (who : Option Nat) {q : Query κ ℓ} {a : q.Answer}
    {launcher : ℓ} (hfits : Fits past ⟨q, a⟩) (hl : ∀ l, q = .release l → l = launcher) :
    (if taken launcher (.said who ⟨q, a⟩ :: past) then 1 else 0) =
      (if taken launcher past then 1 else 0) +
        if (Exchange.released? ⟨q, a⟩).isSome then 1 else 0 := by
  cases q with
  | release l =>
      obtain rfl := hl l rfl
      have ha : a = !taken l past := hfits
      cases htaken : taken l past with
      | true =>
          rw [htaken] at ha
          subst ha
          simp [taken_cons, Exchange.released?]
      | false =>
          rw [htaken] at ha
          subst ha
          simp [taken_cons, Exchange.released?]
  | _ => simp [taken, Exchange.released?]

namespace Life

/-- Whose hands a launcher is in. -/
structure Custody (p : Proxy κ ℓ) (launcher : ℓ) (life : Life κ ℓ) : Prop where
  orderly : ∀ d ∈ life.doings, d.deed.Disowns p launcher → d.rest.Orderly
  counted : shutdowns life.past + inHand life.doings = if taken launcher life.past then 1 else 0
  taker : taken launcher life.past = true → ∃ d ∈ life.doings, d.deed.Disowns p launcher
  inUse : ∀ d ∈ life.doings, d.isOver = false → ∀ u, d.deed.user? = some u →
    ∃ slot, d.slot = some slot ∧ (slot, u) ∈ life.hands.entries
  /-- When the last keeper is let go, all that could end the ownership is over. -/
  last : ∀ (i : Nat) d, life.doings[i]? = some d → d.deed.LetsGo launcher →
    life.hands.keeps launcher = false ∧ ∀ (j : Nat) d', life.doings[j]? = some d' → j ≠ i →
      d'.deed.Disowns p launcher → d'.isOver = true

variable {p : Proxy κ ℓ} {launcher : ℓ}

/-- Something new that does not keep the launcher may be held. -/
theorem Custody.hold {past : History κ ℓ} {hands : Holdings κ ℓ} {doings : List (Doing κ ℓ)}
    (h : Custody p launcher ⟨past, hands, doings⟩) {into : String} {x : Holder κ ℓ}
    (hfree : hands.get? into = none)
    (hx : x.held.launcher = some launcher → hands.keeps launcher = true) :
    Custody p launcher ⟨past, hands.insert into x, doings⟩ where
  orderly := h.orderly
  counted := h.counted
  taker := h.taker
  inUse d hd hgoing u hu := by
    obtain ⟨slot, hslot, hmem⟩ := h.inUse d hd hgoing u hu
    exact ⟨slot, hslot, Keyed.mem_insert.mpr (.inr ⟨hmem, Keyed.ne_of_get?_eq_none hfree hmem⟩)⟩
  last i d hd hgo := by
    obtain ⟨hkeeps, hover⟩ := h.last i d hd hgo
    refine ⟨?_, hover⟩
    cases hcase : Holdings.keeps (hands.insert into x) launcher with
    | false => rfl
    | true =>
        obtain ⟨slot, u, hmem, hl⟩ := keeps_iff.mp hcase
        have hkept : hands.keeps launcher = true := by
          rcases Keyed.mem_insert.mp hmem with heq | ⟨hmem, -⟩
          · cases heq
            exact hx hl
          · exact keeps_iff.mpr ⟨slot, u, hmem, hl⟩
        exact absurd (hkept.symm.trans hkeeps) (by simp)

/-- What happens apart from the doings is none of the launcher's business. -/
theorem Custody.happen {past : History κ ℓ} {hands : Holdings κ ℓ} {doings : List (Doing κ ℓ)}
    (h : Custody p launcher ⟨past, hands, doings⟩) (x : Happening κ ℓ)
    (hx : ∀ who e, x ≠ .said who e) : Custody p launcher ⟨x :: past, hands, doings⟩ := by
  have htaken : taken launcher (x :: past) = taken launcher past := by
    cases x with
    | said who e => exact absurd rfl (hx who e)
    | _ => rfl
  have hcount : shutdowns (x :: past) = shutdowns past := by
    cases x with
    | said who e => exact absurd rfl (hx who e)
    | _ => rfl
  refine ⟨h.orderly, ?_, fun ht ↦ h.taker (htaken ▸ ht), h.inUse, h.last⟩
  rw [hcount, htaken]
  exact h.counted

theorem disowns_of_shutting {life : Life κ ℓ} (hp : p.launcher = some launcher)
    (hlawful : Lawful Deed.terms life) (hfamiliar : Familiar p life) {d : Doing κ ℓ}
    (hd : d ∈ life.doings) {l : ℓ} (h : d.rest.shutting? = some l) :
    l = launcher ∧ d.deed.Disowns p launcher := by
  obtain ⟨next, hrest⟩ := Dialogue.eq_of_shutting? h
  exact Deed.May.disowns hp hfamiliar hd (.inr (hlawful.may_ask hd hrest))

section Proceed

variable {past : History κ ℓ} {hands : Holdings κ ℓ} {before after : List (Doing κ ℓ)}
  {d : Doing κ ℓ} {q : Query κ ℓ} {next : q.Answer → Dialogue κ ℓ (Upshot κ ℓ)} {a : q.Answer}

/-- Whoever is handed the launcher shuts down next, and nobody else does. -/
theorem Custody.handed (h : Custody p launcher ⟨past, hands, before ++ d :: after⟩)
    (hp : p.launcher = some launcher)
    (hlawful : Lawful Deed.terms ⟨past, hands, before ++ d :: after⟩)
    (hfamiliar : Familiar p ⟨past, hands, before ++ d :: after⟩) (hrest : d.rest = .ask q next)
    (hfits : Fits past ⟨q, a⟩) : (next a).shutting? = Exchange.released? ⟨q, a⟩ := by
  have hd : d ∈ before ++ d :: after := by simp
  by_cases hdis : d.deed.Disowns p launcher
  · have horderly := h.orderly d hd hdis
    rw [hrest] at horderly
    exact (horderly a).2
  · cases hs : (next a).shutting? with
    | some l =>
        obtain ⟨next', hnext'⟩ := Dialogue.eq_of_shutting? hs
        have hthen : { d with rest := next a } ∈ before ++ { d with rest := next a } :: after := by
          simp
        have hmay := (hlawful.proceed hrest hfits).may_ask hthen hnext'
        exact absurd (Deed.May.disowns hp hfamiliar hd (.inr hmay)).2 hdis
    | none =>
        cases hr : Exchange.released? ⟨q, a⟩ with
        | none => rfl
        | some l =>
            cases Exchange.eq_of_released? hr
            have hmay := hlawful.may_ask hd hrest
            exact absurd (Deed.May.disowns hp hfamiliar hd (.inl hmay)).2 hdis

theorem Custody.proceed (h : Custody p launcher ⟨past, hands, before ++ d :: after⟩)
    (hp : p.launcher = some launcher)
    (hlawful : Lawful Deed.terms ⟨past, hands, before ++ d :: after⟩)
    (hfamiliar : Familiar p ⟨past, hands, before ++ d :: after⟩) (hrest : d.rest = .ask q next)
    (hfits : Fits past ⟨q, a⟩) :
    Custody p launcher ⟨.said (some before.length) ⟨q, a⟩ :: past, hands,
      before ++ { d with rest := next a } :: after⟩ := by
  have hd : d ∈ before ++ d :: after := by simp
  have hgoing : d.isOver = false := by rw [Doing.isOver, hrest]
  have hrelease (l : ℓ) (hq : q = .release l) : l = launcher ∧ d.deed.Disowns p launcher := by
    subst hq
    exact Deed.May.disowns hp hfamiliar hd (.inl (hlawful.may_ask hd hrest))
  constructor
  case orderly =>
      intro x hx hdis
      rcases mem_replace d hx with rfl | hx
      · have horderly := h.orderly d hd hdis
        rw [hrest] at horderly
        exact (horderly a).1
      · exact h.orderly x hx hdis
  case counted =>
      have hcounted : shutdowns past + inHand (before ++ d :: after) =
          if taken launcher past then 1 else 0 := h.counted
      rw [inHand_middle, hrest] at hcounted
      have htaken := taken_said (some before.length) hfits fun l hq ↦ (hrelease l hq).1
      have hshut := shutdowns_said past (some before.length) q next a
      have hhanded := h.handed hp hlawful hfamiliar hrest hfits
      simp only [inHand_middle, hhanded]
      omega
  case taker =>
      intro ht
      have hstill : ∃ y ∈ before ++ d :: after, y.deed.Disowns p launcher := by
        by_cases hq : ∃ l, q = .release l
        · obtain ⟨l, hq⟩ := hq
          exact ⟨d, hd, (hrelease l hq).2⟩
        · apply h.taker
          cases q with
          | release l => exact absurd ⟨l, rfl⟩ hq
          | _ => simpa [taken] using ht
      obtain ⟨y, hy, hdis⟩ := hstill
      rcases mem_replace { d with rest := next a } hy with rfl | hy
      · exact ⟨{ y with rest := next a }, by simp, hdis⟩
      · exact ⟨y, hy, hdis⟩
  case inUse =>
      intro x hx hx' u hu
      rcases mem_replace d hx with rfl | hx
      · exact h.inUse d hd hgoing u hu
      · exact h.inUse x hx hx' u hu
  case last =>
      intro i x hx hgo
      rcases getElem?_replace d hx with ⟨hne, hx⟩ | ⟨rfl, rfl⟩
      · obtain ⟨hkeeps, hover⟩ := h.last i x hx hgo
        refine ⟨hkeeps, fun j y hy hji hdis ↦ ?_⟩
        rcases getElem?_replace d hy with ⟨-, hy⟩ | ⟨rfl, rfl⟩
        · exact hover j y hy hji hdis
        · have hthis := hover before.length d (by simp) hji hdis
          rw [hgoing] at hthis
          cases hthis
      · obtain ⟨hkeeps, hover⟩ := h.last before.length d (by simp) hgo
        refine ⟨hkeeps, fun j y hy hji hdis ↦ ?_⟩
        rcases getElem?_replace d hy with ⟨-, hy⟩ | ⟨rfl, rfl⟩
        · exact hover j y hy hji hdis
        · exact absurd rfl hji

end Proceed

section Begin

variable {past : History κ ℓ} {hands : Holdings κ ℓ} {doings : List (Doing κ ℓ)}
  {name : Option String} {deed : Deed κ ℓ}

/-- Whoever uses what the drop of the last keeper takes away is done with it. -/
theorem Custody.isOver_of_drop (h : Custody p launcher ⟨past, hands, doings⟩)
    (hp : p.launcher = some launcher) {slot : String} {gone : Holder κ ℓ}
    (hbegins : Begins hands doings none (.drop hands slot))
    (hlast : hands.LastKeeper slot gone launcher) {x : Doing κ ℓ} (hx : x ∈ doings)
    (hdis : x.deed.Disowns p launcher) : x.isOver = true := by
  cases hover : x.isOver with
  | true => rfl
  | false =>
      rcases hdis with hstop | hgo
      · obtain ⟨slot', hslot, hheld⟩ := h.inUse x hx hover (.proxy p) (by rw [hstop]; rfl)
        have hstill := hbegins.mem_leaves hx hover hslot hheld
        have hkeeps : Holdings.keeps (hands.erase slot) launcher = true :=
          keeps_iff.mpr ⟨slot', .proxy p, hstill, hp⟩
        rw [hlast.2.2] at hkeeps
        cases hkeeps
      · obtain ⟨i, hi⟩ := List.mem_iff_getElem?.mp hx
        have hkept := hlast.keeps
        rw [(h.last i x hi hgo).1] at hkept
        cases hkept

theorem Custody.begin (h : Custody p launcher ⟨past, hands, doings⟩)
    (hp : p.launcher = some launcher) (hbegins : Begins hands doings name deed)
    (hlawful : Lawful Deed.terms
      ⟨past, deed.leaves hands, doings ++ [⟨name, deed, past, deed.course⟩]⟩)
    (hfamiliar : Familiar p
      ⟨past, deed.leaves hands, doings ++ [⟨name, deed, past, deed.course⟩]⟩) :
    Custody p launcher ⟨past, deed.leaves hands, doings ++ [⟨name, deed, past, deed.course⟩]⟩ := by
  constructor
  case orderly =>
      intro x hx hdis
      rcases List.mem_append.mp hx with hx | hx
      · exact h.orderly x hx hdis
      · rw [List.mem_singleton.mp hx] at hdis ⊢
        exact hdis.orderly.1
  case counted =>
      have hstart : deed.course.shutting? = none := by
        cases hs : deed.course.shutting? with
        | none => rfl
        | some l =>
            have hnew := disowns_of_shutting hp hlawful hfamiliar
              (d := ⟨name, deed, past, deed.course⟩) (by simp) hs
            rw [hnew.2.orderly.2] at hs
            cases hs
      have hcounted : shutdowns past + inHand doings = if taken launcher past then 1 else 0 :=
        h.counted
      rw [← hcounted, inHand_middle]
      simp [hstart, inHand]
  case taker =>
      intro ht
      obtain ⟨y, hy, hdis⟩ := h.taker ht
      exact ⟨y, List.mem_append_left _ hy, hdis⟩
  case inUse =>
      intro x hx hgoing u hu
      rcases List.mem_append.mp hx with hx | hx
      · obtain ⟨slot, hslot, hmem⟩ := h.inUse x hx hgoing u hu
        exact ⟨slot, hslot, hbegins.mem_leaves hx hgoing hslot hmem⟩
      · rw [List.mem_singleton.mp hx] at hu ⊢
        obtain ⟨slot, hname, hmem, hsame⟩ := hbegins.user hu
        refine ⟨slot, hname, ?_⟩
        rw [hsame]
        exact hmem
  case last =>
      intro i x hx hgo
      rcases getElem?_concat hx with hx | ⟨rfl, rfl⟩
      · obtain ⟨hkeeps, hover⟩ := h.last i x hx hgo
        refine ⟨?_, fun j y hy hji hdis ↦ ?_⟩
        · cases hcase : Holdings.keeps (deed.leaves hands) launcher with
          | false => rfl
          | true =>
              obtain ⟨slot, u, hmem, hl⟩ := keeps_iff.mp hcase
              rw [keeps_iff.mpr ⟨slot, u, Deed.mem_of_leaves hmem, hl⟩] at hkeeps
              cases hkeeps
        · rcases getElem?_concat hy with hy | ⟨-, rfl⟩
          · exact hover j y hy hji hdis
          · rw [hbegins.keeps hp hdis] at hkeeps
            cases hkeeps
      · obtain ⟨hands', slot, gone, rfl, hlast⟩ := hgo
        cases hbegins with
        | use hheld huser => cases huser
        | drop hheld hidle =>
            refine ⟨hlast.2.2, fun j y hy hji hdis ↦ ?_⟩
            rcases getElem?_concat hy with hy | ⟨hj, -⟩
            · exact h.isOver_of_drop hp (.drop hheld hidle) hlast (List.mem_of_getElem? hy) hdis
            · exact absurd hj hji

end Begin

theorem Custody.step {life life' : Life κ ℓ} (h : Custody p launcher life)
    (hp : p.launcher = some launcher) (hlawful : Lawful Deed.terms life)
    (hfamiliar : Familiar p life) (hstep : Step life life') : Custody p launcher life' := by
  have hlawful' := hlawful.step hstep fun deed _ past ↦ course_obeys deed past
  have hfamiliar' := hfamiliar.step hlawful hstep
  cases hstep with
  | @copy past hands doings slot into x hheld hfree =>
      refine h.hold hfree fun hl ↦ keeps_iff.mpr ⟨slot, x, Keyed.mem_of_get? hheld, ?_⟩
      cases x with
      | proxy q => cases hl
      | method f => exact hl
  | @take past hands doings slot into name q f hheld hmethod hfree =>
      refine h.hold hfree fun hl ↦ keeps_iff.mpr ⟨slot, .proxy q, Keyed.mem_of_get? hheld, ?_⟩
      unfold method at hmethod
      split at hmethod <;> cases hmethod
      exact hl
  | keep hd hrest hfree =>
      refine h.hold hfree fun hl ↦ ?_
      cases (hlawful.foreign hd hrest).2.2.symm.trans hl
  | begin hbegins => exact h.begin hp hbegins hlawful' hfamiliar'
  | proceed hrest hfits => exact h.proceed hp hlawful hfamiliar hrest hfits
  | create hstart hnew => exact h.happen _ (by simp)
  | settle hcreated hnew => exact h.happen _ (by simp)

theorem Custody.start {plan : Plan ℓ} {args : ByteArray} {said : List (Exchange κ ℓ)}
    (h : plan.Building args (contacts said) (.ok p)) (slot : String) :
    Custody p launcher (Life.start p said slot) := by
  have htaken : taken launcher (Life.start p said slot).past = false := by
    refine List.any_eq_false.mpr fun x hx ↦ ?_
    obtain ⟨⟨q, a⟩, he, rfl⟩ := mem_start.mp hx
    cases q with
    | release l => exact absurd rfl (h.not_stopping he l).1
    | _ => simp
  have hshut : shutdowns (Life.start p said slot).past = 0 := by
    refine List.countP_eq_zero.mpr fun x hx ↦ ?_
    obtain ⟨⟨q, a⟩, he, rfl⟩ := mem_start.mp hx
    cases q with
    | shutdown l => exact absurd rfl (h.not_stopping he l).2
    | _ => simp [Happening.isShutdown]
  refine ⟨fun d hd ↦ ?_, ?_, fun ht ↦ ?_, fun d hd ↦ ?_, fun i d hd ↦ ?_⟩
  · cases hd
  · rw [htaken, hshut]
    rfl
  · rw [htaken] at ht
    cases ht
  · cases hd
  · cases hd

theorem Custody.reaches {said : List (Exchange κ ℓ)} {slot : String} {life : Life κ ℓ}
    (h : Custody p launcher (Life.start p said slot)) (hp : p.launcher = some launcher)
    (hlife : Reaches (Life.start p said slot) life) : Custody p launcher life := by
  induction hlife with
  | refl => exact h
  | tail hreaches hstep ih => exact ih.step hp (lawful hreaches) (familiar hreaches) hstep

variable {life : Life κ ℓ}

/-- A deed that could end the ownership has ended it when it is over. -/
theorem taken_of_isOver (hp : p.launcher = some launcher) (hlawful : Lawful Deed.terms life)
    {d : Doing κ ℓ} (hd : d ∈ life.doings) (hdis : d.deed.Disowns p launcher)
    (hover : d.isOver = true) : taken launcher life.past = true := by
  cases hrest : d.rest with
  | ask q next =>
      rw [Doing.isOver, hrest] at hover
      cases hover
  | crash reason => exact absurd hrest (hlawful.not_crashed hd reason)
  | done u =>
      have hends : d.deed.Ends d.since life.past u := hlawful.ends_done hd hrest
      rcases hdis with hdeed | ⟨hands, slot, gone, hdeed, hlast⟩
      · rw [hdeed] at hends
        cases u with
        | stopped => exact hends launcher hp
        | _ => exact hends.elim
      · rw [hdeed] at hends
        cases u with
        | dropped rest => exact hends gone launcher hlast
        | _ => exact hends.elim

theorem inHand_eq_zero (hp : p.launcher = some launcher) (hlawful : Lawful Deed.terms life)
    (hfamiliar : Familiar p life)
    (hover : ∀ d ∈ life.doings, d.deed.Disowns p launcher → d.isOver = true) :
    inHand life.doings = 0 := by
  refine List.countP_eq_zero.mpr fun x hx hsome ↦ ?_
  obtain ⟨l, hl⟩ := Option.isSome_iff_exists.mp hsome
  have hxover := hover x hx (disowns_of_shutting hp hlawful hfamiliar hx hl).2
  obtain ⟨next, hrest⟩ := Dialogue.eq_of_shutting? hl
  rw [Doing.isOver, hrest] at hxover
  cases hxover

/-- Once the last keeper has been let go, all that could end the ownership is over. -/
theorem Custody.isOver_of_letsGo (h : Custody p launcher life) {d x : Doing κ ℓ}
    (hd : d ∈ life.doings) (hgo : d.deed.LetsGo launcher) (hover : d.isOver = true)
    (hx : x ∈ life.doings) (hdis : x.deed.Disowns p launcher) : x.isOver = true := by
  obtain ⟨i, hi⟩ := List.mem_iff_getElem?.mp hd
  obtain ⟨j, hj⟩ := List.mem_iff_getElem?.mp hx
  by_cases hji : j = i
  · subst hji
    cases hi.symm.trans hj
    exact hover
  · exact (h.last i d hi hgo).2 j x hj hji hdis

theorem Custody.shutdowns_eq_one (h : Custody p launcher life) (hp : p.launcher = some launcher)
    (hlawful : Lawful Deed.terms life) (hfamiliar : Familiar p life) {d : Doing κ ℓ}
    (hd : d ∈ life.doings) (hdis : d.deed.Disowns p launcher)
    (hover : ∀ x ∈ life.doings, x.deed.Disowns p launcher → x.isOver = true) :
    shutdowns life.past = 1 := by
  have hcounted := h.counted
  rw [taken_of_isOver hp hlawful hd hdis (hover d hd hdis), if_pos rfl,
    inHand_eq_zero hp hlawful hfamiliar hover] at hcounted
  exact hcounted

theorem Custody.shutdowns_eq_zero (h : Custody p launcher life)
    (hkept : life.hands.keeps launcher = true) (hnot : ∀ d ∈ life.doings, d.deed ≠ .stop p) :
    shutdowns life.past = 0 := by
  have hcounted := h.counted
  cases htaken : taken launcher life.past with
  | false =>
      rw [htaken] at hcounted
      simp only [Bool.false_eq_true, if_false] at hcounted
      omega
  | true =>
      obtain ⟨d, hd, hstop | hgo⟩ := h.taker htaken
      · exact absurd hstop (hnot d hd)
      · obtain ⟨i, hi⟩ := List.mem_iff_getElem?.mp hd
        rw [(h.last i d hi hgo).1] at hkept
        cases hkept

end Life

theorem Stops.answerable {p : Proxy κ ℓ} {q : Query κ ℓ} (h : p.Stops q) (now : History κ ℓ) :
    ∃ a, Fits now ⟨q, a⟩ := by
  cases q with
  | release l => exact ⟨!taken l now, rfl⟩
  | shutdown l => exact ⟨.ok (), trivial⟩
  | log e => exact ⟨(), trivial⟩
  | _ => exact h.elim

namespace Life.Lawful

variable {life : Life κ ℓ} {i : Nat} {d : Doing κ ℓ}

theorem returns (h : Lawful Deed.terms life) (hd : life.doings[i]? = some d)
    (hdeed : (∃ q, d.deed = .stop q) ∨ (∃ hands slot, d.deed = .drop hands slot)) :
    d.rest.Finishes (some i) (fun _ _ ↦ True) life.past := by
  refine (h.obeys i d hd).mono (fun now query _ hmay ↦ ?_) fun _ _ _ _ ↦ trivial
  have hmay : d.deed.May now query := hmay
  rcases hdeed with ⟨q, hdeed⟩ | ⟨hands, slot, hdeed⟩
  · rw [hdeed] at hmay
    exact Stops.answerable (p := q) hmay now
  · rw [hdeed] at hmay
    obtain ⟨gone, l, -, hstops⟩ := hmay
    exact hstops.answerable now

theorem owns (h : Lawful Deed.terms life) (hd : life.doings[i]? = some d) {q : Proxy κ ℓ}
    (hdeed : d.deed = .ownsServer q) :
    d.rest.Finishes (some i) (fun now u ↦ ∃ mid, d.since <:+ mid ∧ mid <:+ now ∧
      u = .owns (q.ownsAt mid)) life.past := by
  have hobeys := h.obeys i d hd
  rw [hdeed] at hobeys
  refine hobeys.mono (fun now query _ hmay ↦ ?_) fun now u _ hends ↦ ?_
  · cases query with
    | held l => exact ⟨!taken l now, rfl⟩
    | _ => exact hmay.elim
  · cases u with
    | owns b =>
        obtain ⟨mid, hmid, hnow, rfl⟩ := hends
        exact ⟨mid, hmid, hnow, rfl⟩
    | _ => exact hends.elim

end Life.Lawful

/-- In every reachable state of the life of a proxy that was built with a launched server, the
server has been shut down at most once, and only by its owner. -/
theorem launched_shut_down_once {plan : Plan ℓ} {answers : Dialogue.Answers κ ℓ} {p : Proxy κ ℓ}
    {said : List (Exchange κ ℓ)} {slot : String} {life : Life κ ℓ} {launcher : ℓ}
    (hbuild : (build Dialogue.surroundings plan).run answers [] = (.ok (.ok p), said))
    (hp : p.launcher = some launcher) (hlife : Life.Reaches (Life.start p said slot) life) :
    Ownership p launcher life := by
  obtain ⟨args, -, hbuilding⟩ := building_of_run hbuild
  have hlawful := Life.lawful hlife
  have hfamiliar := Life.familiar hlife
  have h := (Life.Custody.start hbuilding slot).reaches hp hlife
  constructor
  case holders =>
      rintro u (hu | ⟨d, hd, hu⟩)
      · exact (hfamiliar.held u hu).own_or_lent life
      · exact (hfamiliar.known hd hu).own_or_lent life
  case lent =>
      intro u hlent
      exact hlent.launcher_eq hlawful
  case lentIdle =>
      intro i d u hd hu hlent e he
      obtain ⟨d', earlier, hd', -, hmay⟩ := hlawful.may_of_said he
      cases hd.symm.trans hd'
      have hnot (l : ℓ) (h : d.deed.May earlier (.release l) ∨ d.deed.May earlier (.shutdown l)) :
          False := by
        have hdis := (Deed.May.disowns hp hfamiliar (List.mem_of_getElem? hd) h).2
        cases (hlent.launcher_eq hlawful).symm.trans (hdis.launcher_eq hp hu)
      obtain ⟨q, a⟩ := e
      cases q with
      | release l => exact (hnot l (.inl hmay)).elim
      | shutdown l => exact (hnot l (.inr hmay)).elim
      | _ => rfl
  case keepers =>
      intro u hu l hl
      exact (hfamiliar.held u hu).held_eq hl
  case kept => exact h.shutdowns_eq_zero
  case once =>
      rw [h.counted]
      split <;> omega
  case stopped =>
      intro d hd hdeed hover
      rw [h.counted, Life.taken_of_isOver hp hlawful hd (.inl hdeed) hover, if_pos rfl]
  case allStopped =>
      intro d hd hdeed _ hall
      exact h.shutdowns_eq_one hp hlawful hfamiliar hd (.inl hdeed) hall
  case letGo =>
      intro d hd hgo hover
      exact h.shutdowns_eq_one hp hlawful hfamiliar hd (.inr hgo) fun x hx hdis ↦
        h.isOver_of_letsGo hd hgo hover hx hdis
  case shutBy =>
      intro who l result hsaid
      cases who with
      | none =>
          exact absurd rfl (hbuilding.not_stopping (Life.mem_of_said_none hlife hsaid) l).2
      | some i =>
          obtain ⟨d, earlier, hd, -, hmay⟩ := hlawful.may_of_said hsaid
          obtain ⟨hl, hdis⟩ :=
            Deed.May.disowns hp hfamiliar (List.mem_of_getElem? hd) (.inr hmay)
          exact ⟨hl, i, d, rfl, hd, hdis⟩
  case returns =>
      intro i d hd hdeed
      exact hlawful.returns hd hdeed
  case owns =>
      intro i d hd hdeed
      have h := hlawful.owns hd hdeed
      simpa [ownsAt, hp] using h
  case ownsNot =>
      intro i d q hd hdeed hother
      have hnone : q.launcher = none := by
        rcases hother with hlent | hne
        · exact hlent.launcher_eq hlawful
        · cases hl : q.launcher with
          | none => rfl
          | some l =>
              have huser : d.deed.user? = some (.proxy q) := by
                rw [hdeed]
                rfl
              have hused := hfamiliar.used d (List.mem_of_getElem? hd) (.proxy q) huser
              exact absurd (hused.held_eq hl) hne
      refine (hlawful.owns hd hdeed).mono (fun _ _ _ hq ↦ hq) ?_
      rintro now u - ⟨mid, -, -, rfl⟩
      simp [ownsAt, hnone]

def gaugePlan : Plan Unit :=
  { (Plan.create (.ofNames "Gauge" ["read"]) : Plan Unit) with launcher := some () }

def gauge : Proxy Unit Unit where
  methods := gaugePlan.methods
  objectId := ⟨"1"⟩
  addr := ⟨gaugePlan.launchConfig.host, 7000⟩
  link := ()
  codec := .json
  creation := some 0
  attachedOnly := false
  launcher := some ()

/-- How a dialogue goes on when it has tried to take the launcher. -/
def Dialogue.released {α : Type} (free : Bool) : Dialogue Unit Unit α → Dialogue Unit Unit α
  | .ask (.release ()) next => next free
  | rest => rest

def gaugeBuild : List (Exchange Unit Unit) :=
  ((build Dialogue.surroundings gaugePlan).run (Dialogue.peaceful 7000) []).2

theorem gauge_build : (build Dialogue.surroundings gaugePlan).run (Dialogue.peaceful 7000) [] =
    (.ok (.ok gauge), gaugeBuild) := rfl

def gaugeLife : Life Unit Unit := Life.start gauge gaugeBuild "gauge"

/-- A stop of the gauge that has tried to take the launcher, or has not yet. -/
def stopping (free : Option Bool) : Doing Unit Unit :=
  let course := (Deed.stop gauge).course
  ⟨some "gauge", .stop gauge, gaugeLife.past, free.elim course course.released⟩

/-- Two stops of a gauge overlap, and the one that came too late has returned first. -/
def overlap : Life Unit Unit :=
  ⟨.said (some 1) ⟨.release (), false⟩ :: .said (some 0) ⟨.release (), true⟩ :: gaugeLife.past,
    gaugeLife.hands, [stopping true, stopping false]⟩

theorem stopping_step {past : History Unit Unit} {doings : List (Doing Unit Unit)} {i : Nat}
    (hd : doings[i]? = some (stopping none)) {free : Bool} (hfits : free = !taken () past) :
    Life.Step ⟨past, gaugeLife.hands, doings⟩
      ⟨.said (some i) ⟨.release (), free⟩ :: past, gaugeLife.hands,
        doings.set i (stopping free)⟩ := by
  have hasks : (stopping none).rest = .ask (.release ()) fun free ↦ (stopping free).rest := rfl
  exact Life.step_at gaugeLife.hands hd hasks hfits

theorem overlap_reaches : gaugeLife.Reaches overlap := by
  have hbegins (doings : List (Doing Unit Unit)) :
      Begins gaugeLife.hands doings (some "gauge") (.stop gauge) :=
    .use (show gaugeLife.hands.get? "gauge" = some (.proxy gauge) from rfl) rfl
  have hfirst : gaugeLife.Step ⟨gaugeLife.past, gaugeLife.hands, [stopping none]⟩ :=
    .begin (hbegins gaugeLife.doings)
  have hsecond : Life.Step ⟨gaugeLife.past, gaugeLife.hands, [stopping none]⟩
      ⟨gaugeLife.past, gaugeLife.hands, [stopping none, stopping none]⟩ :=
    .begin (hbegins [stopping none])
  have htake : Life.Step ⟨gaugeLife.past, gaugeLife.hands, [stopping none, stopping none]⟩
      ⟨.said (some 0) ⟨.release (), true⟩ :: gaugeLife.past, gaugeLife.hands,
        [stopping true, stopping none]⟩ :=
    stopping_step (i := 0) rfl rfl
  have hmiss : Life.Step ⟨.said (some 0) ⟨.release (), true⟩ :: gaugeLife.past, gaugeLife.hands,
      [stopping true, stopping none]⟩ overlap :=
    stopping_step (i := 1) rfl rfl
  exact (((Relation.ReflTransGen.single hfirst).tail hsecond).tail htake).tail hmiss

/-- A stop may return when the server is not shut down yet, if another stop overlaps with it. -/
theorem shutdown_late_of_overlap : ∃ life,
    (build Dialogue.surroundings gaugePlan).run (Dialogue.peaceful 7000) [] =
      (.ok (.ok gauge), gaugeBuild) ∧
    gauge.launcher = some () ∧ Life.Reaches (Life.start gauge gaugeBuild "gauge") life ∧
    ∃ d ∈ life.doings, d.deed = .stop gauge ∧ d.isOver = true ∧ shutdowns life.past = 0 :=
  ⟨overlap, gauge_build, rfl, overlap_reaches, stopping false, by simp [overlap], rfl, rfl, rfl⟩

/-- Of two stops that overlap the second returns early, and the first then shuts the server down. -/
theorem launched_shut_down_once_of_overlap : ∃ life,
    (build Dialogue.surroundings gaugePlan).run (Dialogue.peaceful 7000) [] =
      (.ok (.ok gauge), gaugeBuild) ∧
    gauge.launcher = some () ∧ Life.Reaches (Life.start gauge gaugeBuild "gauge") overlap ∧
    overlap.doings.map Doing.isOver = [false, true] ∧ shutdowns overlap.past = 0 ∧
    overlap.Reaches life ∧ life.doings.map Doing.isOver = [true, true] ∧
    shutdowns life.past = 1 ∧ Ownership gauge () life := by
  have howned := launched_shut_down_once gauge_build rfl overlap_reaches
  have hfirst : overlap.doings[0]? = some (stopping true) := rfl
  obtain ⟨past, u, -, -, hlife⟩ :=
    Life.exists_done gaugeLife.hands hfirst (howned.returns 0 _ hfirst (.inl ⟨gauge, rfl⟩))
  have hended := launched_shut_down_once gauge_build rfl (overlap_reaches.trans hlife)
  have hshut : shutdowns past = 1 := by
    apply hended.allStopped (stopping false) (by simp [overlap]) rfl rfl
    intro d hd _
    obtain rfl | rfl : d = { stopping true with rest := .done u } ∨ d = stopping false := by
      simpa [overlap] using hd
    · rfl
    · rfl
  exact ⟨_, gauge_build, rfl, overlap_reaches, rfl, rfl, hlife, rfl, hshut, hended⟩

end RemoteObjects.Proxy
