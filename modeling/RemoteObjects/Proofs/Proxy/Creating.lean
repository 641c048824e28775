import RemoteObjects.Proofs.Proxy.Building
import RemoteObjects.Proofs.Proxy.Family

/-!
# The creation of the object

The object of a new proxy is created once, whatever is copied and called.  Calls wait for the end of
the creation, and if it fails, all of them report the one failure.
-/

namespace RemoteObjects.Proxy

variable {κ ℓ : Type}

/-! ## What is told -/

/-- Whether the client is asked to create an object. -/
def Happening.asksCreation : Happening κ ℓ → Bool
  | .created _ _ | .said _ ⟨.create _ _ _ _, _⟩ => true
  | _ => false

def Query.asksClient : Query κ ℓ → Bool
  | .create _ _ _ _ | .call _ _ _ _ | .reachable _ => true
  | _ => false

def Deed.callee? : Deed κ ℓ → Option (Proxy κ ℓ × String)
  | .invoke p method _ => some (p, method)
  | .call f _ => some (f.proxy, f.name)
  | _ => none

/-- Whether a deed cannot do without the object of a proxy. -/
def Deed.Needs (deed : Deed κ ℓ) (p : Proxy κ ℓ) : Prop :=
  deed = .waitReady p ∨
    ∃ method, deed.callee? = some (p, method) ∧ p.methods.contains method = true

section

variable [DecidableEq ℓ]

/-- Whether the task of a creation was spawned and has not run yet. -/
def Life.Due (life : Life κ ℓ) (creation : Nat) (c : Creation κ) : Prop :=
  life.Step ⟨.created creation c :: life.past, life.hands, life.doings⟩

/-- The client is asked for one creation, when its task runs, and for nothing else ever. -/
structure Life.CreatesOnce (life : Life κ ℓ) (creation : Nat) (c : Creation κ) : Prop where
  none_of_due : life.Due creation c → life.past.filter Happening.asksCreation = []
  /-- Once the task has run, the client has been asked exactly once. -/
  one_of_not_due : ¬life.Due creation c →
    life.past.filter Happening.asksCreation = [.created creation c]
  /-- A creation that is over in any way has run. -/
  one_of_settled : ∀ s, settlement creation life.past = some s →
    life.past.filter Happening.asksCreation = [.created creation c]

/-- The cause of the failure that the end of a creation means: what the client reported, or an
internal error if the task panicked. -/
def Settled.FailsWith (cause : Client.Error) : Settled → Prop
  | .finished (.ok ()) => False
  | .finished (.error e) => cause = e
  | .crashed _ => ∃ detail, cause = .internal ("creation task failed: " ++ detail)

/-- The whole family fails with one cause. -/
structure Life.InVain (p : Proxy κ ℓ) (cause : Client.Error) (life : Life κ ℓ) : Prop where
  /-- No member has asked the client for a call. -/
  silent : ∀ (i : Nat) d u, life.doings[i]? = some d → d.deed.user? = some u → p.Kin u.held →
    ∀ link objectId method payload reply,
      .said (some i) ⟨.call link objectId method payload, reply⟩ ∉ life.past
  /-- The failure is what all calls of public methods return, those begun before it and after it. -/
  called : ∀ (i : Nat) d q method, life.doings[i]? = some d →
    d.deed.callee? = some (q, method) → p.Kin q → q.methods.contains method = true →
      d.rest.Finishes (some i)
        (fun _ u ↦ u = .value (.error (.creation p.objectId p.addr cause))) life.past
  waited : ∀ (i : Nat) d q, life.doings[i]? = some d → d.deed = .waitReady q → p.Kin q →
    d.rest.Finishes (some i)
      (fun _ u ↦ u = .ready (.error (.creation p.objectId p.addr cause))) life.past

/-- What is said of the creation in the life of a proxy that was built after a plan. -/
structure CreationProtocol (plan : Plan ℓ) (p : Proxy κ ℓ) (life : Life κ ℓ) : Prop where
  attached : plan.attachedOnly = true →
    p.creation = none ∧ ∀ x ∈ life.past, x.asksCreation = false
  created : plan.attachedOnly = false → ∃ creation args, p.creation = some creation ∧
    plan.codec.encodeArgs plan.args = .ok args ∧
    life.CreatesOnce creation ⟨p.link, p.objectType, args, p.objectId⟩
  /-- Calls of the family come after the creation has ended well. -/
  calls : ∀ creation, p.creation = some creation →
    ∀ (i : Nat) d u, life.doings[i]? = some d → d.deed.user? = some u → p.Kin u.held →
      ∀ later earlier link objectId method payload reply,
        life.past = later ++ .said (some i) ⟨.call link objectId method payload, reply⟩ :: earlier →
          settlement creation earlier = some (.finished (.ok ()))
  /-- Nobody who needs the object gets an answer before the creation is over. -/
  answered : ∀ creation, p.creation = some creation →
    ∀ (i : Nat) d q, life.doings[i]? = some d → p.Kin q → d.deed.Needs q → d.isOver = true →
      ∃ s, settlement creation life.past = some s
  /-- A creation that has not ended well has one cause for all. -/
  failed : ∀ creation s, p.creation = some creation → settlement creation life.past = some s →
    s ≠ .finished (.ok ()) → ∃ cause, s.FailsWith cause ∧ life.InVain p cause
  /-- A name outside the table is refused at once, and nothing is said. -/
  refused : ∀ (i : Nat) d q method, life.doings[i]? = some d →
    d.deed.callee? = some (q, method) → q.methods.contains method = false →
      d.rest = .done (.value (.error (.invalidMethod q.objectType method))) ∧
        ∀ e, .said (some i) e ∉ life.past
  /-- The state is the one at some time between the beginning and the end, found without waiting
  and without asking the client. -/
  state : ∀ (i : Nat) d q, life.doings[i]? = some d → d.deed = .state q → p.Kin q →
    d.rest.Finishes (some i) (fun now u ↦ ∃ mid, d.since <:+ mid ∧ mid <:+ now ∧
      u = .state (p.stateAt mid)) life.past ∧
    ∀ e, .said (some i) e ∈ life.past → e.query.asksClient = false
  stateStays : ∀ earlier, earlier <:+ life.past → p.stateAt earlier ≠ .creating →
    p.stateAt life.past = p.stateAt earlier

end

/-! ## Building starts the creation -/

theorem Plan.Building.creates {plan : Plan ℓ} {args : ByteArray} {said : List (Exchange κ ℓ)}
    {p : Proxy κ ℓ} (h : plan.Building args (contacts said) (.ok p)) {e : Exchange κ ℓ}
    (he : e ∈ said) (hcreates : e.creates = true) :
    ∃ creation c, p.onset? args = some (creation, c) ∧ e = ⟨.start c, creation⟩ := by
  obtain ⟨q, a⟩ := e
  rcases h.asks he with hreport | hseeks | hid | hstart
  · rw [(Exchange.harmless_of_isReport hreport).1] at hcreates
    cases hcreates
  · cases q <;> simp [Query.seeks, Exchange.creates] at hseeks hcreates
  · cases q <;> simp [Exchange.creates] at hid hcreates
  · exact hstart

theorem Plan.Building.creation {plan : Plan ℓ} {args : ByteArray} {said : List (Exchange κ ℓ)}
    {p : Proxy κ ℓ} (h : plan.Building args (contacts said) (.ok p)) :
    plan.attachedOnly = true ∧ p.creation = none ∨
      plan.attachedOnly = false ∧ ∃ creation, p.creation = some creation ∧
        ⟨.start ⟨p.link, p.objectType, args, p.objectId⟩, creation⟩ ∈ said := by
  generalize hasked : contacts said = asked at h
  cases h with
  | built hfound hname hstart =>
      cases hstart with
      | existing hatt => exact .inl ⟨hatt, rfl⟩
      | started hatt creation =>
          refine .inr ⟨hatt, creation, rfl, (mem_contacts.mp ?_).1⟩
          rw [hasked]
          exact List.mem_append_right _ (List.mem_singleton.mpr rfl)

/-! ## Creating once -/

/-- How far the one creation of a family has come, if there is one. -/
structure Life.Onset (onset : Option (Nat × Creation κ)) (past : History κ ℓ) : Prop where
  started : ∀ who c creation, .said who ⟨.start c, creation⟩ ∈ past → onset = some (creation, c)
  asked : past.filter Happening.asksCreation = [] ∨ ∃ creation c, onset = some (creation, c) ∧
    past.filter Happening.asksCreation = [.created creation c]
  settled : ∀ creation, settlement creation past ≠ none → ∃ c, .created creation c ∈ past

namespace Life.Onset

variable {onset : Option (Nat × Creation κ)} {past : History κ ℓ}

theorem said (h : Onset onset past) {who : Option Nat} {e : Exchange κ ℓ}
    (he : e.creates = false) : Onset onset (.said who e :: past) where
  started who' c creation hsaid := by
    rcases List.mem_cons.mp hsaid with heq | hsaid
    · cases heq
      cases he
    · exact h.started who' c creation hsaid
  asked := by
    obtain ⟨q, a⟩ := e
    cases q with
    | create link objectType args objectId => cases he
    | _ => exact h.asked
  settled creation hsettled := by
    obtain ⟨c, hc⟩ := h.settled creation hsettled
    exact ⟨c, List.mem_cons_of_mem _ hc⟩

theorem create (h : Onset onset past) {who : Option Nat} {c : Creation κ} {creation : Nat}
    (hstart : .said who ⟨.start c, creation⟩ ∈ past)
    (hnew : ∀ c', .created creation c' ∉ past) : Onset onset (.created creation c :: past) where
  started who' c' creation' hsaid := by
    rcases List.mem_cons.mp hsaid with heq | hsaid
    · cases heq
    · exact h.started who' c' creation' hsaid
  asked := by
    have honset := h.started who c creation hstart
    rcases h.asked with hnone | ⟨creation', c', honset', hone⟩
    · refine .inr ⟨creation, c, honset, ?_⟩
      rw [List.filter_cons_of_pos rfl, hnone]
    · cases honset.symm.trans honset'
      have hmem : .created creation c ∈ past.filter Happening.asksCreation := by
        rw [hone]
        exact List.mem_singleton.mpr rfl
      exact absurd (List.mem_filter.mp hmem).1 (hnew c)
  settled creation' hsettled := by
    obtain ⟨c', hc'⟩ := h.settled creation' hsettled
    exact ⟨c', List.mem_cons_of_mem _ hc'⟩

theorem settle (h : Onset onset past) {c : Creation κ} {creation : Nat} {result : Settled}
    (hcreated : .created creation c ∈ past) : Onset onset (.settled creation result :: past) where
  started who c' creation' hsaid := by
    rcases List.mem_cons.mp hsaid with heq | hsaid
    · cases heq
    · exact h.started who c' creation' hsaid
  asked := h.asked
  settled creation' hsettled := by
    by_cases hsame : creation = creation'
    · subst hsame
      exact ⟨c, List.mem_cons_of_mem _ hcreated⟩
    · have hbefore : settlement creation' past ≠ none := by
        simpa [settlement, hsame] using hsettled
      obtain ⟨c', hc'⟩ := h.settled creation' hbefore
      exact ⟨c', List.mem_cons_of_mem _ hc'⟩

end Life.Onset

/-- The only query of a build that matters to creations is the start of its own. -/
theorem Plan.Building.onset {plan : Plan ℓ} {args : ByteArray} {said : List (Exchange κ ℓ)}
    {p : Proxy κ ℓ} (h : plan.Building args (contacts said) (.ok p)) (slot : String) :
    Life.Onset (p.onset? args) (Life.start p said slot).past where
  started who c creation hsaid := by
    obtain ⟨e, he, heq⟩ := Life.mem_start.mp hsaid
    cases heq
    obtain ⟨creation', c', honset, heq⟩ := h.creates he rfl
    cases heq
    exact honset
  asked := by
    refine .inl (List.filter_eq_nil_iff.mpr fun x hx ↦ ?_)
    obtain ⟨⟨q, a⟩, he, rfl⟩ := Life.mem_start.mp hx
    cases q with
    | create link objectType args' objectId =>
        obtain ⟨creation', c', -, heq⟩ := h.creates he rfl
        cases heq
    | _ => simp [Happening.asksCreation]
  settled creation hsettled := by
    have hnone (l : List (Exchange κ ℓ)) :
        settlement creation (l.map (Happening.said none)) = none := by
      induction l with
      | nil => rfl
      | cons e l ih => exact ih
    refine absurd ?_ hsettled
    rw [Life.start, ← List.map_reverse]
    exact hnone said.reverse

section Steps

variable [DecidableEq ℓ]

theorem Deed.May.creates_eq_false {deed : Deed κ ℓ} {now : History κ ℓ} {e : Exchange κ ℓ}
    (h : deed.May now e.query) : e.creates = false := by
  obtain ⟨q, a⟩ := e
  cases q with
  | start c => cases deed <;> simp [May, MayCall, Awaits, Peeks, Stops] at h
  | create link objectType args objectId =>
      cases deed <;> simp [May, MayCall, Awaits, Peeks, Stops] at h
  | _ => rfl

theorem Life.Onset.step {onset : Option (Nat × Creation κ)} {life life' : Life κ ℓ}
    (h : Onset onset life.past) (hlawful : Lawful Deed.terms life) (hstep : Step life life') :
    Onset onset life'.past := by
  cases hstep with
  | copy | take | keep | begin => exact h
  | @proceed past hands before after d q next a hrest hfits =>
      have hmay : d.deed.May past q := hlawful.may_ask (List.mem_append_right _ (.head _)) hrest
      exact h.said hmay.creates_eq_false
  | create hstart hnew => exact h.create hstart hnew
  | settle hcreated hnew => exact h.settle hcreated

theorem Life.Onset.reaches {onset : Option (Nat × Creation κ)} {p : Proxy κ ℓ}
    {said : List (Exchange κ ℓ)} {slot : String} {life : Life κ ℓ}
    (h : Onset onset (Life.start p said slot).past)
    (hlife : Reaches (Life.start p said slot) life) : Onset onset life.past := by
  induction hlife with
  | refl => exact h
  | tail hreaches hstep ih => exact ih.step (Life.lawful hreaches) hstep

theorem Life.Due.notMem {life : Life κ ℓ} {creation : Nat} {c : Creation κ}
    (h : life.Due creation c) (c' : Creation κ) : .created creation c' ∉ life.past := by
  obtain ⟨past, hands, doings⟩ := life
  cases h with
  | create hstart hnew => exact hnew c'

theorem Life.Onset.createsOnce {life : Life κ ℓ} {creation : Nat} {c : Creation κ}
    (h : Onset (some (creation, c)) life.past) {who : Option Nat}
    (hstart : .said who ⟨.start c, creation⟩ ∈ life.past) : life.CreatesOnce creation c := by
  have hone (hmem : ∃ c', .created creation c' ∈ life.past) :
      life.past.filter Happening.asksCreation = [.created creation c] := by
    obtain ⟨c', hmem⟩ := hmem
    rcases h.asked with hnone | ⟨_, _, honset, hone⟩
    · exact absurd rfl (List.filter_eq_nil_iff.mp hnone _ hmem)
    · cases honset
      exact hone
  constructor
  case none_of_due =>
      intro hdue
      rcases h.asked with hnone | ⟨_, _, honset, hasked⟩
      · exact hnone
      · cases honset
        have hmem : .created creation c ∈ life.past.filter Happening.asksCreation := by
          rw [hasked]
          exact List.mem_singleton.mpr rfl
        exact absurd (List.mem_filter.mp hmem).1 (hdue.notMem c)
  case one_of_not_due =>
      intro hdue
      apply hone
      by_contra hnew
      exact hdue (.create hstart fun c' hmem ↦ hnew ⟨c', hmem⟩)
  case one_of_settled =>
      intro s hs
      exact hone (h.settled creation (by simp [hs]))

end Steps

/-! ## Waiting for its end -/

theorem Settled.finished_of_cause? {creation : Nat} {s : Settled}
    (h : s.cause? creation = none) : s = .finished (.ok ()) := by
  cases s with
  | crashed reason => cases h
  | finished result =>
      cases result with
      | error e => cases h
      | ok u => rfl

theorem Settled.exists_cause (creation : Nat) {s : Settled} (h : s ≠ .finished (.ok ())) :
    ∃ cause, s.cause? creation = some cause ∧ s.FailsWith cause := by
  cases s with
  | crashed reason =>
      have htask : "creation task failed: task " = "creation task failed: " ++ "task " := rfl
      refine ⟨_, rfl,
        "task " ++ toString creation ++ " panicked with message " ++ quoted reason, ?_⟩
      simp only [htask, String.append_assoc]
  | finished result =>
      cases result with
      | error e => exact ⟨e, rfl, rfl⟩
      | ok u => exact absurd rfl h

theorem Awaited.settled {p : Proxy κ ℓ} {creation : Nat} {now : History κ ℓ}
    {r : Except Error Unit} (h : p.Awaited now r) (hc : p.creation = some creation) :
    ∃ s, settlement creation now = some s := by
  simp only [Awaited, hc] at h
  obtain ⟨s, hs, -⟩ := h
  exact ⟨s, hs⟩

theorem Awaited.ok {p : Proxy κ ℓ} {creation : Nat} {now : History κ ℓ}
    (h : p.Awaited now (.ok ())) (hc : p.creation = some creation) :
    settlement creation now = some (.finished (.ok ())) := by
  simp only [Awaited, hc] at h
  obtain ⟨s, hs, hverdict⟩ := h
  cases hcause : s.cause? creation with
  | none => rw [hs, Settled.finished_of_cause? hcause]
  | some cause =>
      rw [verdict, hcause] at hverdict
      cases hverdict

theorem Awaited.failed {p : Proxy κ ℓ} {creation : Nat} {now : History κ ℓ}
    {r : Except Error Unit} (h : p.Awaited now r) (hc : p.creation = some creation) {s : Settled}
    (hs : settlement creation now = some s) {cause : Client.Error}
    (hcause : s.cause? creation = some cause) :
    r = .error (.creation p.objectId p.addr cause) := by
  simp only [Awaited, hc] at h
  obtain ⟨s', hs', rfl⟩ := h
  cases hs.symm.trans hs'
  rw [verdict, hcause]

variable [DecidableEq ℓ]

theorem Peeks.answerable {p : Proxy κ ℓ} {q : Query κ ℓ} (h : p.Peeks q) (now : History κ ℓ) :
    ∃ a, Fits now ⟨q, a⟩ := by
  cases q with
  | poll creation => exact ⟨settlement creation now, rfl⟩
  | firstLook creation => exact ⟨!looked creation now, rfl⟩
  | log e => exact ⟨(), trivial⟩
  | _ => exact h.elim

theorem Awaits.answerable {p : Proxy κ ℓ} {q : Query κ ℓ} (h : p.Awaits q) {creation : Nat}
    (hc : p.creation = some creation) {now : History κ ℓ} {s : Settled}
    (hs : settlement creation now = some s) : ∃ a, Fits now ⟨q, a⟩ := by
  rcases awaits_iff.mp h with ⟨creation', rfl, hc'⟩ | hpeeks
  · cases hc.symm.trans hc'
    exact ⟨s, hs⟩
  · exact hpeeks.answerable now

theorem MayCall.answerable {p : Proxy κ ℓ} {method : String} {q : Query κ ℓ} {now : History κ ℓ}
    (h : p.MayCall method now q) {creation : Nat} (hc : p.creation = some creation) {s : Settled}
    (hs : settlement creation now = some s) : ∃ a, Fits now ⟨q, a⟩ := by
  rcases mayCall_iff.mp h with ⟨payload, rfl, -⟩ | hawaits
  · exact ⟨.ok .empty, trivial⟩
  · exact hawaits.answerable hc hs

/-! ## The deeds of the family -/

theorem Deed.May.call {deed : Deed κ ℓ} {now : History κ ℓ} {link : κ} {objectId : ObjectId}
    {method : String} {payload : ByteArray} (h : deed.May now (.call link objectId method payload))
    {u : Holder κ ℓ} (hu : deed.user? = some u) : u.held.Awaited now (.ok ()) := by
  cases deed <;> simp only [May, MayCall, Awaits, Peeks, Stops] at h
  case invoke p name args =>
    cases hu
    exact h.2.2.2.2
  case call f args =>
    cases hu
    exact h.2.2.2.2
  case drop hands slot =>
    obtain ⟨_, _, _, hstops⟩ := h
    exact hstops.elim

theorem Deed.May.callee {deed : Deed κ ℓ} {now : History κ ℓ} {q : Query κ ℓ}
    (h : deed.May now q) {p : Proxy κ ℓ} {method : String}
    (hcallee : deed.callee? = some (p, method)) :
    p.methods.contains method = true ∧ p.MayCall method now q := by
  cases deed with
  | invoke p' method' args =>
      cases hcallee
      exact h
  | call f args =>
      cases hcallee
      exact h
  | _ => cases hcallee

theorem Deed.Ends.callee {deed : Deed κ ℓ} {since now : History κ ℓ} {u : Upshot κ ℓ}
    (h : deed.Ends since now u) {p : Proxy κ ℓ} {method : String}
    (hcallee : deed.callee? = some (p, method)) : ∃ r, u = .value r ∧ p.Called method now r := by
  cases deed with
  | invoke p' method' args =>
      cases hcallee
      cases u with
      | value r => exact ⟨r, rfl, h⟩
      | _ => exact h.elim
  | call f args =>
      cases hcallee
      cases u with
      | value r => exact ⟨r, rfl, h⟩
      | _ => exact h.elim
  | _ => cases hcallee

namespace Life.Lawful

variable {life : Life κ ℓ} {i : Nat} {d : Doing κ ℓ}

theorem may (h : Lawful Deed.terms life) (hd : life.doings[i]? = some d) {e : Exchange κ ℓ}
    (he : .said (some i) e ∈ life.past) :
    ∃ earlier, earlier <:+ life.past ∧ d.deed.May earlier e.query := by
  obtain ⟨d', earlier, hd', hearlier, hmay⟩ := h.may_of_said he
  cases hd.symm.trans hd'
  exact ⟨earlier, hearlier, hmay⟩

theorem called (h : Lawful Deed.terms life) (hd : life.doings[i]? = some d) {u : Holder κ ℓ}
    (hu : d.deed.user? = some u) {creation : Nat} (hc : u.held.creation = some creation)
    {later earlier : History κ ℓ} {link : κ} {objectId : ObjectId} {method : String}
    {payload : ByteArray} {reply : Except Client.Error ByteArray}
    (hpast : life.past =
      later ++ .said (some i) ⟨.call link objectId method payload, reply⟩ :: earlier) :
    settlement creation earlier = some (.finished (.ok ())) :=
  (Deed.May.call (h.permitted i d hd _ later earlier hpast) hu).ok hc

theorem answered (h : Lawful Deed.terms life) (hd : life.doings[i]? = some d) {q : Proxy κ ℓ}
    (hneeds : d.deed.Needs q) (hover : d.isOver = true) {creation : Nat}
    (hc : q.creation = some creation) : ∃ s, settlement creation life.past = some s := by
  have hmem := List.mem_of_getElem? hd
  cases hrest : d.rest with
  | ask query next =>
      rw [Doing.isOver, hrest] at hover
      cases hover
  | crash reason => exact absurd hrest (h.not_crashed hmem reason)
  | done u =>
      have hends : d.deed.Ends d.since life.past u := h.ends_done hmem hrest
      rcases hneeds with hdeed | ⟨method, hcallee, hpublic⟩
      · rw [hdeed] at hends
        cases u with
        | ready r =>
            have hawaited : q.Awaited life.past r := hends
            exact hawaited.settled hc
        | _ => exact hends.elim
      · obtain ⟨r, -, hcalled⟩ := hends.callee hcallee
        rw [Called, if_pos hpublic] at hcalled
        obtain ⟨awaited, hawaited, -⟩ := hcalled
        exact hawaited.settled hc

theorem calledInVain (h : Lawful Deed.terms life) (hd : life.doings[i]? = some d)
    {q : Proxy κ ℓ} {method : String} (hcallee : d.deed.callee? = some (q, method))
    (hpublic : q.methods.contains method = true) {creation : Nat} (hc : q.creation = some creation)
    {s : Settled} (hs : settlement creation life.past = some s) {cause : Client.Error}
    (hcause : s.cause? creation = some cause) :
    d.rest.Finishes (some i)
      (fun _ u ↦ u = .value (.error (.creation q.objectId q.addr cause))) life.past := by
  refine (h.obeys i d hd).mono (fun now query hnow hmay ↦ ?_) fun now u hnow hends ↦ ?_
  · exact (Deed.May.callee hmay hcallee).2.answerable hc (settlement_mono hnow hs)
  · obtain ⟨r, rfl, hcalled⟩ := Deed.Ends.callee hends hcallee
    rw [Called, if_pos hpublic] at hcalled
    obtain ⟨awaited, hawaited, hr⟩ := hcalled
    rw [hr _ (hawaited.failed hc (settlement_mono hnow hs) hcause)]

theorem waitedInVain (h : Lawful Deed.terms life) (hd : life.doings[i]? = some d)
    {q : Proxy κ ℓ} (hdeed : d.deed = .waitReady q) {creation : Nat}
    (hc : q.creation = some creation) {s : Settled}
    (hs : settlement creation life.past = some s) {cause : Client.Error}
    (hcause : s.cause? creation = some cause) :
    d.rest.Finishes (some i)
      (fun _ u ↦ u = .ready (.error (.creation q.objectId q.addr cause))) life.past := by
  have hobeys := h.obeys i d hd
  rw [hdeed] at hobeys
  refine hobeys.mono (fun now query hnow hmay ↦ ?_) fun now u hnow hends ↦ ?_
  · exact Awaits.answerable (p := q) hmay hc (settlement_mono hnow hs)
  · cases u with
    | ready r =>
        have hawaited : q.Awaited now r := hends
        rw [hawaited.failed hc (settlement_mono hnow hs) hcause]
    | _ => exact hends.elim

theorem refused (h : Lawful Deed.terms life) (hd : life.doings[i]? = some d)
    {q : Proxy κ ℓ} {method : String} (hcallee : d.deed.callee? = some (q, method))
    (hprivate : q.methods.contains method = false) :
    d.rest = .done (.value (.error (.invalidMethod q.objectType method))) ∧
      ∀ e, .said (some i) e ∉ life.past := by
  have hnever {now : History κ ℓ} {query : Query κ ℓ} (hmay : d.deed.May now query) : False := by
    have hpublic := (hmay.callee hcallee).1
    rw [hprivate] at hpublic
    cases hpublic
  constructor
  · have hmem := List.mem_of_getElem? hd
    cases hrest : d.rest with
    | done u =>
        obtain ⟨r, rfl, hcalled⟩ := Deed.Ends.callee (h.ends_done hmem hrest) hcallee
        rw [Called, if_neg (by simp [hprivate])] at hcalled
        rw [hcalled]
    | ask query next => exact (hnever (h.may_ask hmem hrest)).elim
    | crash reason => exact absurd hrest (h.not_crashed hmem reason)
  · intro e he
    obtain ⟨earlier, -, hmay⟩ := h.may hd he
    exact hnever hmay

theorem state (h : Lawful Deed.terms life) (hd : life.doings[i]? = some d) {q : Proxy κ ℓ}
    (hdeed : d.deed = .state q) :
    d.rest.Finishes (some i) (fun now u ↦ ∃ mid, d.since <:+ mid ∧ mid <:+ now ∧
      u = .state (q.stateAt mid)) life.past ∧
    ∀ e, .said (some i) e ∈ life.past → e.query.asksClient = false := by
  constructor
  · have hobeys := h.obeys i d hd
    rw [hdeed] at hobeys
    apply hobeys.mono (fun now query _ hmay ↦ Peeks.answerable (p := q) hmay now)
    intro now u _ hends
    cases u with
    | state s =>
        obtain ⟨mid, hmid, hnow, rfl⟩ := hends
        exact ⟨mid, hmid, hnow, rfl⟩
    | _ => exact hends.elim
  · rintro ⟨query, answer⟩ he
    obtain ⟨earlier, -, hmay⟩ := h.may hd he
    rw [hdeed] at hmay
    cases query <;> first | rfl | exact hmay.elim

end Life.Lawful

/-- In every reachable state of the life of a proxy, the creation has been asked for exactly once if
its task has run, calls have neither overtaken it nor come after its failure, and all who were in
need of the object are told of the one failure. -/
theorem creation_protocol {plan : Plan ℓ} {answers : Dialogue.Answers κ ℓ} {p : Proxy κ ℓ}
    {said : List (Exchange κ ℓ)} {slot : String} {life : Life κ ℓ}
    (hbuild : (build Dialogue.surroundings plan).run answers [] = (.ok (.ok p), said))
    (hlife : Life.Reaches (Life.start p said slot) life) : CreationProtocol plan p life := by
  obtain ⟨args, hargs, hbuilding⟩ := building_of_run hbuild
  have hlawful := Life.lawful hlife
  have honset := (hbuilding.onset slot).reaches hlife
  constructor
  case attached =>
      intro hatt
      rcases hbuilding.creation with ⟨-, hc⟩ | ⟨hnew, -⟩
      · rw [onset?, hc] at honset
        rcases honset.asked with hnone | ⟨creation, c, hsome, -⟩
        · refine ⟨hc, fun x hx ↦ ?_⟩
          simpa using List.filter_eq_nil_iff.mp hnone x hx
        · cases hsome
      · exact absurd (hatt.symm.trans hnew) (by simp)
  case created =>
      intro hnew
      rcases hbuilding.creation with ⟨hatt, -⟩ | ⟨-, creation, hc, hstart⟩
      · exact absurd (hatt.symm.trans hnew) (by simp)
      · rw [onset?, hc] at honset
        have hstarted : .said none ⟨.start ⟨p.link, p.objectType, args, p.objectId⟩, creation⟩ ∈
            life.past := by
          exact (Life.past_suffix hlife).subset (Life.mem_start.mpr ⟨_, hstart, rfl⟩)
        refine ⟨creation, args, hc, ?_, honset.createsOnce hstarted⟩
        rw [encodedArgs_new hnew] at hargs
        cases hencoded : plan.codec.encodeArgs plan.args with
        | error e =>
            rw [hencoded] at hargs
            cases hargs
        | ok bytes =>
            rw [hencoded] at hargs
            cases hargs
            rfl
  case calls =>
      intro creation hc i d u hd hu hkin later earlier link objectId method payload reply hpast
      exact hlawful.called hd hu (hkin.creation_eq.trans hc) hpast
  case answered =>
      intro creation hc i d q hd hkin hneeds hover
      exact hlawful.answered hd hneeds hover (hkin.creation_eq.trans hc)
  case failed =>
      intro creation s hc hs hfailed
      obtain ⟨cause, hcause, hfails⟩ := Settled.exists_cause creation hfailed
      refine ⟨cause, hfails, ?_, ?_, ?_⟩
      · intro i d u hd hu hkin link objectId method payload reply hsaid
        obtain ⟨later, earlier, hpast⟩ := List.append_of_mem hsaid
        have hearlier : earlier <:+ life.past := by
          rw [hpast]
          exact (List.suffix_cons _ _).trans (List.suffix_append _ _)
        have hdone := hlawful.called hd hu (hkin.creation_eq.trans hc) hpast
        exact hfailed (Option.some.inj (hs.symm.trans (settlement_mono hearlier hdone)))
      · intro i d q method hd hcallee hkin hpublic
        have h := hlawful.calledInVain hd hcallee hpublic (hkin.creation_eq.trans hc) hs hcause
        rcases hkin.eq_or with rfl | rfl <;> exact h
      · intro i d q hd hdeed hkin
        have h := hlawful.waitedInVain hd hdeed (hkin.creation_eq.trans hc) hs hcause
        rcases hkin.eq_or with rfl | rfl <;> exact h
  case refused =>
      intro i d q method hd hcallee hprivate
      exact hlawful.refused hd hcallee hprivate
  case state =>
      intro i d q hd hdeed hkin
      have h := hlawful.state hd hdeed
      rcases hkin.eq_or with rfl | rfl <;> exact h
  case stateStays =>
      intro earlier hearlier hover
      exact stateAt_mono p hearlier hover

def counterPlan : Plan Unit :=
  { Plan.create (.ofNames "Counter" ["increment"]) with addr := some ⟨"localhost", 7000⟩ }

def counter : Proxy Unit Unit where
  methods := counterPlan.methods
  objectId := ⟨"1"⟩
  addr := ⟨"localhost", 7000⟩
  link := ()
  codec := .json
  creation := some 0
  attachedOnly := false
  launcher := none

def counterBuild : List (Exchange Unit Unit) :=
  ((build Dialogue.surroundings counterPlan).run (Dialogue.peaceful 7000) []).2

theorem counter_build :
    (build Dialogue.surroundings counterPlan).run (Dialogue.peaceful 7000) [] =
      (.ok (.ok counter), counterBuild) := rfl

def counterLife : Life Unit Unit := Life.start counter counterBuild "counter"

/-- What is held when the counter has been copied. -/
def twins : Holdings Unit Unit := counterLife.hands.insert "twin" (.proxy counter.clone)

def incrementing : Doing Unit Unit :=
  let deed := .invoke counter "increment" .empty
  ⟨some "counter", deed, counterLife.past, deed.course⟩

def awaiting : Doing Unit Unit :=
  let deed := .waitReady counter.clone
  ⟨some "twin", deed, counterLife.past, deed.course⟩

def counterCreation : Creation Unit :=
  ⟨(), "Counter", Wire.encodeTree CallArgs.empty.tree, ⟨"1"⟩⟩

/-- The creation of the counter crashes while a call and a copy of the counter wait for it. -/
def crash : Life Unit Unit :=
  ⟨.settled 0 (.crashed "out of memory") :: .created 0 counterCreation :: counterLife.past, twins,
    [incrementing, awaiting]⟩

theorem crash_reaches : counterLife.Reaches crash := by
  have hcopy : counterLife.Step ⟨counterLife.past, twins, []⟩ :=
    .copy (show counterLife.hands.get? "counter" = some (.proxy counter) from rfl) rfl
  have hcalls : Begins twins [] (some "counter") incrementing.deed :=
    .use (show twins.get? "counter" = some (.proxy counter) from rfl) rfl
  have hcall : Life.Step ⟨counterLife.past, twins, []⟩
      ⟨counterLife.past, twins, [incrementing]⟩ := .begin hcalls
  have hwaits : Begins twins [incrementing] (some "twin") awaiting.deed :=
    .use (show twins.get? "twin" = some (.proxy counter.clone) from rfl) rfl
  have hwait : Life.Step ⟨counterLife.past, twins, [incrementing]⟩
      ⟨counterLife.past, twins, [incrementing, awaiting]⟩ := .begin hwaits
  have hcreate : Life.Step ⟨counterLife.past, twins, [incrementing, awaiting]⟩
      ⟨.created 0 counterCreation :: counterLife.past, twins, [incrementing, awaiting]⟩ := by
    refine .create
      (show .said none ⟨.start counterCreation, 0⟩ ∈ counterLife.past from List.mem_cons_self) ?_
    simp [counterLife, Life.start]
  have hsettle : Life.Step
      ⟨.created 0 counterCreation :: counterLife.past, twins, [incrementing, awaiting]⟩ crash :=
    .settle List.mem_cons_self rfl
  exact ((((Relation.ReflTransGen.single hcopy).tail hcall).tail hwait).tail hcreate).tail hsettle

/-- A counter is called, and a copy of it waits, while the creation is under way and crashes.  Both
are told of the one failure. -/
theorem creation_protocol_of_crash : ∃ said life detail,
    (build Dialogue.surroundings counterPlan).run (Dialogue.peaceful 7000) [] =
      (.ok (.ok counter), said) ∧
    Life.Reaches (Life.start counter said "counter") life ∧
    settlement 0 life.past = some (.crashed "out of memory") ∧
    life.doings.map Doing.rest =
      [.done (.value (.error (.creation ⟨"1"⟩ ⟨"localhost", 7000⟩
          (.internal ("creation task failed: " ++ detail))))),
        .done (.ready (.error (.creation ⟨"1"⟩ ⟨"localhost", 7000⟩
          (.internal ("creation task failed: " ++ detail)))))] ∧
    CreationProtocol counterPlan counter life := by
  have hcrashed : settlement 0 crash.past = some (.crashed "out of memory") := rfl
  obtain ⟨_, ⟨detail, rfl⟩, hvain⟩ :=
    (creation_protocol counter_build crash_reaches).failed 0 _ rfl hcrashed (by simp)
  have hcalled := hvain.called 0 incrementing counter "increment" rfl rfl .self (by decide)
  have hwaited := hvain.waited 1 awaiting counter.clone rfl rfl (.clone .self)
  obtain ⟨past, u, hpast, hu, hcall⟩ :=
    Life.exists_done twins (show crash.doings[0]? = some incrementing from rfl) hcalled
  have hstill : (crash.doings.set 0 { incrementing with rest := .done u })[1]? = some awaiting := rfl
  obtain ⟨past', v, hpast', hv, hwait⟩ := Life.exists_done twins hstill (hwaited.later hpast)
  subst hu hv
  have hlife := (crash_reaches.trans hcall).trans hwait
  exact ⟨counterBuild, _, detail, counter_build, hlife,
    settlement_mono (hpast.trans hpast') hcrashed, rfl, creation_protocol counter_build hlife⟩

end RemoteObjects.Proxy
