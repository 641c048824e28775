import RemoteObjects.Proofs.Proxy.Contract

/-!
# What each deed does

The contracts of the deeds.  Only a call that found its object created asks the client for it; only
`stop`, or letting go of the last keeper, lays hands on a launcher; and what a deed ends with
follows from what had become of the creation and of the launcher by then.
-/

namespace RemoteObjects.Proxy

variable {κ ℓ : Type}

/-! ## Contracts -/

/-- The end that a creation means for its proxy. -/
def verdict (p : Proxy κ ℓ) (creation : Nat) (s : Settled) : Except Error Unit :=
  match s.cause? creation with
  | none => .ok ()
  | some cause => .error (.creation p.objectId p.addr cause)

/-- What waiting for a proxy may end with. -/
def Awaited (p : Proxy κ ℓ) (now : History κ ℓ) (r : Except Error Unit) : Prop :=
  match p.creation with
  | none => r = .ok ()
  | some creation => ∃ s, settlement creation now = some s ∧ r = p.verdict creation s

theorem Awaited.later {p : Proxy κ ℓ} {past now : History κ ℓ} {r : Except Error Unit}
    (h : p.Awaited past r) (hnow : past <:+ now) : p.Awaited now r := by
  unfold Awaited at h ⊢
  cases hc : p.creation with
  | none => simpa [hc] using h
  | some creation =>
      rw [hc] at h
      obtain ⟨s, hs, hr⟩ := h
      exact ⟨s, settlement_mono hnow hs, hr⟩

def stateAt (p : Proxy κ ℓ) (now : History κ ℓ) : State :=
  match p.creation with
  | none => .ready
  | some creation =>
    match settlement creation now with
    | none => .creating
    | some (.finished (.ok ())) => .ready
    | some _ => .failed

theorem stateAt_mono (p : Proxy κ ℓ) {past now : History κ ℓ} (hnow : past <:+ now)
    (hpast : p.stateAt past ≠ .creating) : p.stateAt now = p.stateAt past := by
  unfold stateAt at hpast ⊢
  cases hc : p.creation with
  | none => rfl
  | some creation =>
      simp only [hc] at hpast ⊢
      cases hs : settlement creation past with
      | none => simp [hs] at hpast
      | some s => simp only [settlement_mono hnow hs]

def ownsAt [DecidableEq ℓ] (p : Proxy κ ℓ) (now : History κ ℓ) : Bool :=
  match p.launcher with
  | none => false
  | some launcher => !taken launcher now

/-- The queries by which a proxy learns of its creation without waiting for it. -/
def Peeks (p : Proxy κ ℓ) : Query κ ℓ → Prop
  | .poll creation | .firstLook creation => p.creation = some creation
  | .log _ => True
  | _ => False

def Awaits (p : Proxy κ ℓ) : Query κ ℓ → Prop
  | .join creation => p.creation = some creation
  | q => p.Peeks q

def MayCall (p : Proxy κ ℓ) (method : String) (now : History κ ℓ) : Query κ ℓ → Prop
  | .call link objectId name _ =>
    link = p.link ∧ objectId = p.objectId ∧ name = method ∧ p.Awaited now (.ok ())
  | q => p.Awaits q

def Called (p : Proxy κ ℓ) (method : String) (now : History κ ℓ)
    (r : Except Error Json.Value) : Prop :=
  if p.methods.contains method then
    ∃ awaited, p.Awaited now awaited ∧ ∀ e, awaited = .error e → r = .error e
  else r = .error (.invalidMethod p.objectType method)

theorem Called.later {p : Proxy κ ℓ} {method : String} {past now : History κ ℓ}
    {r : Except Error Json.Value} (h : p.Called method past r) (hnow : past <:+ now) :
    p.Called method now r := by
  unfold Called at h ⊢
  split
  · next hpublic =>
      rw [if_pos hpublic] at h
      obtain ⟨awaited, hawaited, hr⟩ := h
      exact ⟨awaited, hawaited.later hnow, hr⟩
  · next hprivate => rwa [if_neg hprivate] at h

/-- The queries by which a server is stopped. -/
def Stops (p : Proxy κ ℓ) : Query κ ℓ → Prop
  | .release launcher | .shutdown launcher => p.launcher = some launcher
  | .log _ => True
  | _ => False

/-- Whether nothing came to be with the proxy that would have to be awaited or stopped. -/
def Foreign (p : Proxy κ ℓ) : Prop :=
  p.creation = none ∧ p.attachedOnly = true ∧ p.launcher = none

/-- Whether the holder under a name is the last that keeps a launcher. -/
def Holdings.LastKeeper [DecidableEq ℓ] (hands : Holdings κ ℓ) (slot : String)
    (gone : Holder κ ℓ) (launcher : ℓ) : Prop :=
  hands.get? slot = some gone ∧ gone.held.launcher = some launcher ∧
    Holdings.keeps (hands.erase slot) launcher = false

namespace Deed

variable [DecidableEq ℓ]

def May (now : History κ ℓ) : Deed κ ℓ → Query κ ℓ → Prop
  | .invoke p method _, q => p.methods.contains method = true ∧ p.MayCall method now q
  | .call f _, q => f.proxy.methods.contains f.name = true ∧ f.proxy.MayCall f.name now q
  | .waitReady p, q => p.Awaits q
  | .state p, q => p.Peeks q
  | .ownsServer p, .held launcher => p.launcher = some launcher
  | .stop p, q => p.Stops q
  | .rehydrate _ d _, .connect addr => addr = d.addr
  | .drop hands slot, q =>
    ∃ gone launcher, hands.LastKeeper slot gone launcher ∧ gone.held.Stops q
  | _, _ => False

def Ends (since now : History κ ℓ) : Deed κ ℓ → Upshot κ ℓ → Prop
  | .invoke p method _, .value r => p.Called method now r
  | .call f _, .value r => f.proxy.Called f.name now r
  | .waitReady p, .ready r => p.Awaited now r
  | .state p, .state s => ∃ mid, since <:+ mid ∧ mid <:+ now ∧ s = p.stateAt mid
  | .ownsServer p, .owns b => ∃ mid, since <:+ mid ∧ mid <:+ now ∧ b = p.ownsAt mid
  | .stop p, .stopped => ∀ launcher, p.launcher = some launcher → taken launcher now = true
  | .rehydrate _ _ _, .revived r => ∀ p, r = .ok p → p.Foreign
  | .drop hands slot, .dropped _ =>
    ∀ gone launcher, hands.LastKeeper slot gone launcher → taken launcher now = true
  | _, _ => False

def terms (deed : Deed κ ℓ) (since : History κ ℓ) : Contract κ ℓ (Upshot κ ℓ) where
  may now q := deed.May now q
  ends now u := deed.Ends since now u

end Deed

theorem awaits_iff {p : Proxy κ ℓ} {q : Query κ ℓ} :
    p.Awaits q ↔ (∃ creation, q = .join creation ∧ p.creation = some creation) ∨ p.Peeks q := by
  cases q <;> simp [Awaits, Peeks]

theorem mayCall_iff {p : Proxy κ ℓ} {method : String} {now : History κ ℓ} {q : Query κ ℓ} :
    p.MayCall method now q ↔
      (∃ payload, q = .call p.link p.objectId method payload ∧ p.Awaited now (.ok ())) ∨
        p.Awaits q := by
  cases q with
  | call link objectId name payload => simp [MayCall, Awaits, Peeks, and_assoc]
  | _ => simp [MayCall]

/-! ## Keeping them -/

open Dialogue

variable [DecidableEq ℓ] {who : Option Nat} {past : History κ ℓ}

theorem look_obeys {c : Contract κ ℓ (Except Error Unit)} (p : Proxy κ ℓ) {creation : Nat}
    (s : Settled) (hc : p.creation = some creation)
    (hmay : ∀ now q, past <:+ now → p.Peeks q → c.may now q)
    (hends : ∀ now, past <:+ now → c.ends now (p.verdict creation s)) :
    (p.look surroundings creation s).Obeys who c past := by
  refine Obeys.ask fun now hnow ↦ ⟨hmay now _ hnow hc, fun first _ ↦ ?_⟩
  have hend : (Dialogue.done (p.verdict creation s)).Obeys who c now :=
    fun then' hthen ↦ hends then' (hnow.trans hthen)
  have hreport (e : Event) :
      (Dialogue.ask (.log e) fun _ ↦ .done (p.verdict creation s)).Obeys who c now :=
    Obeys.ask fun then' hthen ↦
      ⟨hmay then' _ (hnow.trans hthen) trivial, fun _ _ ↦ hend.later hthen⟩
  rw [verdict] at hend
  simp only [verdict] at hreport
  cases hcause : s.cause? creation with
  | none =>
      rw [hcause] at hend
      simp only [hcause] at hreport
      cases first with
      | true => exact hreport _
      | false => exact hend
  | some cause =>
      rw [hcause] at hend
      simp only [hcause] at hreport
      cases first with
      | true => exact hreport _
      | false => exact hend

theorem waitReady_obeys {c : Contract κ ℓ (Except Error Unit)} (p : Proxy κ ℓ)
    (hmay : ∀ now q, past <:+ now → p.Awaits q → c.may now q)
    (hends : ∀ now r, past <:+ now → p.Awaited now r → c.ends now r) :
    (p.waitReady surroundings).Obeys who c past := by
  unfold waitReady
  split
  · next hc =>
      intro now hnow
      exact hends now _ hnow (by simp [Awaited, hc])
  · next creation hc =>
      refine Obeys.ask fun now hnow ↦ ⟨hmay now _ hnow hc, fun s hs ↦ ?_⟩
      refine look_obeys p s hc
        (fun then' q hthen hq ↦ hmay then' q (hnow.trans hthen) (awaits_iff.mpr (.inr hq))) ?_
      intro then' hthen
      have hawaited : p.Awaited now (p.verdict creation s) := by
        rw [Awaited, hc]
        exact ⟨s, hs, rfl⟩
      exact hends then' _ (hnow.trans hthen) (hawaited.later hthen)

theorem invoke_obeys {c : Contract κ ℓ (Except Error Json.Value)} (p : Proxy κ ℓ)
    (method : String) (args : CallArgs)
    (hmay : ∀ now q, past <:+ now → p.methods.contains method = true → p.MayCall method now q →
      c.may now q)
    (hends : ∀ now r, past <:+ now → p.Called method now r → c.ends now r) :
    (p.invoke surroundings method args).Obeys who c past := by
  unfold invoke
  cases hpublic : p.methods.contains method with
  | false =>
      intro now hnow
      exact hends now _ hnow (by simp [Called, hpublic])
  | true =>
      have hcalled {now : History κ ℓ} {r : Except Error Unit} {v : Except Error Json.Value}
          (hr : p.Awaited now r) (hv : ∀ e, r = .error e → v = .error e) :
          p.Called method now v := by
        rw [Called, if_pos hpublic]
        exact ⟨r, hr, hv⟩
      refine Obeys.bind (waitReady_obeys p ?_ fun now r hnow hr ↦ ?_)
      · intro now q hnow hq
        exact hmay now q hnow hpublic (mayCall_iff.mpr (.inr hq))
      cases r with
      | error e =>
          intro then' hthen
          refine hends then' _ (hnow.trans hthen) (hcalled (hr.later hthen) fun e' he ↦ ?_)
          cases he
          rfl
      | ok _ =>
          cases hpayload : p.codec.encodeArgs args with
          | error e =>
              simp only
              intro then' hthen
              exact hends then' _ (hnow.trans hthen) (hcalled (hr.later hthen) (by simp))
          | ok payload =>
              simp only
              refine Obeys.ask fun then' hthen ↦ ⟨?_, fun reply _ last hlast ↦ ?_⟩
              · exact hmay then' _ (hnow.trans hthen) hpublic ⟨rfl, rfl, rfl, hr.later hthen⟩
              · have hlater := hthen.trans hlast
                exact hends last _ (hnow.trans hlater) (hcalled (hr.later hlater) (by simp))

theorem state_obeys {c : Contract κ ℓ State} (p : Proxy κ ℓ)
    (hmay : ∀ now q, past <:+ now → p.Peeks q → c.may now q)
    (hends : ∀ mid now, past <:+ mid → mid <:+ now → c.ends now (p.stateAt mid)) :
    (p.state surroundings).Obeys who c past := by
  unfold state
  split
  · next hc =>
      intro now hnow
      simpa [stateAt, hc] using hends past now List.suffix_rfl hnow
  · next creation hc =>
      refine Obeys.ask fun mid hmid ↦ ⟨hmay mid _ hmid hc, fun found hfound ↦ ?_⟩
      have hfound : found = settlement creation mid := hfound
      subst hfound
      cases hs : settlement creation mid with
      | none =>
          intro now hnow
          simpa [stateAt, hc, hs] using hends mid now hmid hnow
      | some s =>
          change (p.look surroundings creation s >>= _).Obeys who c mid
          refine Obeys.bind (look_obeys p s hc ?_ fun now hnow ↦ ?_)
          · intro now q hnow
            exact hmay now q (hmid.trans hnow)
          have h (last : History κ ℓ) (hlast : now <:+ last) :=
            hends mid last hmid (hnow.trans hlast)
          simp only [stateAt, hc, hs] at h
          cases s with
          | crashed reason => exact h
          | finished result => cases result <;> exact h

theorem ownsServer_obeys {c : Contract κ ℓ Bool} (p : Proxy κ ℓ)
    (hmay : ∀ now launcher, past <:+ now → p.launcher = some launcher → c.may now (.held launcher))
    (hends : ∀ mid now, past <:+ mid → mid <:+ now → c.ends now (p.ownsAt mid)) :
    (p.ownsServer surroundings).Obeys who c past := by
  unfold ownsServer
  split
  · next hl =>
      intro now hnow
      simpa [ownsAt, hl] using hends past now List.suffix_rfl hnow
  · next launcher hl =>
      refine Obeys.ask fun mid hmid ↦ ⟨hmay mid launcher hmid hl, fun held hheld ↦ ?_⟩
      have hheld : held = !taken launcher mid := hheld
      intro now hnow
      simpa [ownsAt, hl, hheld] using hends mid now hmid hnow

theorem taken_cons (launcher : ℓ) (free : Bool) :
    taken launcher (.said who ⟨.release launcher, free⟩ :: past) = true := by
  simp [taken]

/-- A launcher is taken whether or not it was still there to be taken. -/
theorem stop_obeys {c : Contract κ ℓ Unit} (p : Proxy κ ℓ)
    (hmay : ∀ now q, past <:+ now → p.Stops q → c.may now q)
    (hends : ∀ now, past <:+ now →
      (∀ launcher, p.launcher = some launcher → taken launcher now = true) → c.ends now ()) :
    (p.stop surroundings).Obeys who c past := by
  unfold stop
  split
  · next hl =>
      intro now hnow
      exact hends now hnow (by simp [hl])
  · next launcher hl =>
      intro now hnow
      refine ⟨hmay now _ hnow hl, fun free _ ↦ ?_⟩
      have hgone {then' : History κ ℓ}
          (hthen : .said who ⟨.release launcher, free⟩ :: now <:+ then') : c.ends then' () := by
        refine hends then' ((hnow.trans (List.suffix_cons _ _)).trans hthen) fun l hl' ↦ ?_
        obtain rfl : launcher = l := Option.some.inj (hl.symm.trans hl')
        exact taken_mono hthen (taken_cons launcher free)
      have hlater {then' : History κ ℓ}
          (hthen : .said who ⟨.release launcher, free⟩ :: now <:+ then') {q : Query κ ℓ}
          (hq : p.Stops q) : c.may then' q :=
        hmay then' q ((hnow.trans (List.suffix_cons _ _)).trans hthen) hq
      cases free with
      | false => exact fun then' hthen ↦ hgone hthen
      | true =>
          refine Obeys.ask fun then' hthen ↦ ⟨hlater hthen hl, fun result _ ↦ ?_⟩
          cases result <;>
            exact Obeys.ask fun last hlast ↦ ⟨hlater (hthen.trans hlast) trivial,
              fun _ _ end' hend ↦ hgone ((hthen.trans hlast).trans hend)⟩

theorem rehydrate_obeys {c : Contract κ ℓ (Except Error (Proxy κ ℓ))} (methods : MethodTable)
    (d : Descriptor) (codec : Codec) (hmay : ∀ now, past <:+ now → c.may now (.connect d.addr))
    (hends : ∀ now r, past <:+ now → (∀ p, r = .ok p → p.Foreign) → c.ends now r) :
    (rehydrate surroundings methods d codec).Obeys who c past := by
  unfold rehydrate
  split
  · intro now hnow
    exact hends now _ hnow (by simp)
  · refine Obeys.ask fun now hnow ↦ ⟨hmay now hnow, fun link _ last hlast ↦ ?_⟩
    refine hends last _ (hnow.trans hlast) fun p hp ↦ ?_
    cases hp
    exact ⟨rfl, rfl, rfl⟩

theorem drop_obeys {c : Contract κ ℓ (Holdings κ ℓ)} (hands : Holdings κ ℓ) (slot : String)
    (hmay : ∀ now q gone launcher, past <:+ now → hands.LastKeeper slot gone launcher →
      gone.held.Stops q → c.may now q)
    (hends : ∀ now, past <:+ now → (∀ gone launcher, hands.LastKeeper slot gone launcher →
      taken launcher now = true) → c.ends now (hands.erase slot)) :
    (hands.drop surroundings slot).Obeys who c past := by
  unfold Holdings.drop
  cases hgone : hands.get? slot with
  | none =>
      intro now hnow
      refine hends now hnow fun gone launcher h ↦ ?_
      rw [h.1] at hgone
      cases hgone
  | some gone =>
      have hlast {gone' : Holder κ ℓ} {launcher : ℓ} (h : hands.LastKeeper slot gone' launcher) :
          gone' = gone := Option.some.inj (h.1.symm.trans hgone)
      apply Obeys.bind
      unfold Holdings.letGo
      split
      · next hl =>
          intro now hnow then' hthen
          refine hends then' (hnow.trans hthen) fun gone' launcher h ↦ ?_
          rw [hlast h] at h
          exact absurd (h.2.1.symm.trans hl) (by simp)
      · next launcher hl =>
          split
          · next hkept =>
              intro now hnow then' hthen
              refine hends then' (hnow.trans hthen) fun gone' launcher' h ↦ ?_
              rw [hlast h] at h
              obtain rfl : launcher' = launcher := Option.some.inj (h.2.1.symm.trans hl)
              exact absurd (h.2.2.symm.trans hkept) (by simp)
          · next hkept =>
              have hkeeper : hands.LastKeeper slot gone launcher :=
                ⟨hgone, hl, by simpa using hkept⟩
              refine stop_obeys gone.held
                (fun now q hnow ↦ hmay now q gone launcher hnow hkeeper) ?_
              intro now hnow htaken then' hthen
              refine hends then' (hnow.trans hthen) fun gone' launcher' h ↦ ?_
              rw [hlast h] at h
              exact taken_mono hthen (htaken launcher' h.2.1)

/-- Every deed obeys its contract, whenever it begins and whoever does it. -/
theorem course_obeys (deed : Deed κ ℓ) (past : History κ ℓ) :
    deed.course.Obeys who (deed.terms past) past := by
  cases deed with
  | invoke p method args =>
      refine Obeys.bind (invoke_obeys p method args (fun now q _ hp hq ↦ ⟨hp, hq⟩) ?_)
      intro now r _ hr then' hthen
      exact hr.later hthen
  | call f args =>
      refine Obeys.bind (invoke_obeys f.proxy f.name args (fun now q _ hp hq ↦ ⟨hp, hq⟩) ?_)
      intro now r _ hr then' hthen
      exact hr.later hthen
  | waitReady p =>
      refine Obeys.bind (waitReady_obeys p (fun now q _ hq ↦ hq) ?_)
      intro now r _ hr then' hthen
      exact hr.later hthen
  | state p =>
      refine Obeys.bind (state_obeys p (fun now q _ hq ↦ hq) ?_)
      intro mid now hmid hnow then' hthen
      exact ⟨mid, hmid, hnow.trans hthen, rfl⟩
  | ownsServer p =>
      refine Obeys.bind (ownsServer_obeys p (fun now launcher _ hl ↦ hl) ?_)
      intro mid now hmid hnow then' hthen
      exact ⟨mid, hmid, hnow.trans hthen, rfl⟩
  | stop p =>
      refine Obeys.bind (stop_obeys p (fun now q _ hq ↦ hq) ?_)
      intro now _ h then' hthen launcher hl
      exact taken_mono hthen (h launcher hl)
  | rehydrate methods d codec =>
      refine Obeys.bind (rehydrate_obeys methods d codec (fun now _ ↦ rfl) ?_)
      intro now r _ hr then' hthen
      exact hr
  | drop hands slot =>
      refine Obeys.bind (drop_obeys hands slot ?_ ?_)
      · intro now q gone launcher _ hkeeper hq
        exact ⟨gone, launcher, hkeeper, hq⟩
      · intro now _ h then' hthen gone launcher hkeeper
        exact taken_mono hthen (h gone launcher hkeeper)

end RemoteObjects.Proxy
