import RemoteObjects.Proofs.Proxy.Dialogue

/-!
# Building is all or nothing

The rules by which a plan finds its server are written down as relations between what is asked and
what comes of it, one rule for each way that things may go.  Every dialogue of `build` follows one
of them, and a build that fails leaves neither a creation nor a launched server behind.
-/

namespace RemoteObjects.Proxy

variable {κ ℓ : Type}

namespace Plan

/-- Whether a configuration is that of the plan, but that the type of the object is listed: as the
last one, unless the plan lists it already. -/
structure ServerConfig (plan : Plan ℓ) (config : LaunchConfig) : Prop where
  listed : plan.methods.typeName ∈ config.objectTypes
  types : config.objectTypes = plan.launchConfig.objectTypes ∨
    plan.methods.typeName ∉ plan.launchConfig.objectTypes ∧
      config.objectTypes = plan.launchConfig.objectTypes ++ [plan.methods.typeName]
  others : { config with objectTypes := plan.launchConfig.objectTypes } = plan.launchConfig

/-- Whether the object exists already, but its server or its identifier is not given. -/
def Incomplete (plan : Plan ℓ) : Prop :=
  plan.attachedOnly = true ∧ (plan.addr = none ∨ plan.objectId = none)

/-- What is asked of the pool and of the server it names when no discovered server is used. -/
inductive Undiscovered (plan : Plan ℓ) : List (Exchange κ ℓ) → Prop where
  | notSought (h : plan.discovery = false) : Undiscovered plan []
  | noneFree (h : plan.discovery = true) : Undiscovered plan [⟨.discover, none⟩]
  | dead (h : plan.discovery = true) (addr : ServerAddr) (link : κ) :
      Undiscovered plan
        [⟨.discover, some addr⟩, ⟨.connect addr, link⟩, ⟨.reachable link, false⟩]

/-- The ways to find a server: what is asked, and what is found. -/
inductive Resolution (plan : Plan ℓ) :
    List (Exchange κ ℓ) → Except Error (Resolved κ ℓ) → Prop where
  /-- For a new object the given server is not probed. -/
  | given {addr : ServerAddr} (haddr : plan.addr = some addr) (hnew : plan.attachedOnly = false)
      (link : κ) : Resolution plan [⟨.connect addr, link⟩] (.ok ⟨addr, link, none⟩)
  | alive {addr : ServerAddr} (haddr : plan.addr = some addr) (hold : plan.attachedOnly = true)
      (link : κ) :
      Resolution plan [⟨.connect addr, link⟩, ⟨.reachable link, true⟩] (.ok ⟨addr, link, none⟩)
  | unreachable {addr : ServerAddr} (haddr : plan.addr = some addr)
      (hold : plan.attachedOnly = true) (link : κ) :
      Resolution plan [⟨.connect addr, link⟩, ⟨.reachable link, false⟩]
        (.error (.unreachableServer addr))
  | discovered (haddr : plan.addr = none) (hsought : plan.discovery = true) (addr : ServerAddr)
      (link : κ) :
      Resolution plan [⟨.discover, some addr⟩, ⟨.connect addr, link⟩, ⟨.reachable link, true⟩]
        (.ok ⟨addr, link, none⟩)
  | noServer (haddr : plan.addr = none) (hlauncher : plan.launcher = none)
      {asked : List (Exchange κ ℓ)} (hasked : Undiscovered plan asked) :
      Resolution plan asked (.error .noServer)
  | launchFailed (haddr : plan.addr = none) {launcher : ℓ}
      (hlauncher : plan.launcher = some launcher) {asked : List (Exchange κ ℓ)}
      (hasked : Undiscovered plan asked) {config : LaunchConfig}
      (hconfig : plan.ServerConfig config) (e : Launch.Error) :
      Resolution plan (asked ++ [⟨.launch launcher config, .error e⟩]) (.error (.launch e))
  | launched (haddr : plan.addr = none) {launcher : ℓ} (hlauncher : plan.launcher = some launcher)
      {asked : List (Exchange κ ℓ)} (hasked : Undiscovered plan asked) {config : LaunchConfig}
      (hconfig : plan.ServerConfig config) (port : UInt16) (link : κ) :
      Resolution plan
        (asked ++ [⟨.launch launcher config, .ok port⟩,
          ⟨.connect ⟨plan.launchConfig.host, port⟩, link⟩])
        (.ok ⟨⟨plan.launchConfig.host, port⟩, link, some launcher⟩)

inductive Naming (plan : Plan ℓ) : List (Exchange κ ℓ) → ObjectId → Prop where
  | given {objectId : ObjectId} (h : plan.objectId = some objectId) : Naming plan [] objectId
  | drawn (h : plan.objectId = none) (objectId : ObjectId) :
      Naming plan [⟨.freshId, objectId⟩] objectId

inductive Starting (plan : Plan ℓ) (c : Creation κ) :
    List (Exchange κ ℓ) → Option Nat → Prop where
  | existing (h : plan.attachedOnly = true) : Starting plan c [] none
  | started (h : plan.attachedOnly = false) (creation : Nat) :
      Starting plan c [⟨.start c, creation⟩] (some creation)

/-- All that is asked to build a proxy with encoded constructor arguments, and what is built. -/
inductive Building (plan : Plan ℓ) (args : ByteArray) :
    List (Exchange κ ℓ) → Except Error (Proxy κ ℓ) → Prop where
  | failed {asked : List (Exchange κ ℓ)} {e : Error} (h : Resolution plan asked (.error e)) :
      Building plan args asked (.error e)
  | built {asked named started : List (Exchange κ ℓ)} {found : Resolved κ ℓ} {objectId : ObjectId}
      {creation : Option Nat} (h : Resolution plan asked (.ok found))
      (hname : Naming plan named objectId)
      (hstart :
        Starting plan ⟨found.link, plan.methods.typeName, args, objectId⟩ started creation) :
      Building plan args (asked ++ named ++ started)
        (.ok ⟨plan.methods, objectId, found.addr, found.link, plan.codec, creation,
          plan.attachedOnly, found.launcher⟩)

end Plan

open Dialogue Plan

/-! ## Each step follows the rules -/

theorem serverConfig_withObjectType (plan : Plan ℓ) :
    plan.ServerConfig (plan.launchConfig.withObjectType plan.methods.typeName) := by
  unfold LaunchConfig.withObjectType
  split
  · next hlisted => exact ⟨hlisted, .inl rfl, rfl⟩
  · next hnew => exact ⟨List.mem_append_right _ (.head _), .inr ⟨hnew, rfl⟩, rfl⟩

theorem Plan.ServerConfig.host_eq {plan : Plan ℓ} {config : LaunchConfig}
    (h : plan.ServerConfig config) : config.host = plan.launchConfig.host := by
  have hhost := congrArg LaunchConfig.host h.others
  exact hhost

theorem discovered_always (plan : Plan ℓ) (hsought : plan.discovery = true) :
    (discovered (surroundings : Surroundings (Dialogue κ ℓ) κ ℓ)).Always fun said found ↦
      (found = none ∧ plan.Undiscovered (contacts said)) ∨
        ∃ addr link, found = some ⟨addr, link, none⟩ ∧
          contacts said =
            [⟨.discover, some addr⟩, ⟨.connect addr, link⟩, ⟨.reachable link, true⟩] := by
  intro candidate
  cases candidate with
  | none => exact .inl ⟨rfl, .noneFree hsought⟩
  | some addr =>
      intro link isAlive
      cases isAlive with
      | false => exact fun _ ↦ .inl ⟨rfl, .dead hsought addr link⟩
      | true => exact fun _ ↦ .inr ⟨addr, link, rfl, rfl⟩

theorem launched_always (plan : Plan ℓ) (haddr : plan.addr = none)
    {asked : List (Exchange κ ℓ)} (hasked : plan.Undiscovered asked) :
    (launched (surroundings : Surroundings (Dialogue κ ℓ) κ ℓ) plan).Always fun said found ↦
      plan.Resolution (asked ++ contacts said) found := by
  unfold launched
  cases hlauncher : plan.launcher with
  | none => simpa [Always] using Resolution.noServer haddr hlauncher hasked
  | some launcher =>
      have hconfig := serverConfig_withObjectType plan
      intro answer
      cases answer with
      | error e => exact Resolution.launchFailed haddr hlauncher hasked hconfig e
      | ok port =>
          intro _ link
          have h := Resolution.launched haddr hlauncher hasked hconfig port link
          rw [← hconfig.host_eq] at h
          exact h

theorem resolve_always (plan : Plan ℓ) :
    (resolve (surroundings : Surroundings (Dialogue κ ℓ) κ ℓ) plan).Always fun said found ↦
      plan.Resolution (contacts said) found := by
  unfold resolve
  cases haddr : plan.addr with
  | some addr =>
      intro link
      cases hatt : plan.attachedOnly with
      | false => exact fun _ ↦ .given haddr hatt link
      | true =>
          intro isAlive
          cases isAlive with
          | false => exact .unreachable haddr hatt link
          | true => exact fun _ ↦ .alive haddr hatt link
  | none =>
      cases hsought : plan.discovery with
      | false => exact launched_always plan haddr (.notSought hsought)
      | true =>
          refine Always.bind ((discovered_always plan hsought).mono fun said found h ↦ ?_)
          rcases h with ⟨rfl, hasked⟩ | ⟨addr, link, rfl, hsaid⟩
          · exact (launched_always plan haddr hasked).mono fun more _ hmore ↦ by
              rwa [contacts_append]
          · simpa [Always, hsaid] using Resolution.discovered haddr hsought addr link

/-- Naming and starting come after the server is found, and neither can fail. -/
theorem build_always (plan : Plan ℓ) {args : ByteArray} (hargs : plan.encodedArgs = .ok args) :
    (build (surroundings : Surroundings (Dialogue κ ℓ) κ ℓ) plan).Always fun said r ↦
      plan.Building args (contacts said) r := by
  unfold build
  simp only [hargs]
  refine Always.bind ((resolve_always plan).mono fun said found hfound ↦ ?_)
  cases found with
  | error e => simpa [Always] using Building.failed hfound
  | ok found =>
      have hbuilt {named started : List (Exchange κ ℓ)} {objectId : ObjectId}
          {creation : Option Nat} (hname : plan.Naming named objectId)
          (hstart : plan.Starting ⟨found.link, plan.methods.typeName, args, objectId⟩ started
            creation) :=
        Building.built hfound hname hstart
      cases hid : plan.objectId with
      | some objectId =>
          cases hatt : plan.attachedOnly with
          | true => simpa [Always, hatt] using hbuilt (.given hid) (.existing hatt)
          | false =>
              intro _ creation
              simpa [Always, Dialogue.bind, contacts_cons, Exchange.isReport, hatt] using
                hbuilt (.given hid) (.started hatt creation)
      | none =>
          intro objectId
          cases hatt : plan.attachedOnly with
          | true =>
              simpa [Always, Dialogue.bind, contacts_cons, Exchange.isReport, hatt] using
                hbuilt (.drawn hid objectId) (.existing hatt)
          | false =>
              intro _ creation
              simpa [Always, Dialogue.bind, contacts_cons, Exchange.isReport, hatt] using
                hbuilt (.drawn hid objectId) (.started hatt creation)

/-! ## Plans that ask for nothing -/

theorem encodedArgs_incomplete {plan : Plan ℓ} (h : plan.Incomplete) :
    ∃ reason, plan.encodedArgs = .error (.config reason) := by
  obtain ⟨hatt, hmissing⟩ := h
  simp only [encodedArgs, hatt, if_true]
  split
  · exact ⟨_, rfl⟩
  · next haddr =>
      have hid : plan.objectId = none := hmissing.resolve_left (by simpa using haddr)
      exact ⟨_, by rw [hid]; rfl⟩

theorem encodedArgs_existing {plan : Plan ℓ} (hatt : plan.attachedOnly = true)
    (h : ¬plan.Incomplete) : plan.encodedArgs = .ok .empty := by
  have haddr : plan.addr ≠ none := fun haddr ↦ h ⟨hatt, .inl haddr⟩
  have hid : plan.objectId ≠ none := fun hid ↦ h ⟨hatt, .inr hid⟩
  simp [encodedArgs, hatt, haddr, hid]

theorem encodedArgs_new {plan : Plan ℓ} (hnew : plan.attachedOnly = false) :
    plan.encodedArgs = (plan.codec.encodeArgs plan.args).mapError .codec := by
  simp [encodedArgs, hnew]

theorem run_build_error {plan : Plan ℓ} {e : Error} (h : plan.encodedArgs = .error e)
    (answers : Answers κ ℓ) :
    (build surroundings plan).run answers [] = (.ok (.error e), []) := by
  simp [build, h, run]

theorem building_of_run {plan : Plan ℓ} {answers : Answers κ ℓ} {p : Proxy κ ℓ}
    {said : List (Exchange κ ℓ)}
    (hbuild : (build surroundings plan).run answers [] = (.ok (.ok p), said)) :
    ∃ args, plan.encodedArgs = .ok args ∧ plan.Building args (contacts said) (.ok p) := by
  cases hargs : plan.encodedArgs with
  | error e =>
      rw [run_build_error hargs answers] at hbuild
      cases hbuild
  | ok args =>
      obtain ⟨r, said', hrun, hbuilding⟩ := (build_always plan hargs).run answers []
      cases hbuild.symm.trans hrun
      exact ⟨args, rfl, hbuilding⟩

/-! ## What a failed build leaves behind -/

namespace Exchange

def launches : Exchange κ ℓ → Bool
  | ⟨.launch _ _, .ok _⟩ => true
  | _ => false

def creates (e : Exchange κ ℓ) : Bool :=
  match e.query with
  | .start _ | .create _ _ _ _ => true
  | _ => false

/-- Nothing comes of the exchange that would have to be undone. -/
def Harmless (e : Exchange κ ℓ) : Prop := e.creates = false ∧ e.launches = false

theorem harmless_of_isReport {e : Exchange κ ℓ} (h : e.isReport = true) : e.Harmless := by
  obtain ⟨query, answer⟩ := e
  cases query <;> first | exact ⟨rfl, rfl⟩ | cases h

end Exchange

theorem Plan.Undiscovered.harmless {plan : Plan ℓ} {asked : List (Exchange κ ℓ)}
    (h : plan.Undiscovered asked) : ∀ x ∈ asked, x.Harmless := by
  cases h <;> simp [Exchange.Harmless, Exchange.creates, Exchange.launches]

theorem Plan.Resolution.harmless {plan : Plan ℓ} {asked : List (Exchange κ ℓ)} {e : Error}
    (h : plan.Resolution asked (.error e)) : ∀ x ∈ asked, x.Harmless := by
  cases h with
  | unreachable haddr hold link =>
      simp [Exchange.Harmless, Exchange.creates, Exchange.launches]
  | noServer haddr hlauncher hasked => exact hasked.harmless
  | launchFailed haddr hlauncher hasked hconfig e =>
      simp only [List.mem_append, List.mem_singleton]
      rintro x (hx | rfl)
      · exact hasked.harmless x hx
      · exact ⟨rfl, rfl⟩

theorem Plan.Building.harmless {plan : Plan ℓ} {args : ByteArray} {said : List (Exchange κ ℓ)}
    {e : Error} (h : plan.Building args (contacts said) (.error e)) :
    ∀ x ∈ said, x.Harmless := by
  generalize hasked : contacts said = asked at h
  obtain hfailed | _ := h
  subst hasked
  intro x hx
  cases hreport : x.isReport with
  | true => exact Exchange.harmless_of_isReport hreport
  | false => exact hfailed.harmless x (mem_contacts.mpr ⟨hx, hreport⟩)

/-! ## What a build asks for -/

/-- Whether a query serves to find or to launch a server. -/
def Query.seeks : Query κ ℓ → Bool
  | .connect _ | .reachable _ | .discover | .launch _ _ => true
  | _ => false

/-- The creation that a new proxy starts, and its number. -/
def onset? (p : Proxy κ ℓ) (args : ByteArray) : Option (Nat × Creation κ) :=
  p.creation.map (·, ⟨p.link, p.objectType, args, p.objectId⟩)

theorem Plan.Resolution.seeks {plan : Plan ℓ} {asked : List (Exchange κ ℓ)}
    {r : Except Error (Resolved κ ℓ)} (h : plan.Resolution asked r) :
    ∀ x ∈ asked, x.query.seeks = true := by
  have hundiscovered {asked : List (Exchange κ ℓ)} (h : plan.Undiscovered asked) :
      ∀ x ∈ asked, x.query.seeks = true := by
    cases h <;> simp [Query.seeks]
  cases h with
  | noServer haddr hlauncher hasked => exact hundiscovered hasked
  | launchFailed haddr hlauncher hasked hconfig e =>
      simpa [or_imp, forall_and, Query.seeks] using hundiscovered hasked
  | launched haddr hlauncher hasked hconfig port link =>
      simpa [or_imp, forall_and, Query.seeks] using hundiscovered hasked
  | _ => simp [Query.seeks]

/-- The only thing that a build sets going besides a server is the one creation. -/
theorem Plan.Building.asks {plan : Plan ℓ} {args : ByteArray} {said : List (Exchange κ ℓ)}
    {p : Proxy κ ℓ} (h : plan.Building args (contacts said) (.ok p)) {e : Exchange κ ℓ}
    (he : e ∈ said) :
    e.isReport = true ∨ e.query.seeks = true ∨ e.query = .freshId ∨
      ∃ creation c, p.onset? args = some (creation, c) ∧ e = ⟨.start c, creation⟩ := by
  cases hreport : e.isReport with
  | true => exact .inl rfl
  | false =>
      have hsaid := mem_contacts.mpr ⟨he, hreport⟩
      generalize hasked : contacts said = asked at h hsaid
      cases h with
      | built hfound hname hstart =>
          simp only [List.mem_append] at hsaid
          rcases hsaid with (hsaid | hsaid) | hsaid
          · exact .inr (.inl (hfound.seeks e hsaid))
          · cases hname with
            | given hid => cases hsaid
            | drawn hid objectId =>
                rw [List.mem_singleton.mp hsaid]
                exact .inr (.inr (.inl rfl))
          · cases hstart with
            | existing hatt => cases hsaid
            | started hatt creation =>
                exact .inr (.inr (.inr ⟨creation, _, rfl, List.mem_singleton.mp hsaid⟩))

/-- Building follows the rules of resolution, and is all or nothing.  A plan that makes no sense and
arguments that cannot be encoded are refused before anything is asked; in all other cases the rules
say what is asked, in which order, and what comes of it.  A build that fails has created nothing and
launched nothing. -/
theorem build_all_or_nothing (plan : Plan ℓ) (answers : Answers κ ℓ) :
    ∃ (r : Except Error (Proxy κ ℓ)) (said : List (Exchange κ ℓ)),
      (build surroundings plan).run answers [] = (.ok r, said) ∧
      (plan.Incomplete → (∃ reason, r = .error (.config reason)) ∧ said = []) ∧
      (∀ e, plan.attachedOnly = false → plan.codec.encodeArgs plan.args = .error e →
        r = .error (.codec e) ∧ said = []) ∧
      (plan.attachedOnly = true → ¬plan.Incomplete → plan.Building .empty (contacts said) r) ∧
      (∀ args, plan.attachedOnly = false → plan.codec.encodeArgs plan.args = .ok args →
        plan.Building args (contacts said) r) ∧
      (∀ e, r = .error e → ∀ x ∈ said, x.creates = false ∧ x.launches = false) := by
  cases hargs : plan.encodedArgs with
  | error e =>
      refine ⟨.error e, [], run_build_error hargs answers, fun h ↦ ?_, fun e' hnew he ↦ ?_,
        fun hatt h ↦ ?_, fun args hnew he ↦ ?_, by simp⟩
      · obtain ⟨reason, hreason⟩ := encodedArgs_incomplete h
        exact ⟨⟨reason, by simp_all⟩, rfl⟩
      · rw [encodedArgs_new hnew, he] at hargs
        cases hargs
        exact ⟨rfl, rfl⟩
      · rw [encodedArgs_existing hatt h] at hargs
        cases hargs
      · rw [encodedArgs_new hnew, he] at hargs
        cases hargs
  | ok args =>
      obtain ⟨r, said, hrun, hbuilding⟩ := (build_always plan hargs).run answers []
      refine ⟨r, said, hrun, fun h ↦ ?_, fun e hnew he ↦ ?_, fun hatt h ↦ ?_,
        fun args' hnew he ↦ ?_, ?_⟩
      · obtain ⟨reason, hreason⟩ := encodedArgs_incomplete h
        rw [hreason] at hargs
        cases hargs
      · rw [encodedArgs_new hnew, he] at hargs
        cases hargs
      · rw [encodedArgs_existing hatt h] at hargs
        cases hargs
        exact hbuilding
      · rw [encodedArgs_new hnew, he] at hargs
        cases hargs
        exact hbuilding
      · rintro e rfl
        exact hbuilding.harmless

end RemoteObjects.Proxy
