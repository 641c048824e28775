import RemoteObjects.Proofs.Proxy.Hosting

/-!
# Location transparency

Whoever holds a proxy may copy it, take methods from it, and make other proxies from its descriptor.
All calls through any of them are answered as the object itself would answer them, one after the
other, and leave the object in the same state.
-/

namespace RemoteObjects.Proxy

variable {σ ℓ : Type}

/-! ## The object itself -/

structure Call where
  method : String
  args : CallArgs

namespace Semantics

variable (sem : Semantics σ) (table : MethodTable)

/-- What a call means to the object where it is; it has no methods but those in the table. -/
def answer (s : σ) (call : Call) : Except Error Json.Value × σ :=
  if table.contains call.method then
    let (outcome, s) := sem.step s call.method call.args
    (outcome.mapError .remote, s)
  else (.error (.invalidMethod table.typeName call.method), s)

def run (s : σ) : List Call → List (Except Error Json.Value) × σ
  | [] => ([], s)
  | call :: calls =>
    let (result, s) := sem.answer table s call
    let (results, s) := run s calls
    (result :: results, s)

/-- Whether everything that the calls would send may be sent. -/
def Sends (s : σ) : List Call → Prop
  | [] => True
  | call :: calls =>
    (table.contains call.method = true →
      call.args.Sendable ∧ (sem.step s call.method call.args).1.Sendable) ∧
    Sends (sem.answer table s call).2 calls

theorem run_append (s : σ) (calls more : List Call) :
    sem.run table s (calls ++ more) =
      ((sem.run table s calls).1 ++ (sem.run table (sem.run table s calls).2 more).1,
        (sem.run table (sem.run table s calls).2 more).2) := by
  induction calls generalizing s with
  | nil => rfl
  | cons call calls ih => simp only [List.cons_append, run, ih]

theorem sends_append (s : σ) (calls more : List Call) :
    sem.Sends table s (calls ++ more) ↔
      sem.Sends table s calls ∧ sem.Sends table (sem.run table s calls).2 more := by
  induction calls generalizing s with
  | nil => simp [Sends, run]
  | cons call calls ih => simp only [List.cons_append, Sends, run, ih, and_assoc]

end Semantics

/-! ## Moves -/

/-- What is done with the proxies and methods in somebody's hands, each known by its position. -/
inductive Move where
  /-- The creation happens to be carried out. -/
  | background (i : Nat)
  | copy (i : Nat)
  | take (i : Nat) (method : String)
  /-- A proxy is made from the descriptor of another as soon as the object is there. -/
  | revive (i : Nat)
  | invoke (i : Nat) (call : Call)
  | call (i : Nat) (args : CallArgs)

/-- The name of the method that is held; none if it is a proxy. -/
def Holder.name? : Holder ServerAddr ℓ → Option String
  | .proxy _ => none
  | .method f => some f.name

namespace Move

/-- What is in the hands after a move, and what the calls that it makes come to. -/
def play (setting : Setting σ) (hands : List (Holder ServerAddr ℓ)) :
    Move → Hosted σ (List (Holder ServerAddr ℓ) × List (Except Error Json.Value))
  | background i =>
    match hands[i]?.bind (·.held.creation) with
    | none => return (hands, [])
    | some creation => do
      let _ ← setting.carryOut creation
      return (hands, [])
  | copy i => return (hands ++ (hands[i]?.map Holder.copy).toList, [])
  | take i method =>
    match hands[i]? with
    | some (.proxy p) =>
      match p.method method with
      | .ok f => return (hands ++ [.method f], [])
      | .error e => return (hands, [.error e])
    | _ => return (hands, [])
  | revive i =>
    match hands[i]? with
    | some (.proxy p) => do
      match ← p.waitReady (setting.surroundings ℓ) with
      | .error e => return (hands, [.error e])
      | .ok () =>
        match ← rehydrate (setting.surroundings ℓ) p.methods p.descriptor p.codec with
        | .error e => return (hands, [.error e])
        | .ok q => return (hands ++ [.proxy q], [])
    | _ => return (hands, [])
  | invoke i c =>
    match hands[i]? with
    | some (.proxy p) => do
      return (hands, [← p.invoke (setting.surroundings ℓ) c.method c.args])
    | _ => return (hands, [])
  | call i args =>
    match hands[i]? with
    | some (.method f) => do return (hands, [← f.call (setting.surroundings ℓ) args])
    | _ => return (hands, [])

/-- What a move makes of hands that hold methods of these names and proxies, and which calls it
makes.  To ask for a method that is not in the table is as good as to call it. -/
def asks (table : MethodTable) (names : List (Option String)) :
    Move → List (Option String) × List Call
  | background _ => (names, [])
  | copy i => (names ++ names[i]?.toList, [])
  | take i method =>
    match names[i]? with
    | some none =>
      if table.contains method then (names ++ [some method], []) else (names, [⟨method, .empty⟩])
    | _ => (names, [])
  | revive i =>
    match names[i]? with
    | some none => (names ++ [none], [])
    | _ => (names, [])
  | invoke i c =>
    match names[i]? with
    | some none => (names, [c])
    | _ => (names, [])
  | call i args =>
    match names[i]? with
    | some (some method) => (names, [⟨method, args⟩])
    | _ => (names, [])

end Move

def play (setting : Setting σ) (hands : List (Holder ServerAddr ℓ)) :
    List Move → Hosted σ (List (Holder ServerAddr ℓ) × List (Except Error Json.Value))
  | [] => return (hands, [])
  | move :: moves => do
    let (hands, results) ← move.play setting hands
    let (hands, more) ← play setting hands moves
    return (hands, results ++ more)

def asks (table : MethodTable) (names : List (Option String)) :
    List Move → List (Option String) × List Call
  | [] => (names, [])
  | move :: moves =>
    let (names, calls) := move.asks table names
    let (names, more) := asks table names moves
    (names, calls ++ more)

/-! ## The object on its server -/

/-- How an object comes to be on a server, and which objects are there before it. -/
structure Birth (σ : Type) where
  setting : Setting σ
  table : MethodTable
  addr : ServerAddr
  objectId : ObjectId
  args : CallArgs
  sendable : args.Sendable
  creation : Nat
  before : Objects σ

namespace Birth

variable (b : Birth σ)

def order : Creation ServerAddr :=
  ⟨b.addr, b.table.typeName, Wire.encodeTree b.args.tree, b.objectId⟩

def Done (site : Site σ) : Prop :=
  ∃ c, site.creations[b.creation]? = some (c, some (.finished (.ok ())))

structure There (s : σ) (site : Site σ) : Prop where
  done : b.Done site
  objects_eq : site.objects = b.before.set b.addr b.objectId s

/-- Whether the object is on its server, in this state, or will be once its creation is carried
out. -/
inductive Stands : σ → Site σ → Prop where
  | pending {site : Site σ} (hcreation : site.creations[b.creation]? = some (b.order, none))
      (hobjects : site.objects = b.before) : Stands (b.setting.sem.init b.args) site
  | there {s : σ} {site : Site σ} (h : b.There s site) : Stands s site

/-- Whether a proxy stands for the object; one without a creation needs the object to be there. -/
structure Serves (site : Site σ) (p : Proxy ServerAddr ℓ) : Prop where
  methods_eq : p.methods = b.table
  objectId_eq : p.objectId = b.objectId
  addr_eq : p.addr = b.addr
  link_eq : p.link = b.addr
  codec_eq : p.codec = .json
  creation_eq : p.creation = some b.creation ∨ p.creation = none ∧ b.Done site

variable {b} {s : σ} {site site' : Site σ} {p : Proxy ServerAddr ℓ}

theorem Serves.mono (h : b.Serves site p) (hdone : b.Done site → b.Done site') :
    b.Serves site' p :=
  { h with creation_eq := h.creation_eq.imp_right (And.imp_right hdone) }

theorem Stands.there_or (h : b.Stands s site) :
    b.There s site ∨ site.objects = b.before ∧ ¬b.Done site := by
  cases h with
  | there h => exact .inl h
  | pending hcreation hobjects =>
      refine .inr ⟨hobjects, ?_⟩
      rintro ⟨c, hc⟩
      cases hcreation.symm.trans hc

theorem Stands.there_of_done (h : b.Stands s site) (hdone : b.Done site) : b.There s site :=
  h.there_or.resolve_right fun hpending ↦ hpending.2 hdone

theorem carryOut_runs (h : b.Stands s site) :
    ∃ site', Runs (b.setting.carryOut b.creation) site (.finished (.ok ())) site' ∧
      b.There s site' := by
  cases h with
  | there h =>
      obtain ⟨c, hc⟩ := h.done
      exact ⟨site, Setting.carryOut_settled hc, h⟩
  | pending hcreation hobjects =>
      have hlt : b.creation < site.creations.length := (List.getElem?_eq_some_iff.mp hcreation).1
      refine ⟨_, Setting.carryOut_pending b.sendable hcreation, ?_, ?_⟩
      · exact ⟨b.order, List.getElem?_set_self hlt⟩
      · rw [← hobjects]

theorem waitReady_runs (hp : b.Serves site p) (h : b.Stands s site) :
    ∃ site', Runs (p.waitReady (b.setting.surroundings ℓ)) site (.ok ()) site' ∧
      b.There s site' := by
  unfold waitReady
  rcases hp.creation_eq with hcreation | ⟨hcreation, hdone⟩
  · obtain ⟨there, hthere, h⟩ := carryOut_runs h
    rw [hcreation]
    exact ⟨_, hthere.bind (Setting.look_runs p b.creation there), h.done, h.objects_eq⟩
  · rw [hcreation]
    exact ⟨site, Runs.pure _ _, h.there_of_done hdone⟩

theorem invoke_runs_of_private (hp : b.Serves site p) {method : String}
    (hmethod : b.table.contains method = false) (args : CallArgs) (site' : Site σ) :
    Runs (p.invoke (b.setting.surroundings ℓ) method args) site'
      (.error (.invalidMethod b.table.typeName method)) site' := by
  simp only [invoke, objectType, hp.methods_eq, hmethod]
  exact Runs.pure _ _

/-- The call waits for the object, and both ends read what the other has written. -/
theorem invoke_runs_of_public {call : Call} (hp : b.Serves site p) (h : b.Stands s site)
    (hcall : b.table.contains call.method = true) (hargs : call.args.Sendable)
    (houtcome : (b.setting.sem.step s call.method call.args).1.Sendable) :
    ∃ site', Runs (p.invoke (b.setting.surroundings ℓ) call.method call.args) site
        ((b.setting.sem.step s call.method call.args).1.mapError .remote) site' ∧
      b.There (b.setting.sem.step s call.method call.args).2 site' := by
  obtain ⟨there, hready, hthere⟩ := waitReady_runs hp h
  have hobject : there.objects b.addr b.objectId = some s := by
    rw [hthere.objects_eq, Objects.set_self]
  have hreply := b.setting.call_runs b.addr call.method hargs hobject
  rw [hthere.objects_eq, Objects.set_set] at hreply
  have hresult := hreply.bind (f := fun reply ↦ pure (answerOf .json reply)) (Runs.pure _ _)
  rw [answerOf_encode houtcome] at hresult
  refine ⟨{ there with
      objects := b.before.set b.addr b.objectId (b.setting.sem.step s call.method call.args).2 },
    ?_, hthere.done, rfl⟩
  simp only [invoke, hp.methods_eq, hcall, hp.codec_eq, hp.link_eq, hp.objectId_eq]
  exact hready.bind hresult

theorem invoke_runs {call : Call} (hp : b.Serves site p) (h : b.Stands s site)
    (hsends : b.setting.sem.Sends b.table s [call]) :
    ∃ site', Runs (p.invoke (b.setting.surroundings ℓ) call.method call.args) site
        (b.setting.sem.answer b.table s call).1 site' ∧
      b.Stands (b.setting.sem.answer b.table s call).2 site' ∧
      (b.Done site ∨ b.table.contains call.method = true → b.Done site') := by
  cases hcall : b.table.contains call.method with
  | false =>
      simp only [Semantics.answer, hcall, Bool.false_eq_true, if_false, or_false]
      exact ⟨site, invoke_runs_of_private hp hcall call.args site, h, id⟩
  | true =>
      obtain ⟨hargs, houtcome⟩ := hsends.1 hcall
      obtain ⟨site', hrun, hthere⟩ := invoke_runs_of_public hp h hcall hargs houtcome
      simp only [Semantics.answer, hcall, if_true]
      exact ⟨site', hrun, .there hthere, fun _ ↦ hthere.done⟩

theorem rehydrate_runs (hp : b.Serves site p) (hdone : b.Done site) :
    ∃ q, Runs (rehydrate (b.setting.surroundings ℓ) p.methods p.descriptor p.codec) site (.ok q)
        site ∧ b.Serves site q := by
  have hq : b.Serves site (⟨p.methods, p.objectId, p.addr, p.addr, p.codec, none, true, none⟩ :
      Proxy ServerAddr ℓ) :=
    ⟨hp.methods_eq, hp.objectId_eq, hp.addr_eq, hp.addr_eq, hp.codec_eq, .inr ⟨rfl, hdone⟩⟩
  refine ⟨_, ?_, hq⟩
  simp only [rehydrate, descriptor, objectType, ne_eq, not_true_eq_false, if_false]
  exact Runs.bind rfl (Runs.pure _ _)

/-! ## What is in the hands -/

/-- Whether there are hands that hold methods of these names and proxies, all of the object. -/
structure Holds (b : Birth σ) (names : List (Option String)) (hands : List (Holder ServerAddr ℓ))
    (s : σ) (site : Site σ) : Prop where
  stands : b.Stands s site
  serves : ∀ h ∈ hands, b.Serves site h.held
  names_eq : hands.map Holder.name? = names

/-- Whether something that is done comes to what the object itself makes of calls. -/
def Mirrors (b : Birth σ)
    (x : Hosted σ (List (Holder ServerAddr ℓ) × List (Except Error Json.Value))) (s : σ)
    (site : Site σ) (names : List (Option String)) (calls : List Call) : Prop :=
  ∃ hands site',
    Runs x site (hands, (b.setting.sem.run b.table s calls).1) site' ∧
    b.Holds names hands (b.setting.sem.run b.table s calls).2 site' ∧
    (b.Done site ∨ (∃ call ∈ calls, b.table.contains call.method = true) → b.Done site')

variable {names names' : List (Option String)} {hands : List (Holder ServerAddr ℓ)}

theorem Holds.at (h : b.Holds names hands s site) (i : Nat) :
    hands[i]? = none ∧ names[i]? = none ∨
      (∃ p, hands[i]? = some (.proxy p) ∧ names[i]? = some none ∧ b.Serves site p) ∨
      ∃ f, hands[i]? = some (.method f) ∧ names[i]? = some (some f.name) ∧
        b.Serves site f.proxy := by
  have hname : names[i]? = hands[i]?.map Holder.name? := by rw [← h.names_eq, List.getElem?_map]
  rw [hname]
  cases hi : hands[i]? with
  | none => exact .inl ⟨rfl, rfl⟩
  | some holder =>
      have hserves := h.serves holder (List.mem_of_getElem? hi)
      cases holder with
      | proxy p => exact .inr (.inl ⟨p, rfl, rfl, hserves⟩)
      | method f => exact .inr (.inr ⟨f, rfl, rfl, hserves⟩)

theorem Holds.push (h : b.Holds names hands s site) {holder : Holder ServerAddr ℓ}
    (hholder : b.Serves site holder.held) :
    b.Holds (names ++ [holder.name?]) (hands ++ [holder]) s site := by
  refine ⟨h.stands, ?_, ?_⟩
  · simpa [or_imp, forall_and] using ⟨h.serves, hholder⟩
  · simp [h.names_eq]

theorem Holds.mono (h : b.Holds names hands s site) {s' : σ} (hstands : b.Stands s' site')
    (hdone : b.Done site → b.Done site') : b.Holds names hands s' site' :=
  ⟨hstands, fun holder hholder ↦ (h.serves holder hholder).mono hdone, h.names_eq⟩

theorem Mirrors.nothing (h : b.Holds names hands s site) :
    b.Mirrors (pure (hands, [])) s site names [] :=
  ⟨hands, site, Runs.pure _ _, h, by simp⟩

theorem Mirrors.bind {x : Hosted σ (List (Holder ServerAddr ℓ) × List (Except Error Json.Value))}
    {f : List (Holder ServerAddr ℓ) →
      Hosted σ (List (Holder ServerAddr ℓ) × List (Except Error Json.Value))}
    {calls more : List Call} (hx : b.Mirrors x s site names calls)
    (hf : ∀ hands site', b.Holds names hands (b.setting.sem.run b.table s calls).2 site' →
      b.Mirrors (f hands) (b.setting.sem.run b.table s calls).2 site' names' more) :
    b.Mirrors (do
        let (hands, results) ← x
        let (hands, more) ← f hands
        return (hands, results ++ more))
      s site names' (calls ++ more) := by
  obtain ⟨hands, between, hrun, hholds, hdone⟩ := hx
  obtain ⟨hands', site', hrun', hholds', hdone'⟩ := hf hands between hholds
  refine ⟨hands', site', ?_, ?_, ?_⟩
  · rw [Semantics.run_append]
    exact hrun.bind (hrun'.bind (Runs.pure _ _))
  · rw [Semantics.run_append]
    exact hholds'
  · rintro (h | ⟨call, hcall, hpublic⟩)
    · exact hdone' (.inl (hdone (.inl h)))
    · rcases List.mem_append.mp hcall with hcall | hcall
      · exact hdone' (.inl (hdone (.inr ⟨call, hcall, hpublic⟩)))
      · exact hdone' (.inr ⟨call, hcall, hpublic⟩)

theorem Mirrors.refused (h : b.Holds names hands s site) (call : Call)
    (hcall : b.table.contains call.method = false) :
    b.Mirrors (pure (hands, [.error (.invalidMethod b.table.typeName call.method)])) s site names
      [call] := by
  have hrun : b.setting.sem.run b.table s [call] =
      ([.error (.invalidMethod b.table.typeName call.method)], s) := by
    simp [Semantics.run, Semantics.answer, hcall]
  refine ⟨hands, site, ?_, ?_, by simp [hcall]⟩
  · rw [hrun]
    exact Runs.pure _ _
  · rwa [hrun]

theorem Mirrors.invoke (h : b.Holds names hands s site) (hp : b.Serves site p) {call : Call}
    (hsends : b.setting.sem.Sends b.table s [call]) :
    b.Mirrors (do return (hands, [← p.invoke (b.setting.surroundings ℓ) call.method call.args]))
      s site names [call] := by
  obtain ⟨site', hrun, hstands, hdone⟩ := invoke_runs hp h.stands hsends
  refine ⟨hands, site', hrun.bind (Runs.pure _ _), h.mono hstands (hdone ∘ .inl), ?_⟩
  simpa using hdone

def ofPlan (setting : Setting σ) (plan : Plan ℓ) (server : Resolved ServerAddr ℓ) (site : Site σ)
    (hargs : plan.args.Sendable) : Birth σ where
  setting := setting
  table := plan.methods
  addr := server.addr
  objectId := plan.objectId.getD setting.freshId
  args := plan.args
  sendable := hargs
  creation := site.creations.length
  before := site.objects

theorem holds_newborn {setting : Setting σ} {plan : Plan ℓ} {server : Resolved ServerAddr ℓ}
    (hfound : setting.found plan = .ok server) (hcodec : plan.codec = .json)
    (hargs : plan.args.Sendable) (site : Site σ) :
    (ofPlan setting plan server site hargs).Holds [none]
      [.proxy (setting.newborn plan server site.creations.length)] (setting.sem.init plan.args)
      { site with creations := site.creations ++ [(⟨server.link, plan.methods.typeName,
        Wire.encodeTree plan.args.tree, plan.objectId.getD setting.freshId⟩, none)] } := by
  have hlink := Setting.found_link hfound
  refine ⟨.pending ?_ rfl, ?_, rfl⟩
  · rw [hlink]
    exact List.getElem?_concat_length
  · intro holder hholder
    rw [List.mem_singleton.mp hholder]
    exact ⟨rfl, rfl, rfl, hlink, hcodec, .inl rfl⟩

/-! ## Every move comes to what its calls come to -/

theorem mirrors_background (h : b.Holds names hands s site) (i : Nat) :
    b.Mirrors (Move.play b.setting hands (.background i)) s site names [] := by
  simp only [Move.play]
  cases hcreation : hands[i]?.bind (·.held.creation) with
  | none => exact .nothing h
  | some creation =>
      obtain ⟨holder, hi, hholder⟩ := Option.bind_eq_some_iff.mp hcreation
      obtain ⟨there, hrun, hthere⟩ := carryOut_runs h.stands
      have hserves := h.serves holder (List.mem_of_getElem? hi)
      have heq : creation = b.creation := by
        rcases hserves.creation_eq with hc | ⟨hc, -⟩
        · exact Option.some.inj (hholder.symm.trans hc)
        · cases hholder.symm.trans hc
      subst heq
      exact ⟨hands, there, hrun.bind (Runs.pure _ _),
        h.mono (.there hthere) fun _ ↦ hthere.done, fun _ ↦ hthere.done⟩

theorem mirrors_copy (h : b.Holds names hands s site) (i : Nat) :
    b.Mirrors (Move.play b.setting hands (.copy i)) s site (names ++ names[i]?.toList) [] := by
  simp only [Move.play]
  rcases h.at i with ⟨hi, hname⟩ | ⟨p, hi, hname, hp⟩ | ⟨f, hi, hname, hf⟩
  · rw [hi, hname]
    simpa using Mirrors.nothing h
  · have hclone : b.Serves site (Holder.proxy p.clone).held := { hp with }
    rw [hi, hname]
    exact .nothing (h.push hclone)
  · have hsame : b.Serves site (Holder.method f).held := hf
    rw [hi, hname]
    exact .nothing (h.push hsame)

theorem mirrors_take (h : b.Holds names hands s site) (i : Nat) (method : String) :
    b.Mirrors (Move.play b.setting hands (.take i method)) s site
      ((Move.take i method).asks b.table names).1 ((Move.take i method).asks b.table names).2 := by
  simp only [Move.play, Move.asks]
  rcases h.at i with ⟨hi, hname⟩ | ⟨p, hi, hname, hp⟩ | ⟨f, hi, hname, -⟩
  · rw [hi, hname]
    exact .nothing h
  · rw [hi, hname]
    simp only [Proxy.method, objectType, hp.methods_eq]
    cases hpublic : b.table.contains method with
    | true =>
        have htaken : b.Serves site (Holder.method ⟨p, method⟩).held := hp
        exact .nothing (h.push htaken)
    | false => exact .refused h ⟨method, .empty⟩ hpublic
  · rw [hi, hname]
    exact .nothing h

theorem mirrors_revive (h : b.Holds names hands s site) (i : Nat) :
    b.Mirrors (Move.play b.setting hands (.revive i)) s site
      ((Move.revive i).asks b.table names).1 ((Move.revive i).asks b.table names).2 := by
  simp only [Move.play, Move.asks]
  rcases h.at i with ⟨hi, hname⟩ | ⟨p, hi, hname, hp⟩ | ⟨f, hi, hname, -⟩
  · rw [hi, hname]
    exact .nothing h
  · obtain ⟨there, hready, hthere⟩ := waitReady_runs hp h.stands
    have hp := hp.mono fun _ ↦ hthere.done
    obtain ⟨q, hrehydrate, hq⟩ := rehydrate_runs hp hthere.done
    have hholds := h.mono (.there hthere) fun _ ↦ hthere.done
    have hrevived : b.Serves there (Holder.proxy q).held := hq
    rw [hi, hname]
    exact ⟨_, there, hready.bind (hrehydrate.bind (Runs.pure _ _)), hholds.push hrevived,
      fun _ ↦ hthere.done⟩
  · rw [hi, hname]
    exact .nothing h

theorem mirrors_invoke (h : b.Holds names hands s site) (i : Nat) (call : Call)
    (hsends : b.setting.sem.Sends b.table s ((Move.invoke i call).asks b.table names).2) :
    b.Mirrors (Move.play b.setting hands (.invoke i call)) s site
      ((Move.invoke i call).asks b.table names).1 ((Move.invoke i call).asks b.table names).2 := by
  simp only [Move.play, Move.asks] at hsends ⊢
  rcases h.at i with ⟨hi, hname⟩ | ⟨p, hi, hname, hp⟩ | ⟨f, hi, hname, -⟩
  · rw [hi, hname]
    exact .nothing h
  · rw [hname] at hsends
    rw [hi, hname]
    exact .invoke h hp hsends
  · rw [hi, hname]
    exact .nothing h

theorem mirrors_call (h : b.Holds names hands s site) (i : Nat) (args : CallArgs)
    (hsends : b.setting.sem.Sends b.table s ((Move.call i args).asks b.table names).2) :
    b.Mirrors (Move.play b.setting hands (.call i args)) s site
      ((Move.call i args).asks b.table names).1 ((Move.call i args).asks b.table names).2 := by
  simp only [Move.play, Move.asks] at hsends ⊢
  rcases h.at i with ⟨hi, hname⟩ | ⟨p, hi, hname, -⟩ | ⟨f, hi, hname, hf⟩
  · rw [hi, hname]
    exact .nothing h
  · rw [hi, hname]
    exact .nothing h
  · rw [hname] at hsends
    rw [hi, hname]
    exact .invoke h hf hsends

theorem mirrors_move (h : b.Holds names hands s site) (move : Move)
    (hsends : b.setting.sem.Sends b.table s (move.asks b.table names).2) :
    b.Mirrors (move.play b.setting hands) s site
      (move.asks b.table names).1 (move.asks b.table names).2 := by
  cases move with
  | background i => exact mirrors_background h i
  | copy i => exact mirrors_copy h i
  | take i method => exact mirrors_take h i method
  | revive i => exact mirrors_revive h i
  | invoke i call => exact mirrors_invoke h i call hsends
  | call i args => exact mirrors_call h i args hsends

theorem mirrors_play (h : b.Holds names hands s site) (moves : List Move)
    (hsends : b.setting.sem.Sends b.table s (asks b.table names moves).2) :
    b.Mirrors (play b.setting hands moves) s site
      (asks b.table names moves).1 (asks b.table names moves).2 := by
  induction moves generalizing names hands s site with
  | nil => exact .nothing h
  | cons move moves ih =>
      obtain ⟨hmove, hrest⟩ := (Semantics.sends_append _ _ _ _ _).mp hsends
      exact (mirrors_move h move hmove).bind fun hands' site' h' ↦ ih h' hrest

end Birth

/-- Calls through a proxy of a new object, through its copies, through methods taken from any of
them, and through proxies made from its descriptor come to what the object itself makes of them.
The object on the server is left as they leave it, or will be so once its creation is carried out;
a method outside the table leaves everything as it is. -/
theorem location_transparent (setting : Setting σ) (plan : Plan ℓ) (moves : List Move)
    (site : Site σ) (server : Resolved ServerAddr ℓ) (hnew : plan.attachedOnly = false)
    (hcodec : plan.codec = .json) (hfound : setting.found plan = .ok server)
    (hargs : plan.args.Sendable)
    (hsends : setting.sem.Sends plan.methods (setting.sem.init plan.args)
      (asks plan.methods [none] moves).2) :
    ∃ (p : Proxy ServerAddr ℓ) (creation : Nat) (hands : List (Holder ServerAddr ℓ))
      (results : List (Except Error Json.Value)) (s : σ) (born last there : Site σ),
      Runs (build (setting.surroundings ℓ) plan) site (.ok p) born ∧ p.creation = some creation ∧
      Runs (play setting [.proxy p] moves) born (hands, results) last ∧
      (results, s) = setting.sem.run plan.methods (setting.sem.init plan.args)
        (asks plan.methods [none] moves).2 ∧
      (last.objects = site.objects.set p.addr p.objectId s ∨
        last.objects = site.objects ∧
          ∀ call ∈ (asks plan.methods [none] moves).2, plan.methods.contains call.method = false) ∧
      Runs (setting.carryOut creation) last (.finished (.ok ())) there ∧
      there.objects = site.objects.set p.addr p.objectId s ∧
      ∀ holder ∈ hands, ∀ method args, plan.methods.contains method = false →
        Runs (holder.held.invoke (setting.surroundings ℓ) method args) last
          (.error (.invalidMethod plan.methods.typeName method)) last := by
  let b := Birth.ofPlan setting plan server site hargs
  let p := setting.newborn plan server site.creations.length
  have hborn := Birth.holds_newborn hfound hcodec hargs site
  obtain ⟨hands, last, hplay, hlast, hdone⟩ := Birth.mirrors_play hborn moves hsends
  obtain ⟨there, hcarry, hthere⟩ := Birth.carryOut_runs hlast.stands
  refine ⟨p, b.creation, hands, _, _, _, last, there, Setting.build_runs hnew hcodec hfound site,
    rfl, hplay, rfl, ?_, hcarry, hthere.objects_eq, fun holder hholder method args hprivate ↦ ?_⟩
  · rcases hlast.stands.there_or with hthere | ⟨hobjects, hpending⟩
    · exact .inl hthere.objects_eq
    · refine .inr ⟨hobjects, fun call hcall ↦ Bool.eq_false_iff.mpr fun hpublic ↦ ?_⟩
      exact hpending (hdone (.inr ⟨call, hcall, hpublic⟩))
  · exact Birth.invoke_runs_of_private (hlast.serves holder hholder) hprivate args last

/-- Objects that count the values they are shown. -/
def tally : Semantics Nat where
  init args := args.positional.length
  step n method args :=
    if method = "fail" then (.error ⟨"ValueError", "asked to fail"⟩, n)
    else (.ok (args.positional.headD .null), n + args.positional.length)

def tallies : Setting Nat where
  sem := tally
  probe := .zero
  freshId := ⟨"1"⟩
  candidate := none
  port := .ok 4000

def tallyPlan : Plan Unit :=
  let plan := Plan.create (.ofNames "Tally" ["show", "fail", "_reset"])
  { plan with addr := some ⟨"localhost", 4000⟩ }

/-- The value `0.5`. -/
def half : Json.Value := .ofTree (.number (.float ⟨false, ⟨0x3FE0000000000000, by decide⟩⟩))

def tallyMoves : List Move :=
  [.take 0 "show", .copy 0, .invoke 2 ⟨"_reset", .empty⟩, .background 1, .revive 2,
    .invoke 3 ⟨"fail", .empty⟩, .call 1 (CallArgs.empty.push half)]

theorem half_sendable (room : Nat) : half.Sendable room := by
  refine ⟨?_, Nat.zero_le _⟩
  rintro x hx
  rw [Json.Number.ReadsBack]
  decide +kernel

theorem location_transparent_of_tally :
    ∃ (p : Proxy ServerAddr Unit) (hands : List (Holder ServerAddr Unit)) (born last : Site Nat),
      Runs (build (tallies.surroundings Unit) tallyPlan) ⟨fun _ _ ↦ none, [], []⟩ (.ok p) born ∧
      Runs (play tallies [.proxy p] tallyMoves) born
        (hands, [.error (.invalidMethod "Tally" "_reset"),
          .error (.remote ⟨"ValueError", "asked to fail"⟩), .ok half]) last ∧
      last.objects p.addr p.objectId = some 1 := by
  have hempty : CallArgs.empty.Sendable := by
    simp [CallArgs.Sendable, CallArgs.empty, Keyed.values, Keyed.empty]
  have hhalf : (CallArgs.empty.push half).Sendable := by
    simp [CallArgs.Sendable, CallArgs.empty, CallArgs.push, Keyed.values, Keyed.empty,
      half_sendable]
  have hasks : (asks tallyPlan.methods [none] tallyMoves).2 =
      [⟨"_reset", .empty⟩, ⟨"fail", .empty⟩, ⟨"show", CallArgs.empty.push half⟩] := rfl
  have hsends : tally.Sends tallyPlan.methods 0 (asks tallyPlan.methods [none] tallyMoves).2 := by
    rw [hasks]
    refine ⟨fun hpublic ↦ absurd hpublic (by decide), fun _ ↦ ⟨hempty, ?_⟩,
      fun _ ↦ ⟨hhalf, ?_⟩, trivial⟩
    · intro v hv
      cases hv
    · intro v hv
      cases hv
      exact half_sendable 126
  obtain ⟨p, _, hands, results, s, born, last, _, hbuild, _, hplay, hresults, hlast, _⟩ :=
    location_transparent tallies tallyPlan tallyMoves ⟨fun _ _ ↦ none, [], []⟩
      ⟨⟨"localhost", 4000⟩, ⟨"localhost", 4000⟩, none⟩ rfl rfl rfl hempty hsends
  obtain ⟨rfl, rfl⟩ : results = [.error (.invalidMethod "Tally" "_reset"),
      .error (.remote ⟨"ValueError", "asked to fail"⟩), .ok half] ∧ s = 1 := Prod.mk.inj hresults
  refine ⟨p, hands, born, last, hbuild, hplay, ?_⟩
  rcases hlast with hobjects | ⟨_, hprivate⟩
  · rw [hobjects, Objects.set_self]
  · have hfail := hprivate ⟨"fail", .empty⟩ (by simp [hasks])
    exact absurd hfail (by decide)

end RemoteObjects.Proxy
