import RemoteObjects.Proofs.Proxy.Creating
import RemoteObjects.Proofs.Wire.RoundTrip

/-!
# Descriptors stand for proxies

The descriptor of a proxy can be written down, read again and made into a proxy for the same
object.  The new proxy is a guest of the server: all that comes of it are connections, calls and
reports, and what becomes of the object and of the server is left to others.
-/

namespace RemoteObjects

open Json

/-! ## Descriptors as texts -/

theorem Json.readString_write {α : Type} {decode : Decoder α} {t : Tree} {a : α}
    (ht : t.ReadsBack) (ha : decode (.text nestingLimit) (.ofTree t) = .ok a) :
    Json.readString decode t.write = .ok a := by
  have hbytes := Wire.decodeBytes_eq_ok_iff.mp (Wire.decodeBytes_of_ok ht ha)
  rwa [Wire.encodeTree, Json.readBytes, textOfBytes_toUTF8] at hbytes

theorem ServerAddr.decode_tree (addr : ServerAddr) {place inner : Place}
    (henter : place.enter = .ok inner) :
    ServerAddr.record.decode place (.ofTree addr.tree) = .ok addr := by
  have hport := Decoder.uint16_ofTree inner addr.port
  simp only [Draft.ofTree] at hport
  simp [Record.decode, ServerAddr.record, ServerAddr.tree, Fields.examine, Fields.examine?,
    Fields.ofMembers, Field.required, Decoder.map, Decoder.text, Draft.ofTree, Draft.ofMembers,
    henter, bind, Except.bind, Except.map, List.lookup_cons, hport]

namespace Proxy

theorem Descriptor.decode_tree (d : Descriptor) :
    Descriptor.record.decode (.text nestingLimit) (.ofTree d.tree) = .ok d := by
  have hroom : (Place.text 126).enter = .ok (.text 125) := rfl
  have haddr := d.addr.decode_tree hroom
  -- The record inside stays folded.
  simp only [Descriptor.tree, Draft.ofTree]
  rw [Record.decode]
  simp [Descriptor.record, Fields.examine, Fields.examine?, Fields.ofMembers, Field.required,
    Decoder.map, Decoder.text, ObjectId.decode, ObjectId.tree, Draft.ofTree, Draft.ofMembers,
    Place.enter, nestingLimit, bind, Except.bind, Except.map, List.lookup_cons, haddr]

theorem Descriptor.readString_write (d : Descriptor) :
    Json.readString record.decode d.tree.write = .ok d := by
  refine Json.readString_write ?_ d.decode_tree
  have hport : (Tree.number (.natural d.addr.port.toUInt64)).ReadsBack := nofun
  exact ⟨trivial, trivial, ⟨trivial, hport, trivial⟩, trivial⟩

variable {κ ℓ : Type} {p q : Proxy κ ℓ}

/-! ## Guests -/

/-- The queries that leave the lives of objects and servers alone. -/
def Query.Plain : Query κ ℓ → Prop
  | .connect _ | .call _ _ _ _ | .log _ => True
  | _ => False

def Happening.Plain : Happening κ ℓ → Prop
  | .said _ e => e.query.Plain
  | .created _ _ | .settled _ _ => False

/-- The plain queries that are about the object of a proxy. -/
def Query.Visits (p : Proxy κ ℓ) : Query κ ℓ → Prop
  | .connect addr => addr = p.addr
  | .call link objectId _ _ => link = p.link ∧ objectId = p.objectId
  | .log _ => True
  | _ => False

theorem Query.Visits.plain {query : Query κ ℓ} (h : query.Visits p) : query.Plain := by
  cases query with
  | connect | call | log => trivial
  | _ => exact h

theorem Query.Visits.of_kin {query : Query κ ℓ} (hkin : p.Kin q) (h : query.Visits q) :
    query.Visits p := by
  rcases hkin.eq_or with rfl | rfl
  · exact h
  · exact h

theorem Foreign.of_kin (h : p.Foreign) (hkin : p.Kin q) : q.Foreign := by
  rcases hkin.eq_or with rfl | rfl
  · exact h
  · exact ⟨h.1, rfl, rfl⟩

theorem Foreign.visits_of_awaits {query : Query κ ℓ} (h : p.Foreign) (hquery : p.Awaits query) :
    query.Visits p := by
  cases query with
  | log event => trivial
  | poll creation | join creation | firstLook creation =>
      have hcreation : p.creation = some creation := hquery
      rw [h.1] at hcreation
      cases hcreation
  | _ => exact hquery.elim

theorem Foreign.visits_of_mayCall {query : Query κ ℓ} {method : String} {now : History κ ℓ}
    (h : p.Foreign) (hquery : p.MayCall method now query) : query.Visits p := by
  rcases mayCall_iff.mp hquery with ⟨payload, rfl, -⟩ | hawaits
  · exact ⟨rfl, rfl⟩
  · exact h.visits_of_awaits hawaits

theorem Foreign.visits_of_stops {query : Query κ ℓ} (h : p.Foreign) (hquery : p.Stops query) :
    query.Visits p := by
  cases query with
  | log event => trivial
  | release launcher | shutdown launcher =>
      have hlauncher : p.launcher = some launcher := hquery
      rw [h.2.2] at hlauncher
      cases hlauncher
  | _ => exact hquery.elim

/-- The deeds that have to do with the family of a proxy or with its descriptor. -/
inductive Deed.Concerns (p : Proxy κ ℓ) : Deed κ ℓ → Prop
  | use {deed : Deed κ ℓ} {user : Holder κ ℓ} (huser : deed.user? = some user)
      (hkin : p.Kin user.held) : Concerns p deed
  | drop {hands : Holdings κ ℓ} {slot : String} {gone : Holder κ ℓ}
      (hgone : hands.get? slot = some gone) (hkin : p.Kin gone.held) :
      Concerns p (.drop hands slot)
  | rehydrate (methods : MethodTable) (codec : Codec) :
      Concerns p (.rehydrate methods p.descriptor codec)

section

variable [DecidableEq ℓ] {deed : Deed κ ℓ} {now : History κ ℓ} {query : Query κ ℓ}

theorem Deed.May.visits_of_user (h : deed.May now query) {user : Holder κ ℓ}
    (huser : deed.user? = some user) (hforeign : user.held.Foreign) : query.Visits user.held := by
  cases deed with
  | invoke q method args =>
      cases huser
      exact hforeign.visits_of_mayCall h.2
  | call f args =>
      cases huser
      exact hforeign.visits_of_mayCall h.2
  | waitReady q =>
      cases huser
      exact hforeign.visits_of_awaits h
  | state q =>
      cases huser
      exact hforeign.visits_of_awaits (awaits_iff.mpr (.inr h))
  | ownsServer q =>
      cases huser
      cases query with
      | held launcher =>
          have hlauncher : q.launcher = some launcher := h
          cases hforeign.2.2.symm.trans hlauncher
      | _ => exact h.elim
  | stop q =>
      cases huser
      exact hforeign.visits_of_stops h
  | rehydrate methods d codec => cases huser
  | drop hands slot => cases huser

/-- Whatever has to do with a foreign proxy visits its object and does no more. -/
theorem Deed.May.visits (h : deed.May now query) (hforeign : p.Foreign)
    (hdeed : deed.Concerns p) : query.Visits p := by
  cases hdeed with
  | use huser hkin =>
      apply Query.Visits.of_kin hkin
      exact h.visits_of_user huser (hforeign.of_kin hkin)
  | @drop hands slot gone hgone hkin =>
      obtain ⟨gone', launcher, ⟨hgone', -, -⟩, hstops⟩ := h
      cases hgone.symm.trans hgone'
      apply Query.Visits.of_kin hkin
      exact (hforeign.of_kin hkin).visits_of_stops hstops
  | rehydrate methods codec =>
      cases query with
      | connect addr => exact h
      | _ => exact h.elim

theorem Deed.May.plain (h : deed.May now query)
    (hused : ∀ u, deed.user? = some u → u.held.Foreign)
    (hdropped : ∀ hands slot, deed = .drop hands slot → ∀ u ∈ hands.values, u.held.Foreign) :
    query.Plain := by
  cases deed with
  | rehydrate methods d codec =>
      cases query with
      | connect addr => trivial
      | _ => exact h.elim
  | drop hands slot =>
      obtain ⟨gone, launcher, ⟨hgone, -, -⟩, hstops⟩ := h
      have hmem := Keyed.mem_values.mpr ⟨slot, Keyed.mem_of_get? hgone⟩
      apply Query.Visits.plain
      exact (hdropped hands slot rfl gone hmem).visits_of_stops hstops
  | _ =>
      apply Query.Visits.plain
      exact h.visits_of_user rfl (hused _ rfl)

namespace Life

variable {said : List (Exchange κ ℓ)} {slot : String} {life : Life κ ℓ}

/-- Nothing but guests comes of a guest. -/
theorem plain_of_reaches (hforeign : p.Foreign) (hsaid : ∀ e ∈ said, e.query.Plain)
    (h : Reaches (start p said slot) life) : ∀ x ∈ life.past, x.Plain := by
  induction h with
  | refl =>
      intro x hx
      obtain ⟨e, he, rfl⟩ := mem_start.mp hx
      exact hsaid e he
  | tail hreaches hstep ih =>
      have hlawful := lawful hreaches
      have hfamiliar := familiar hreaches
      cases hstep with
      | copy | take | keep | begin => exact ih
      | @proceed past hands before after d query next a hrest hfits =>
          have hd : d ∈ before ++ d :: after := List.mem_append_right _ List.mem_cons_self
          have hmay : d.deed.May past query := hlawful.may_ask hd hrest
          have hknown {u : Holder κ ℓ} (hu : p.Known u) : u.held.Foreign :=
            hu.origin.elim hforeign.of_kin id
          intro x hx
          rcases List.mem_cons.mp hx with rfl | hx
          · apply hmay.plain
            · intro u hu
              exact hknown (hfamiliar.used d hd u hu)
            · intro hands' slot' hdeed u hu
              exact hknown (hfamiliar.dropped d hd hands' slot' hdeed u hu)
          · exact ih x hx
      | create hstart hnew => exact False.elim (ih _ hstart)
      | settle hcreated hnew => exact False.elim (ih _ hcreated)

theorem visits_of_reaches {p₀ : Proxy κ ℓ} (hforeign : p.Foreign)
    (h : Reaches (start p₀ said slot) life) {i : Nat} {d : Doing κ ℓ}
    (hd : life.doings[i]? = some d) (hdeed : d.deed.Concerns p) {e : Exchange κ ℓ}
    (he : .said (some i) e ∈ life.past) : e.query.Visits p := by
  obtain ⟨earlier, -, hmay⟩ := (lawful h).may hd he
  exact hmay.visits hforeign hdeed

end Life

/-! ## Proxies made from descriptors -/

/-- What is said of a proxy that was made from the descriptor of another one. -/
structure RestoredAs (p : Proxy κ ℓ) (methods : MethodTable) (codec : Codec)
    (said : List (Exchange κ ℓ)) (q : Proxy κ ℓ) : Prop where
  /-- One connection is all it takes. -/
  said_eq : said = [⟨.connect p.addr, q.link⟩]
  methods_eq : q.methods = methods
  codec_eq : q.codec = codec
  objectId_eq : q.objectId = p.objectId
  addr_eq : q.addr = p.addr
  objectType_eq : q.objectType = p.objectType
  descriptor_eq : q.descriptor = p.descriptor
  attachedOnly : q.attachedOnly = true
  owns : q.ownsServer Dialogue.surroundings = .done false
  ready : q.state Dialogue.surroundings = .done .ready
  /-- All that ever happens if nothing but this proxy is there. -/
  alone : ∀ slot life, Life.Reaches (Life.start q said slot) life → ∀ x ∈ life.past, x.Plain
  /-- All that is done with it, with its clones and with its descriptor if others are there. -/
  among : ∀ p₀ said₀ slot life, Life.Reaches (Life.start p₀ said₀ slot) life →
    ∀ (i : Nat) d, life.doings[i]? = some d → d.deed.Concerns q →
      ∀ e, .said (some i) e ∈ life.past → e.query.Visits q

theorem restoredAs_foreign (p : Proxy κ ℓ) {methods : MethodTable}
    (htype : methods.typeName = p.objectType) (codec : Codec) (link : κ) :
    p.RestoredAs methods codec [⟨.connect p.addr, link⟩]
      ⟨methods, p.objectId, p.addr, link, codec, none, true, none⟩ where
  said_eq := rfl
  methods_eq := rfl
  codec_eq := rfl
  objectId_eq := rfl
  addr_eq := rfl
  objectType_eq := htype
  descriptor_eq := by rw [descriptor, descriptor, objectType, htype]
  attachedOnly := rfl
  owns := rfl
  ready := rfl
  alone slot life hlife := by
    refine Life.plain_of_reaches ⟨rfl, rfl, rfl⟩ ?_ hlife
    intro e he
    rw [List.mem_singleton.mp he]
    trivial
  among p₀ said₀ slot life hlife i d hd hdeed e he :=
    Life.visits_of_reaches ⟨rfl, rfl, rfl⟩ hlife hd hdeed he

/-- The descriptor of a proxy, written down and read again, makes a proxy for the same object with
one connection, if the type is the one it names.  The new proxy owns nothing, and neither alone nor
among others does it ever do more than connect and call.  Any other type is refused before
anything is asked. -/
theorem restored_of_descriptor (p : Proxy κ ℓ) :
    Json.readString Descriptor.record.decode p.descriptor.tree.write = .ok p.descriptor ∧
    ∀ methods codec,
      (methods.typeName = p.objectType →
        (rehydrate Dialogue.surroundings methods p.descriptor codec).Always fun said r ↦
          ∃ q, r = .ok q ∧ p.RestoredAs methods codec said q) ∧
      (methods.typeName ≠ p.objectType →
        (rehydrate Dialogue.surroundings methods p.descriptor codec : Dialogue κ ℓ _) =
          .done (.error (.typeMismatch methods.typeName p.objectType))) := by
  refine ⟨p.descriptor.readString_write, ?_⟩
  intro methods codec
  constructor
  · intro htype
    have hsame : ¬p.descriptor.objectType ≠ methods.typeName := not_not_intro htype.symm
    rw [rehydrate, if_neg hsame]
    intro link
    exact ⟨_, rfl, p.restoredAs_foreign htype codec link⟩
  · intro htype
    have hother : p.descriptor.objectType ≠ methods.typeName := htype.symm
    rw [rehydrate, if_pos hother]
    rfl

end

/-! A proxy that owns its server and has names that are hard to write. -/

def owner : Proxy Unit Unit where
  methods := .ofNames "Zähler \"7\"" ["next"]
  objectId := ⟨"a\nb\\c"⟩
  addr := ⟨"höst", 65535⟩
  link := ()
  codec := .json
  creation := some 0
  attachedOnly := false
  launcher := some ()

def guest : Proxy Unit Unit :=
  { owner with creation := none, attachedOnly := true, launcher := none }

theorem restored_of_descriptor_owner :
    Json.readString Descriptor.record.decode owner.descriptor.tree.write = .ok owner.descriptor ∧
    (∃ said life,
      (rehydrate Dialogue.surroundings owner.methods owner.descriptor .json).run
        (Dialogue.peaceful 65535) [] = (.ok (.ok guest), said) ∧
      owner.RestoredAs owner.methods .json said guest ∧
      Life.Reaches (Life.start guest said "guest") life ∧ life.past.length = 2 ∧
      ∀ x ∈ life.past, x.Plain) ∧
    (rehydrate Dialogue.surroundings counter.methods owner.descriptor .json :
      Dialogue Unit Unit _) = .done (.error (.typeMismatch "Counter" "Zähler \"7\"")) := by
  obtain ⟨hread, hrehydrate⟩ := restored_of_descriptor owner
  refine ⟨hread, ?_, (hrehydrate counter.methods .json).2 (by decide)⟩
  obtain ⟨r, said, hrun, q, rfl, hq⟩ :=
    ((hrehydrate owner.methods .json).1 rfl).run (Dialogue.peaceful 65535) []
  have hguest : (rehydrate Dialogue.surroundings owner.methods owner.descriptor .json).run
      (Dialogue.peaceful 65535) [] = (.ok (.ok guest), [⟨.connect ⟨"höst", 65535⟩, ()⟩]) := rfl
  cases hguest.symm.trans hrun
  let life := Life.start guest [⟨.connect ⟨"höst", 65535⟩, ()⟩] "guest"
  let deed : Deed Unit Unit := .invoke guest "next" .empty
  let doing : Doing Unit Unit := ⟨some "guest", deed, life.past, deed.course⟩
  have hheld : life.hands.get? "guest" = some (.proxy guest) := rfl
  have hbegins : Begins life.hands life.doings (some "guest") deed := .use hheld rfl
  have hbegin : life.Step ⟨life.past, life.hands, [doing]⟩ := .begin hbegins
  let query : Query Unit Unit :=
    .call () guest.objectId "next" (Wire.encodeTree CallArgs.empty.tree)
  have hrest : doing.rest = .ask query fun reply ↦ .done (.value (answerOf .json reply)) := rfl
  have hcall : Life.Step ⟨life.past, life.hands, [] ++ doing :: []⟩
      ⟨.said (some 0) ⟨query, .ok .empty⟩ :: life.past, life.hands,
        [] ++ { doing with rest := .done (.value (answerOf .json (.ok .empty))) } :: []⟩ :=
    .proceed hrest trivial
  have hlife := (Relation.ReflTransGen.single hbegin).tail hcall
  exact ⟨_, _, hguest, hq, hlife, rfl, hq.alone _ _ hlife⟩

end Proxy

end RemoteObjects
