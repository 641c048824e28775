import Mathlib.Logic.Relation
import RemoteObjects.Proofs.Keyed
import RemoteObjects.Proofs.Proxy.Dialogue

/-!
# The life of a proxy

A proxy that was built is copied, methods are taken from it and descriptors are made into proxies
again, and with all of them things are done at the same time.  Each doing is a dialogue, and the
dialogues advance one exchange at a time in any order.  The creation of the object goes on in the
background.  The answers are arbitrary where they come from outside; those about creations and
launchers follow from what has happened.
-/

namespace RemoteObjects.Proxy

variable {κ ℓ : Type}

/-! ## What happens -/

inductive Happening (κ ℓ : Type) where
  /-- The doing with a number, or the builder, is given an answer. -/
  | said (who : Option Nat) (e : Exchange κ ℓ)
  /-- The client is asked to create the object. -/
  | created (creation : Nat) (c : Creation κ)
  | settled (creation : Nat) (result : Settled)

/-- What has happened, the latest first. -/
abbrev History (κ ℓ : Type) : Type := List (Happening κ ℓ)

def settlement (creation : Nat) : History κ ℓ → Option Settled
  | [] => none
  | .settled n result :: past =>
    (settlement creation past).or (if n = creation then some result else none)
  | _ :: past => settlement creation past

def looked (creation : Nat) (past : History κ ℓ) : Bool :=
  past.any fun
    | .said _ ⟨.firstLook n, _⟩ => n = creation
    | _ => false

/-- Whether a launcher was taken out of the hands of its proxy. -/
def taken [DecidableEq ℓ] (launcher : ℓ) (past : History κ ℓ) : Bool :=
  past.any fun
    | .said _ ⟨.release l, _⟩ => l = launcher
    | _ => false

/-- Whether an answer agrees with the past. -/
def Fits [DecidableEq ℓ] (past : History κ ℓ) : Exchange κ ℓ → Prop
  | ⟨.poll creation, answer⟩ => answer = settlement creation past
  | ⟨.join creation, result⟩ => settlement creation past = some result
  | ⟨.firstLook creation, first⟩ => first = !looked creation past
  | ⟨.release launcher, free⟩ => free = !taken launcher past
  | ⟨.held launcher, held⟩ => held = !taken launcher past
  | _ => True

theorem settlement_mono {creation : Nat} {result : Settled} {past now : History κ ℓ}
    (h : past <:+ now) (hpast : settlement creation past = some result) :
    settlement creation now = some result := by
  obtain ⟨later, rfl⟩ := h
  induction later with
  | nil => exact hpast
  | cons x later ih => cases x <;> simp [settlement, ih]

theorem taken_mono [DecidableEq ℓ] {launcher : ℓ} {past now : History κ ℓ} (h : past <:+ now)
    (hpast : taken launcher past = true) : taken launcher now = true := by
  obtain ⟨later, rfl⟩ := h
  rw [taken, List.any_append]
  exact Bool.or_eq_true_iff.mpr (.inr hpast)

/-! ## What is done -/

/-- What is done with a proxy, with a method of it, or with the descriptor of one. -/
inductive Deed (κ ℓ : Type) where
  | invoke (p : Proxy κ ℓ) (method : String) (args : CallArgs)
  | call (f : Method κ ℓ) (args : CallArgs)
  | waitReady (p : Proxy κ ℓ)
  | state (p : Proxy κ ℓ)
  | ownsServer (p : Proxy κ ℓ)
  | stop (p : Proxy κ ℓ)
  | rehydrate (methods : MethodTable) (d : Descriptor) (codec : Codec)
  | drop (hands : Holdings κ ℓ) (slot : String)

inductive Upshot (κ ℓ : Type) where
  | value (r : Except Error Json.Value)
  | ready (r : Except Error Unit)
  | state (s : State)
  | owns (b : Bool)
  | stopped
  | revived (r : Except Error (Proxy κ ℓ))
  | dropped (rest : Holdings κ ℓ)

namespace Deed

open Dialogue (surroundings)

def course [DecidableEq ℓ] : Deed κ ℓ → Dialogue κ ℓ (Upshot κ ℓ)
  | .invoke p method args => p.invoke surroundings method args >>= fun r ↦ .done (.value r)
  | .call f args => f.call surroundings args >>= fun r ↦ .done (.value r)
  | .waitReady p => p.waitReady surroundings >>= fun r ↦ .done (.ready r)
  | .state p => p.state surroundings >>= fun s ↦ .done (.state s)
  | .ownsServer p => p.ownsServer surroundings >>= fun b ↦ .done (.owns b)
  | .stop p => p.stop surroundings >>= fun _ ↦ .done .stopped
  | .rehydrate methods d codec =>
    Proxy.rehydrate surroundings methods d codec >>= fun r ↦ .done (.revived r)
  | .drop hands slot => hands.drop surroundings slot >>= fun rest ↦ .done (.dropped rest)

/-- What has to be held as long as the deed takes. -/
def user? : Deed κ ℓ → Option (Holder κ ℓ)
  | .invoke p _ _ | .waitReady p | .state p | .ownsServer p | .stop p => some (.proxy p)
  | .call f _ => some (.method f)
  | .rehydrate _ _ _ | .drop _ _ => none

/-- What is still held when the deed has begun. -/
def leaves (hands : Holdings κ ℓ) : Deed κ ℓ → Holdings κ ℓ
  | .drop _ slot => hands.erase slot
  | _ => hands

end Deed

/-- A deed under way or done. -/
structure Doing (κ ℓ : Type) where
  /-- Where its user is held. -/
  slot : Option String
  deed : Deed κ ℓ
  /-- What had happened when it began. -/
  since : History κ ℓ
  rest : Dialogue κ ℓ (Upshot κ ℓ)

def Doing.isOver (d : Doing κ ℓ) : Bool :=
  match d.rest with
  | .ask _ _ => false
  | .done _ | .crash _ => true

theorem mem_replace {α : Type} {before after : List α} (a : α) {b x : α}
    (h : x ∈ before ++ b :: after) : x = b ∨ x ∈ before ++ a :: after := by
  rcases List.mem_append.mp h with h | h
  · exact .inr (List.mem_append_left _ h)
  · rcases List.mem_cons.mp h with h | h
    · exact .inl h
    · exact .inr (List.mem_append_right _ (List.mem_cons_of_mem _ h))

/-- A doing that advances stays the doing that it was. -/
theorem Doing.mem_advance {before after : List (Doing κ ℓ)} {d x : Doing κ ℓ}
    {rest : Dialogue κ ℓ (Upshot κ ℓ)} (h : x ∈ before ++ { d with rest := rest } :: after) :
    ∃ y ∈ before ++ d :: after, x.slot = y.slot ∧ x.deed = y.deed ∧ x.since = y.since := by
  rcases mem_replace d h with rfl | h
  · exact ⟨d, by simp, rfl, rfl, rfl⟩
  · exact ⟨x, h, rfl, rfl, rfl⟩

/-- The deeds that can begin.  What a doing uses cannot be dropped before the doing is over. -/
inductive Begins (hands : Holdings κ ℓ) (doings : List (Doing κ ℓ)) :
    Option String → Deed κ ℓ → Prop where
  | use {slot : String} {user : Holder κ ℓ} {deed : Deed κ ℓ} (hheld : hands.get? slot = some user)
      (huser : deed.user? = some user) : Begins hands doings (some slot) deed
  | rehydrate (methods : MethodTable) (d : Descriptor) (codec : Codec) :
      Begins hands doings none (.rehydrate methods d codec)
  | drop {slot : String} {gone : Holder κ ℓ} (hheld : hands.get? slot = some gone)
      (hidle : ∀ d ∈ doings, d.slot = some slot → d.isOver = true) :
      Begins hands doings none (.drop hands slot)

section Begin

variable {hands : Holdings κ ℓ} {doings : List (Doing κ ℓ)} {name : Option String}
  {deed : Deed κ ℓ}

theorem Deed.mem_of_leaves {slot : String} {u : Holder κ ℓ}
    (h : (slot, u) ∈ (deed.leaves hands).entries) : (slot, u) ∈ hands.entries := by
  cases deed with
  | drop hands' slot' => exact (Keyed.mem_erase.mp h).1
  | _ => exact h

theorem Begins.user (h : Begins hands doings name deed) {u : Holder κ ℓ}
    (hu : deed.user? = some u) :
    ∃ slot, name = some slot ∧ (slot, u) ∈ hands.entries ∧ deed.leaves hands = hands := by
  cases h with
  | @use slot user deed hheld huser =>
      obtain rfl : user = u := Option.some.inj (huser.symm.trans hu)
      refine ⟨slot, rfl, Keyed.mem_of_get? hheld, ?_⟩
      cases deed with
      | drop hands' slot' => cases hu
      | _ => rfl
  | rehydrate methods d codec => cases hu
  | drop hheld hidle => cases hu

/-- What is in use stays held. -/
theorem Begins.mem_leaves (h : Begins hands doings name deed) {d : Doing κ ℓ} (hd : d ∈ doings)
    (hgoing : d.isOver = false) {slot : String} (hslot : d.slot = some slot) {u : Holder κ ℓ}
    (hu : (slot, u) ∈ hands.entries) : (slot, u) ∈ (deed.leaves hands).entries := by
  cases h with
  | use hheld huser =>
      cases deed with
      | drop hands' slot' => cases huser
      | _ => exact hu
  | rehydrate methods d codec => exact hu
  | @drop slot' gone hheld hidle =>
      refine Keyed.mem_erase.mpr ⟨hu, ?_⟩
      rintro rfl
      have hover := hidle d hd hslot
      rw [hgoing] at hover
      cases hover

end Begin

/-! ## Steps -/

structure Life (κ ℓ : Type) where
  past : History κ ℓ
  hands : Holdings κ ℓ
  doings : List (Doing κ ℓ)

namespace Life

def start (p : Proxy κ ℓ) (said : List (Exchange κ ℓ)) (slot : String) : Life κ ℓ :=
  ⟨(said.map (.said none)).reverse, Keyed.empty.insert slot (.proxy p), []⟩

theorem mem_start {p : Proxy κ ℓ} {said : List (Exchange κ ℓ)} {slot : String}
    {x : Happening κ ℓ} : x ∈ (start p said slot).past ↔ ∃ e ∈ said, .said none e = x := by
  simp [start]

inductive Step [DecidableEq ℓ] : Life κ ℓ → Life κ ℓ → Prop where
  | copy {past : History κ ℓ} {hands : Holdings κ ℓ} {doings : List (Doing κ ℓ)}
      {slot into : String} {x : Holder κ ℓ} (hheld : hands.get? slot = some x)
      (hfree : hands.get? into = none) :
      Step ⟨past, hands, doings⟩ ⟨past, hands.insert into x.copy, doings⟩
  | take {past : History κ ℓ} {hands : Holdings κ ℓ} {doings : List (Doing κ ℓ)}
      {slot into name : String} {p : Proxy κ ℓ} {f : Method κ ℓ}
      (hheld : hands.get? slot = some (.proxy p)) (hmethod : p.method name = .ok f)
      (hfree : hands.get? into = none) :
      Step ⟨past, hands, doings⟩ ⟨past, hands.insert into (.method f), doings⟩
  | keep {past : History κ ℓ} {hands : Holdings κ ℓ} {doings : List (Doing κ ℓ)}
      {into : String} {d : Doing κ ℓ} {p : Proxy κ ℓ} (hd : d ∈ doings)
      (hrest : d.rest = .done (.revived (.ok p))) (hfree : hands.get? into = none) :
      Step ⟨past, hands, doings⟩ ⟨past, hands.insert into (.proxy p), doings⟩
  | begin {past : History κ ℓ} {hands : Holdings κ ℓ} {doings : List (Doing κ ℓ)}
      {slot : Option String} {deed : Deed κ ℓ} (h : Begins hands doings slot deed) :
      Step ⟨past, hands, doings⟩
        ⟨past, deed.leaves hands, doings ++ [⟨slot, deed, past, deed.course⟩]⟩
  | proceed {past : History κ ℓ} {hands : Holdings κ ℓ} {before after : List (Doing κ ℓ)}
      {d : Doing κ ℓ} {q : Query κ ℓ} {next : q.Answer → Dialogue κ ℓ (Upshot κ ℓ)}
      {a : q.Answer} (hrest : d.rest = .ask q next) (hfits : Fits past ⟨q, a⟩) :
      Step ⟨past, hands, before ++ d :: after⟩
        ⟨.said (some before.length) ⟨q, a⟩ :: past, hands,
          before ++ { d with rest := next a } :: after⟩
  | create {past : History κ ℓ} {hands : Holdings κ ℓ} {doings : List (Doing κ ℓ)}
      {who : Option Nat} {c : Creation κ} {creation : Nat}
      (hstart : .said who ⟨.start c, creation⟩ ∈ past)
      (hnew : ∀ c', .created creation c' ∉ past) :
      Step ⟨past, hands, doings⟩ ⟨.created creation c :: past, hands, doings⟩
  | settle {past : History κ ℓ} {hands : Holdings κ ℓ} {doings : List (Doing κ ℓ)}
      {c : Creation κ} {creation : Nat} {result : Settled}
      (hcreated : .created creation c ∈ past) (hnew : settlement creation past = none) :
      Step ⟨past, hands, doings⟩ ⟨.settled creation result :: past, hands, doings⟩

abbrev Reaches [DecidableEq ℓ] : Life κ ℓ → Life κ ℓ → Prop := Relation.ReflTransGen Step

theorem past_suffix [DecidableEq ℓ] {life life' : Life κ ℓ} (h : Reaches life life') :
    life.past <:+ life'.past := by
  induction h with
  | refl => exact List.suffix_rfl
  | tail _ hstep ih =>
      cases hstep with
      | copy | take | keep | begin => exact ih
      | proceed | create | settle => exact ih.trans (List.suffix_cons _ _)

/-- The builder says nothing more once the proxy is built. -/
theorem mem_of_said_none [DecidableEq ℓ] {p : Proxy κ ℓ} {said : List (Exchange κ ℓ)}
    {slot : String} {life : Life κ ℓ} (h : Reaches (start p said slot) life) {e : Exchange κ ℓ}
    (he : .said none e ∈ life.past) : e ∈ said := by
  induction h with
  | refl => simpa [start] using he
  | tail _ hstep ih =>
      cases hstep with
      | copy | take | keep | begin => exact ih he
      | proceed | create | settle => exact ih (by simpa using he)

end Life

end RemoteObjects.Proxy
