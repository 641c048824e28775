import RemoteObjects.Proxy.Build
import RemoteObjects.Proxy.Holdings

/-!
# Dialogues with the surroundings

What is done with a proxy is a dialogue: its surroundings are asked one thing after another, and
what is asked next depends on the answers.  Here the answers are left open, so whatever holds of
all courses of a dialogue holds however servers, pools and launchers behave.
-/

namespace RemoteObjects.Proxy

/-- What may be asked of the surroundings, of a client, or of the running code. -/
inductive Query (κ ℓ : Type) where
  | connect (addr : ServerAddr)
  | create (link : κ) (objectType : String) (args : ByteArray) (objectId : ObjectId)
  | call (link : κ) (objectId : ObjectId) (method : String) (payload : ByteArray)
  | reachable (link : κ)
  | freshId
  | start (c : Creation κ)
  | poll (creation : Nat)
  | join (creation : Nat)
  | firstLook (creation : Nat)
  | discover
  | launch (launcher : ℓ) (config : LaunchConfig)
  | release (launcher : ℓ)
  | held (launcher : ℓ)
  | shutdown (launcher : ℓ)
  | sleep (d : Duration)
  | jitter
  | log (e : Event)

variable {κ ℓ α β : Type}

abbrev Query.Answer : Query κ ℓ → Type
  | .connect _ => κ
  | .create _ _ _ _ => Except Client.Error Unit
  | .call _ _ _ _ => Except Client.Error ByteArray
  | .reachable _ | .firstLook _ | .release _ | .held _ => Bool
  | .freshId => ObjectId
  | .start _ => Nat
  | .poll _ => Option Settled
  | .join _ => Settled
  | .discover => Option ServerAddr
  | .launch _ _ => Except Launch.Error UInt16
  | .shutdown _ => Except Launch.Error Unit
  | .jitter => Binary64
  | .sleep _ | .log _ => Unit

inductive Dialogue (κ ℓ α : Type) where
  | done (a : α)
  | ask (q : Query κ ℓ) (next : q.Answer → Dialogue κ ℓ α)
  | crash (reason : String)

structure Exchange (κ ℓ : Type) where
  query : Query κ ℓ
  answer : query.Answer

/-- Whether the exchange is a report, of which nobody outside takes notice. -/
def Exchange.isReport (e : Exchange κ ℓ) : Bool :=
  match e.query with
  | .log _ => true
  | _ => false

/-- What passes between a proxy and others, the reports left out. -/
def contacts (said : List (Exchange κ ℓ)) : List (Exchange κ ℓ) := said.filter (!·.isReport)

@[simp] theorem contacts_nil : contacts ([] : List (Exchange κ ℓ)) = [] := rfl

@[simp] theorem contacts_append (said more : List (Exchange κ ℓ)) :
    contacts (said ++ more) = contacts said ++ contacts more := List.filter_append ..

theorem contacts_cons (e : Exchange κ ℓ) (said : List (Exchange κ ℓ)) :
    contacts (e :: said) = if e.isReport then contacts said else e :: contacts said := by
  cases h : e.isReport <;> simp [contacts, h]

theorem mem_contacts {e : Exchange κ ℓ} {said : List (Exchange κ ℓ)} :
    e ∈ contacts said ↔ e ∈ said ∧ e.isReport = false := by
  simp [contacts]

namespace Dialogue

def bind : Dialogue κ ℓ α → (α → Dialogue κ ℓ β) → Dialogue κ ℓ β
  | .done a, f => f a
  | .ask q next, f => .ask q fun a ↦ (next a).bind f
  | .crash reason, _ => .crash reason

instance : Monad (Dialogue κ ℓ) where
  pure := .done
  bind := .bind

@[simp] theorem pure_eq (a : α) : (pure a : Dialogue κ ℓ α) = .done a := rfl

@[simp] theorem done_bind (a : α) (f : α → Dialogue κ ℓ β) : (Dialogue.done a >>= f) = f a := rfl

instance : Effects (Dialogue κ ℓ) where
  sleep d := .ask (.sleep d) .done
  jitter := .ask .jitter .done
  log e := .ask (.log e) .done
  crash reason := .crash reason

/-- Surroundings of which everything is asked and nothing is known. -/
def surroundings : Surroundings (Dialogue κ ℓ) κ ℓ where
  connect addr := .ask (.connect addr) .done
  client link :=
    { create := fun objectType args objectId ↦ .ask (.create link objectType args objectId) .done
      call := fun objectId method payload ↦ .ask (.call link objectId method payload) .done
      reachable := .ask (.reachable link) .done }
  freshId := .ask .freshId .done
  start c := .ask (.start c) .done
  poll creation := .ask (.poll creation) .done
  join creation := .ask (.join creation) .done
  firstLook creation := .ask (.firstLook creation) .done
  discover := .ask .discover .done
  launch launcher config := .ask (.launch launcher config) .done
  release launcher := .ask (.release launcher) .done
  held launcher := .ask (.held launcher) .done
  shutdown launcher := .ask (.shutdown launcher) .done

/-! ## Courses of a dialogue -/

/-- Answers to all queries; each may depend on what was said before, the latest first. -/
abbrev Answers (κ ℓ : Type) : Type := List (Exchange κ ℓ) → (q : Query κ ℓ) → q.Answer

def peaceful (port : UInt16) : Answers Unit Unit := fun _ q ↦
  match q with
  | .connect _ | .sleep _ | .log _ => ()
  | .create _ _ _ _ | .shutdown _ => .ok ()
  | .call _ _ _ _ => .ok .empty
  | .reachable _ | .firstLook _ | .release _ | .held _ => true
  | .freshId => ⟨"1"⟩
  | .start _ => 0
  | .poll _ => some (.finished (.ok ()))
  | .join _ => .finished (.ok ())
  | .discover => none
  | .launch _ _ => .ok port
  | .jitter => .finite (.zero false)

/-- The end of a dialogue, and what is said in it, the earliest first. -/
def run (answers : Answers κ ℓ) :
    Dialogue κ ℓ α → List (Exchange κ ℓ) → Except String α × List (Exchange κ ℓ)
  | .done a, _ => (.ok a, [])
  | .ask q next, past =>
    let e : Exchange κ ℓ := ⟨q, answers past q⟩
    let (result, said) := (next e.answer).run answers (e :: past)
    (result, e :: said)
  | .crash reason, _ => (.error reason, [])

/-- Whatever the answers, the dialogue comes to an end, and `post` holds of what is said and of
what it ends with. -/
def Always (post : List (Exchange κ ℓ) → α → Prop) : Dialogue κ ℓ α → Prop
  | .done a => post [] a
  | .ask q next => ∀ a : q.Answer, (next a).Always fun said r ↦ post (⟨q, a⟩ :: said) r
  | .crash _ => False

theorem Always.mono {post post' : List (Exchange κ ℓ) → α → Prop} {d : Dialogue κ ℓ α}
    (h : d.Always post) (himp : ∀ said r, post said r → post' said r) : d.Always post' := by
  induction d generalizing post post' with
  | done a => exact himp _ _ h
  | ask q next ih => exact fun a ↦ ih a (h a) fun said r ↦ himp (⟨q, a⟩ :: said) r
  | crash reason => exact h

theorem Always.bind {post : List (Exchange κ ℓ) → β → Prop} {d : Dialogue κ ℓ α}
    {f : α → Dialogue κ ℓ β}
    (h : d.Always fun said a ↦ (f a).Always fun more r ↦ post (said ++ more) r) :
    (d >>= f).Always post := by
  induction d generalizing post with
  | done a => exact h
  | ask q next ih => exact fun a ↦ ih a (h a)
  | crash reason => exact h

/-- What holds of all courses holds of the one that given answers lead to. -/
theorem Always.run {post : List (Exchange κ ℓ) → α → Prop} {d : Dialogue κ ℓ α}
    (h : d.Always post) (answers : Answers κ ℓ) (past : List (Exchange κ ℓ)) :
    ∃ r said, d.run answers past = (.ok r, said) ∧ post said r := by
  induction d generalizing post past with
  | done a => exact ⟨a, [], rfl, h⟩
  | ask q next ih =>
    obtain ⟨r, said, hrun, hpost⟩ :=
      ih (answers past q) (h (answers past q)) (⟨q, answers past q⟩ :: past)
    exact ⟨r, ⟨q, answers past q⟩ :: said, by simp [Dialogue.run, hrun], hpost⟩
  | crash reason => exact h.elim

end Dialogue

end RemoteObjects.Proxy
