import Mathlib.Data.List.Nodup
import Mathlib.Logic.Function.Basic
import RemoteObjects.Tcp.Line

/-!
# The traffic between a line and its server

On every connection the server answers each request that it has received, one after another and
with one reply each.  The events of a line and those of the server may come in any order: a request
may arrive although writing it fails, a reply may be given to a call that nobody waits for any more,
and a call may fail or be given up at any time.
-/

namespace RemoteObjects.Tcp

open Transport (Error maxFrame)

/-! ## What an event does to a line -/

/-- How a call begins its turn. -/
def Phase.first : Option Nat → Phase
  | some connection => .writing connection
  | none => .connecting

namespace Line

variable {l l' : Line} {ended : Option Ended}

theorem issue_step {call : Call} (h : l.step? (.issue call) = some (l', ended)) :
    maxFrame < call.payload.size ∧ l' = l ∧
        ended = some (call.id, .error (.payloadTooLarge call.payload.size)) ∨
      call.payload.size ≤ maxFrame ∧ l' = { l with waiting := l.waiting ++ [call] } ∧
        ended = none := by
  rw [step?] at h
  split at h
  · next hlong =>
      cases h
      exact .inl ⟨hlong, rfl, rfl⟩
  · next hshort =>
      cases h
      exact .inr ⟨Nat.le_of_not_lt hshort, rfl, rfl⟩

theorem acquire_step (h : l.step? .acquire = some (l', ended)) :
    ∃ call rest, l.active = none ∧ l.waiting = call :: rest ∧ ended = none ∧
      l' = ⟨none, rest, some (call, .first l.kept), l.opened⟩ := by
  obtain ⟨kept, waiting, active, opened⟩ := l
  cases active with
  | some a => cases h
  | none =>
      cases waiting with
      | nil => cases h
      | cons call rest =>
          cases h
          exact ⟨call, rest, rfl, rfl, rfl, by cases kept <;> rfl⟩

theorem connected_step (h : l.step? .connected = some (l', ended)) :
    ∃ call, l.active = some (call, .connecting) ∧ ended = none ∧
      l' = ⟨l.kept, l.waiting, some (call, .writing l.opened), l.opened + 1⟩ := by
  obtain ⟨kept, waiting, active, opened⟩ := l
  obtain _ | ⟨call, phase⟩ := active
  · cases h
  · cases phase with
    | connecting =>
        cases h
        exact ⟨call, rfl, rfl, rfl⟩
    | writing connection | reading connection => cases h

theorem written_step (h : l.step? .written = some (l', ended)) :
    ∃ call connection, l.active = some (call, .writing connection) ∧ ended = none ∧
      l' = { l with active := some (call, .reading connection) } := by
  obtain ⟨kept, waiting, active, opened⟩ := l
  obtain _ | ⟨call, phase⟩ := active
  · cases h
  · cases phase with
    | writing connection =>
        cases h
        exact ⟨call, connection, rfl, rfl, rfl⟩
    | connecting | reading connection => cases h

theorem replied_step {reply : ByteArray} (h : l.step? (.replied reply) = some (l', ended)) :
    ∃ call connection, l.active = some (call, .reading connection) ∧
      ended = some (call.id, .ok reply) ∧
      l' = { l with kept := some connection, active := none } := by
  obtain ⟨kept, waiting, active, opened⟩ := l
  obtain _ | ⟨call, phase⟩ := active
  · cases h
  · cases phase with
    | reading connection =>
        cases h
        exact ⟨call, connection, rfl, rfl, rfl⟩
    | connecting | writing connection => cases h

theorem failed_step {e : Error} (h : l.step? (.failed e) = some (l', ended)) :
    ∃ call phase, l.active = some (call, phase) ∧ ended = some (call.id, .error e) ∧
      l' = { l with active := none } := by
  obtain ⟨kept, waiting, active, opened⟩ := l
  obtain _ | ⟨call, phase⟩ := active
  · cases h
  · cases h
    exact ⟨call, phase, rfl, rfl, rfl⟩

theorem abandoned_step {id : Nat} (h : l.step? (.abandoned id) = some (l', ended)) :
    ended = none ∧
      ((∃ call phase, l.active = some (call, phase) ∧ call.id = id ∧
        l' = { l with active := none }) ∨
      (∀ call phase, l.active = some (call, phase) → call.id ≠ id) ∧
        l' = { l with waiting := l.waiting.filter (·.id ≠ id) }) := by
  obtain ⟨kept, waiting, active, opened⟩ := l
  obtain _ | ⟨call, phase⟩ := active
  · cases h
    exact ⟨rfl, .inr ⟨nofun, rfl⟩⟩
  · simp only [step?] at h
    split at h
    · next hid =>
        cases h
        exact ⟨rfl, .inl ⟨call, phase, rfl, hid, rfl⟩⟩
    · next hid =>
        cases h
        refine ⟨rfl, .inr ⟨?_, rfl⟩⟩
        rintro call' phase' ⟨⟩
        exact hid

end Line

/-! ## Connections -/

/-- What is on its way over a connection, the next one first. -/
structure Connection where
  unanswered : List Call
  unread : List ByteArray

namespace Connection

def quiet : Connection := ⟨[], []⟩

def receive (c : Connection) (call : Call) : Connection :=
  { c with unanswered := c.unanswered ++ [call] }

end Connection

structure Traffic where
  line : Line
  /-- Those that were not opened yet are quiet. -/
  connections : Nat → Connection
  /-- Whether the call whose turn it is has its request on a connection. -/
  sent : Bool
  /-- How many calls were issued; they are numbered as they are issued. -/
  calls : Nat

def Traffic.idle : Traffic := ⟨.idle, fun _ ↦ .quiet, false, 0⟩

/-- What can be seen of the traffic. -/
inductive Happening where
  /-- A call is made; one that is refused ends at once. -/
  | issued (call : Call) (ended : Option Ended)
  | acquired (call : Call)
  | opened (connection : Nat)
  | sent (connection : Nat) (call : Call)
  | written
  | answered (connection : Nat) (call : Call) (reply : ByteArray)
  | ended (e : Ended)
  | abandoned (id : Nat)

/-- One event of the line or of its server.  A write can succeed once the request is on the
connection and fail at any time; the server answers the requests of each connection in the order in
which they came, whether or not the connection is still in use. -/
inductive Step : Traffic → Happening → Traffic → Prop
  | issue {s : Traffic} (payload : ByteArray) {l : Line} {ended : Option Ended} :
      s.line.step? (.issue ⟨s.calls, payload⟩) = some (l, ended) →
      Step s (.issued ⟨s.calls, payload⟩ ended) { s with line := l, calls := s.calls + 1 }
  | acquire {s : Traffic} {call : Call} {phase : Phase} {l : Line} :
      s.line.step? .acquire = some (l, none) → l.active = some (call, phase) →
      Step s (.acquired call) { s with line := l, sent := false }
  | connect {s : Traffic} {l : Line} : s.line.step? .connected = some (l, none) →
      Step s (.opened s.line.opened) { s with line := l }
  | send {s : Traffic} {call : Call} {c : Nat} :
      s.line.active = some (call, .writing c) → s.sent = false →
      Step s (.sent c call)
        { s with
          connections := Function.update s.connections c ((s.connections c).receive call)
          sent := true }
  | write {s : Traffic} {l : Line} : s.sent = true → s.line.step? .written = some (l, none) →
      Step s .written { s with line := l }
  | answer {s : Traffic} {call : Call} {c : Nat} {rest : List Call} (reply : ByteArray) :
      (s.connections c).unanswered = call :: rest →
      Step s (.answered c call reply)
        { s with
          connections := Function.update s.connections c
            ⟨rest, (s.connections c).unread ++ [reply]⟩ }
  | read {s : Traffic} {call : Call} {c : Nat} {reply : ByteArray} {rest : List ByteArray}
      {l : Line} {e : Ended} :
      s.line.active = some (call, .reading c) → (s.connections c).unread = reply :: rest →
      s.line.step? (.replied reply) = some (l, some e) →
      Step s (.ended e)
        { s with
          line := l
          connections := Function.update s.connections c ⟨(s.connections c).unanswered, rest⟩ }
  | fail {s : Traffic} (error : Error) {l : Line} {e : Ended} :
      s.line.step? (.failed error) = some (l, some e) → Step s (.ended e) { s with line := l }
  | abandon {s : Traffic} (id : Nat) {l : Line} :
      s.line.step? (.abandoned id) = some (l, none) →
      Step s (.abandoned id) { s with line := l }

/-- A series of events, the latest first. -/
inductive Run (s : Traffic) : List Happening → Traffic → Prop
  | refl : Run s [] s
  | step {past : List Happening} {t u : Traffic} {x : Happening} :
      Run s past t → Step t x u → Run s (x :: past) u

/-- The events and states that a line and its server can come to. -/
abbrev Reaches (past : List Happening) (s : Traffic) : Prop := Run .idle past s

/-- Whatever happened in a run was a step of it. -/
theorem Run.cut {s u : Traffic} {past : List Happening} (h : Run s past u) {x : Happening}
    (hx : x ∈ past) :
    ∃ later before t t', past = later ++ x :: before ∧ Run s before t ∧ Step t x t' ∧
      Run t' later u := by
  induction h with
  | refl => cases hx
  | @step past t u y hrun hstep ih =>
      rcases List.mem_cons.mp hx with rfl | hx
      · exact ⟨[], past, t, u, rfl, hrun, hstep, .refl⟩
      · obtain ⟨later, before, v, v', rfl, hbefore, hv, hlater⟩ := ih hx
        exact ⟨y :: later, before, v, v', rfl, hbefore, hv, hlater.step hstep⟩

theorem Run.after {s t u : Traffic} {x : Happening} {later : List Happening} (hx : Step s x t)
    (h : Run t later u) : Run s (later ++ [x]) u := by
  induction h with
  | refl => exact Run.refl.step hx
  | step _ hy ih => exact ih.step hy

/-- What no step breaks holds of everything that a line and its server can come to. -/
theorem Reaches.invariant {I : List Happening → Traffic → Prop} (hidle : I [] .idle)
    (hstep : ∀ {past s x s'}, I past s → Step s x s' → I (x :: past) s')
    {past : List Happening} {s : Traffic} (h : Reaches past s) : I past s := by
  induction h with
  | refl => exact hidle
  | step _ hx ih => exact hstep ih hx

/-! ## Accounts of a series of events -/

/-- The calls that were made, the last one first. -/
def issues (past : List Happening) : List Call :=
  past.filterMap fun
    | .issued call _ => some call
    | _ => none

/-- The calls that got their turn, the last one first. -/
def turns (past : List Happening) : List Call :=
  past.filterMap fun
    | .acquired call => some call
    | _ => none

/-- The requests that went out and the connections they went over, the last one first. -/
def sends (past : List Happening) : List (Nat × Call) :=
  past.filterMap fun
    | .sent c call => some (c, call)
    | _ => none

/-- The calls that were answered over a connection with their replies, the last one first. -/
def answers (c : Nat) (past : List Happening) : List (Call × ByteArray) :=
  past.filterMap fun
    | .answered c' call reply => if c' = c then some (call, reply) else none
    | _ => none

@[simp] theorem issues_issued (call : Call) (ended : Option Ended) (past : List Happening) :
    issues (.issued call ended :: past) = call :: issues past := rfl

@[simp] theorem sends_sent (c : Nat) (call : Call) (past : List Happening) :
    sends (.sent c call :: past) = (c, call) :: sends past := rfl

/-- The calls that have got their turn and are not over yet. -/
def underWay : List Happening → List Nat
  | .acquired call :: past => call.id :: underWay past
  | .ended e :: past => (underWay past).filter (· ≠ e.1)
  | .abandoned id :: past => (underWay past).filter (· ≠ id)
  | _ :: past => underWay past
  | [] => []

end RemoteObjects.Tcp
