import RemoteObjects.Proofs.Tcp.Turns

/-!
# Who has a connection

A connection is kept, or the call whose turn it is has it, or the line has lost it.  What the line
still uses carries nothing but the request of that call or the reply to it; what it has lost may
carry anything, but it never comes back, since a line opens a connection under a new number.
-/

namespace RemoteObjects.Tcp

open Transport (Error)

variable {past later : List Happening} {s s' : Traffic} {x : Happening} {c c' : Nat} {call : Call}

/-! ## Nothing outstanding -/

namespace Connection

/-- No request lacks an answer, and no reply waits to be read. -/
structure Settled (k : Connection) : Prop where
  unanswered : k.unanswered = []
  unread : k.unread = []

theorem settled_quiet : quiet.Settled := ⟨rfl, rfl⟩

namespace Settled

variable {k : Nat → Connection} {rest : List Call} {v : Connection}

theorem update (h : (k c).Settled) (hne : c ≠ c') : (Function.update k c' v c).Settled := by
  rwa [Function.update_of_ne hne]

/-- An answer comes over another connection than one where no request lacks an answer. -/
theorem answered (h : (k c).Settled) (hc : (k c').unanswered = call :: rest) :
    (Function.update k c' v c).Settled := by
  refine h.update ?_
  rintro rfl
  cases h.unanswered.symm.trans hc

end Settled

end Connection

/-- Nothing is on its way over a connection but the request of a call or the reply to it. -/
def Owes (past : List Happening) (c : Nat) (call : Call) (k : Connection) : Prop :=
  k.unanswered = [call] ∧ k.unread = [] ∨
    ∃ reply, .answered c call reply ∈ past ∧ k.unanswered = [] ∧ k.unread = [reply]

namespace Owes

theorem mono {k : Connection} (h : Owes past c call k) : Owes (x :: past) c call k :=
  h.imp_right fun ⟨reply, hanswered, hrest⟩ ↦ ⟨reply, List.mem_cons_of_mem x hanswered, hrest⟩

theorem answered {k : Nat → Connection} {call' : Call} {rest : List Call} {reply : ByteArray}
    (h : Owes past c call (k c)) (hc : (k c').unanswered = call' :: rest) :
    Owes (.answered c' call' reply :: past) c call
      (Function.update k c' ⟨rest, (k c').unread ++ [reply]⟩ c) := by
  by_cases heq : c = c'
  · subst heq
    rw [Function.update_self]
    obtain ⟨hunanswered, hunread⟩ | ⟨_, -, hunanswered, -⟩ := h
    · cases hunanswered.symm.trans hc
      exact .inr ⟨reply, List.mem_cons_self, rfl, by rw [hunread]; rfl⟩
    · cases hunanswered.symm.trans hc
  · rw [Function.update_of_ne heq]
    exact h.mono

end Owes

/-- Nothing ever went over a connection that is still to be opened. -/
def Fresh (s : Traffic) : Prop :=
  ∀ c, s.line.opened ≤ c → (s.connections c).Settled

/-! ## The connection in use -/

/-- What the line knows of the connection that it keeps or that a call has. -/
inductive Custody (past : List Happening) : Traffic → Prop
  | idle {kept : Option Nat} {waiting : List Call} {opened : Nat} {k : Nat → Connection}
      {sent : Bool} {calls : Nat} :
      (∀ c, kept = some c → c < opened ∧ (k c).Settled) →
      Custody past ⟨⟨kept, waiting, none, opened⟩, k, sent, calls⟩
  | connecting {call : Call} {waiting : List Call} {opened : Nat} {k : Nat → Connection}
      {calls : Nat} :
      Custody past ⟨⟨none, waiting, some (call, .connecting), opened⟩, k, false, calls⟩
  | ready {call : Call} {c : Nat} {waiting : List Call} {opened : Nat} {k : Nat → Connection}
      {calls : Nat} :
      c < opened → (k c).Settled →
      Custody past ⟨⟨none, waiting, some (call, .writing c), opened⟩, k, false, calls⟩
  | sent {call : Call} {c : Nat} {waiting : List Call} {opened : Nat} {k : Nat → Connection}
      {calls : Nat} :
      c < opened → Owes past c call (k c) →
      Custody past ⟨⟨none, waiting, some (call, .writing c), opened⟩, k, true, calls⟩
  | reading {call : Call} {c : Nat} {waiting : List Call} {opened : Nat} {k : Nat → Connection}
      {calls : Nat} :
      c < opened → Owes past c call (k c) →
      Custody past ⟨⟨none, waiting, some (call, .reading c), opened⟩, k, true, calls⟩

namespace Custody

theorem wait {l : Line} {k : Nat → Connection} {sent : Bool} {calls calls' : Nat}
    (h : Custody past ⟨l, k, sent, calls⟩) (waiting : List Call) :
    Custody (x :: past) ⟨{ l with waiting := waiting }, k, sent, calls'⟩ := by
  cases h with
  | idle hkept => exact .idle hkept
  | connecting => exact .connecting
  | ready hc hsettled => exact .ready hc hsettled
  | sent hc howes => exact .sent hc howes.mono
  | reading hc howes => exact .reading hc howes.mono

theorem kept_eq_none {a : Call × Phase} (h : Custody past s) (ha : s.line.active = some a) :
    s.line.kept = none := by
  cases h with
  | idle => cases ha
  | connecting | ready | sent | reading => rfl

/-- A call that fails or is given up leaves the line without a connection. -/
theorem lose {kept : Option Nat} {waiting : List Call} {a : Call × Phase} {opened : Nat}
    {k : Nat → Connection} {sent : Bool} {calls : Nat}
    (h : Custody past ⟨⟨kept, waiting, some a, opened⟩, k, sent, calls⟩) :
    Custody (x :: past) ⟨⟨kept, waiting, none, opened⟩, k, sent, calls⟩ := by
  obtain rfl : kept = none := h.kept_eq_none rfl
  exact .idle nofun

/-- An answer reaches the call that waits for it, or nobody. -/
theorem answer {rest : List Call} {reply : ByteArray} (h : Custody past s)
    (hc : (s.connections c).unanswered = call :: rest) :
    Custody (.answered c call reply :: past)
      { s with
        connections := Function.update s.connections c
          ⟨rest, (s.connections c).unread ++ [reply]⟩ } := by
  cases h with
  | idle hkept =>
      refine .idle fun c' hc' ↦ ?_
      obtain ⟨hopened, hsettled⟩ := hkept c' hc'
      exact ⟨hopened, hsettled.answered hc⟩
  | connecting => exact .connecting
  | ready hopened hsettled => exact .ready hopened (hsettled.answered hc)
  | sent hopened howes => exact .sent hopened (howes.answered hc)
  | reading hopened howes => exact .reading hopened (howes.answered hc)

theorem step (h : Custody past s) (hfresh : Fresh s) (hx : Step s x s') :
    Custody (x :: past) s' := by
  obtain ⟨⟨kept, waiting, active, opened⟩, connections, sent, calls⟩ := s
  cases hx with
  | issue payload hl =>
      obtain ⟨-, rfl, -⟩ | ⟨-, rfl, -⟩ := Line.issue_step hl
      · exact h.wait _
      · exact h.wait _
  | acquire hl hactive =>
      obtain ⟨call, rest, rfl, rfl, -, rfl⟩ := Line.acquire_step hl
      cases hactive
      cases h with
      | idle hkept =>
          cases kept with
          | none => exact .connecting
          | some c =>
              obtain ⟨hopened, hsettled⟩ := hkept c rfl
              exact .ready hopened hsettled
  | connect hl =>
      obtain ⟨call, rfl, -, rfl⟩ := Line.connected_step hl
      cases h with
      | connecting => exact .ready (Nat.lt_succ_self opened) (hfresh opened (Nat.le_refl opened))
  | send hactive hunsent =>
      cases h with
      | ready hopened hsettled =>
          cases hactive
          refine .sent hopened (.inl ?_)
          rw [Function.update_self]
          exact ⟨by rw [Connection.receive, hsettled.unanswered]; rfl, hsettled.unread⟩
      | idle | connecting => cases hactive
      | sent | reading => cases hunsent
  | write hsent hl =>
      obtain ⟨call, c, rfl, -, rfl⟩ := Line.written_step hl
      cases h with
      | ready => cases hsent
      | sent hopened howes => exact .reading hopened howes.mono
  | answer reply hc => exact h.answer hc
  | read hactive hreply hl =>
      obtain ⟨call, c, rfl, -, rfl⟩ := Line.replied_step hl
      cases hactive
      cases h with
      | reading hopened howes =>
          -- the reply is all that was on its way, so the connection is kept with nothing on it
          refine .idle ?_
          rintro c' ⟨⟩
          rw [Function.update_self]
          obtain ⟨-, hunread⟩ | ⟨_, -, hunanswered, hunread⟩ := howes
          · cases hunread.symm.trans hreply
          · cases hunread.symm.trans hreply
            exact ⟨hopened, hunanswered, rfl⟩
  | fail error hl =>
      obtain ⟨call, phase, rfl, -, rfl⟩ := Line.failed_step hl
      exact h.lose
  | abandon id hl =>
      obtain ⟨-, ⟨call, phase, rfl, -, rfl⟩ | ⟨-, rfl⟩⟩ := Line.abandoned_step hl
      · exact h.lose
      · exact h.wait _

end Custody

/-! ## Connections come and go -/

def Phase.connection : Phase → Option Nat
  | .connecting => none
  | .writing c | .reading c => some c

/-- The line keeps the connection or a call has it. -/
def Line.Uses (l : Line) (c : Nat) : Prop :=
  l.kept = some c ∨ ∃ call phase, l.active = some (call, phase) ∧ phase.connection = some c

theorem Line.not_uses {l : Line} (hkept : l.kept = none) (hactive : l.active = none) :
    ¬ l.Uses c := by
  rintro (hc | ⟨call, phase, hcall, -⟩)
  · cases hkept.symm.trans hc
  · cases hactive.symm.trans hcall

theorem Custody.lt_opened (h : Custody past s) (hc : s.line.Uses c) : c < s.line.opened := by
  cases h with
  | idle hkept =>
      obtain hc | ⟨_, _, ⟨⟩, -⟩ := hc
      exact (hkept c hc).1
  | connecting => obtain ⟨⟨⟩⟩ | ⟨_, _, ⟨⟩, ⟨⟩⟩ := hc
  | ready hopened | sent hopened | reading hopened =>
      obtain ⟨⟨⟩⟩ | ⟨_, _, ⟨⟩, ⟨⟩⟩ := hc
      exact hopened

theorem Line.Uses.of_kept {kept : Option Nat} {waiting waiting' : List Call}
    {active : Option (Call × Phase)} {opened : Nat}
    (h : Line.Uses ⟨kept, waiting, none, opened⟩ c) :
    Line.Uses ⟨kept, waiting', active, opened⟩ c := by
  obtain hkept | ⟨_, _, ⟨⟩, -⟩ := h
  exact .inl hkept

namespace Step

/-- A line comes by a connection in one way, by opening it under the next number. -/
theorem opens (hx : Step s x s') :
    x = .opened s.line.opened ∧ s'.line.opened = s.line.opened + 1 ∧
        (∀ c, s'.line.Uses c → s.line.Uses c ∨ c = s.line.opened) ∨
      (∀ c, x ≠ .opened c) ∧ s'.line.opened = s.line.opened ∧
        ∀ c, s'.line.Uses c → s.line.Uses c := by
  obtain ⟨⟨kept, waiting, active, opened⟩, connections, sent, calls⟩ := s
  cases hx with
  | issue payload hl =>
      obtain ⟨-, rfl, -⟩ | ⟨-, rfl, -⟩ := Line.issue_step hl
      · exact .inr ⟨nofun, rfl, fun c hc ↦ hc⟩
      · exact .inr ⟨nofun, rfl, fun c hc ↦ hc⟩
  | acquire hl _ =>
      obtain ⟨call, rest, rfl, rfl, -, rfl⟩ := Line.acquire_step hl
      refine .inr ⟨nofun, rfl, ?_⟩
      rintro c (⟨⟨⟩⟩ | ⟨_, _, ⟨⟩, hphase⟩)
      cases kept with
      | none => cases hphase
      | some c' => exact .inl hphase
  | connect hl =>
      obtain ⟨call, rfl, -, rfl⟩ := Line.connected_step hl
      refine .inl ⟨rfl, rfl, ?_⟩
      rintro c (hkept | ⟨_, _, ⟨⟩, ⟨⟩⟩)
      · exact .inl (.inl hkept)
      · exact .inr rfl
  | send | answer => exact .inr ⟨nofun, rfl, fun c hc ↦ hc⟩
  | write _ hl =>
      obtain ⟨call, c', rfl, -, rfl⟩ := Line.written_step hl
      refine .inr ⟨nofun, rfl, ?_⟩
      rintro c (hkept | ⟨_, _, ⟨⟩, hphase⟩)
      · exact .inl hkept
      · exact .inr ⟨call, .writing c', rfl, hphase⟩
  | read _ _ hl =>
      obtain ⟨call, c', rfl, -, rfl⟩ := Line.replied_step hl
      refine .inr ⟨nofun, rfl, ?_⟩
      rintro c (hkept | ⟨_, _, ⟨⟩, -⟩)
      exact .inr ⟨call, .reading c', rfl, hkept⟩
  | fail error hl =>
      obtain ⟨call, phase, rfl, -, rfl⟩ := Line.failed_step hl
      exact .inr ⟨nofun, rfl, fun c hc ↦ hc.of_kept⟩
  | abandon id hl =>
      obtain ⟨-, ⟨call, phase, rfl, -, rfl⟩ | ⟨-, rfl⟩⟩ := Line.abandoned_step hl
      · exact .inr ⟨nofun, rfl, fun c hc ↦ hc.of_kept⟩
      · exact .inr ⟨nofun, rfl, fun c hc ↦ hc⟩

theorem uses (hx : Step s x s') (hc : s'.line.Uses c) : s.line.Uses c ∨ x = .opened c := by
  obtain ⟨rfl, -, huses⟩ | ⟨-, -, huses⟩ := hx.opens
  · obtain hc | rfl := huses c hc
    · exact .inl hc
    · exact .inr rfl
  · exact .inl (huses c hc)

theorem uses_of_sent (hx : Step s (.sent c call) s') : s.line.Uses c := by
  cases hx with
  | send hactive _ => exact .inr ⟨call, _, hactive, rfl⟩

theorem opened_le (hx : Step s x s') : s.line.opened ≤ s'.line.opened := by
  obtain ⟨-, heq, -⟩ | ⟨-, heq, -⟩ := hx.opens
  · omega
  · omega

/-- Nothing is on its way over a connection before it is opened. -/
theorem fresh (hx : Step s x s') (h : Custody past s) (hfresh : Fresh s) : Fresh s' := by
  intro c hc
  have hc' : s.line.opened ≤ c := Nat.le_trans hx.opened_le hc
  have hsettled := hfresh c hc'
  have hne : ∀ c', s.line.Uses c' → c ≠ c' := fun c' huses ↦
    Nat.ne_of_gt (Nat.lt_of_lt_of_le (h.lt_opened huses) hc')
  cases hx with
  | send hactive _ => exact hsettled.update (hne _ (.inr ⟨_, _, hactive, rfl⟩))
  | answer _ hunanswered => exact hsettled.answered hunanswered
  | read hactive _ _ => exact hsettled.update (hne _ (.inr ⟨_, _, hactive, rfl⟩))
  | issue | acquire | connect | write | fail | abandon => exact hsettled

end Step

theorem Reaches.custody_and_fresh (h : Reaches past s) : Custody past s ∧ Fresh s := by
  have hidle : Custody [] .idle ∧ Fresh .idle :=
    ⟨.idle nofun, fun _ _ ↦ Connection.settled_quiet⟩
  refine Reaches.invariant (I := fun past s ↦ Custody past s ∧ Fresh s) hidle ?_ h
  rintro past s x s' ⟨hcustody, hfresh⟩ hx
  exact ⟨hcustody.step hfresh hx, hx.fresh hcustody hfresh⟩

theorem Reaches.custody (h : Reaches past s) : Custody past s :=
  h.custody_and_fresh.1

namespace Run

theorem uses (h : Run s later s') (hc : s'.line.Uses c) : s.line.Uses c ∨ .opened c ∈ later := by
  induction h with
  | refl => exact .inl hc
  | step _ hx ih =>
      obtain hc | rfl := hx.uses hc
      · exact (ih hc).imp_right (List.mem_cons_of_mem _)
      · exact .inr List.mem_cons_self

theorem uses_of_sent (h : Run s later s') (hx : .sent c call ∈ later) :
    s.line.Uses c ∨ .opened c ∈ later := by
  obtain ⟨_, before, _, _, rfl, hbefore, hstep, -⟩ := h.cut hx
  obtain hc | hc := hbefore.uses hstep.uses_of_sent
  · exact .inl hc
  · exact .inr (List.mem_append_right _ (List.mem_cons_of_mem _ hc))

theorem opened_le (h : Run s later s') : s.line.opened ≤ s'.line.opened := by
  induction h with
  | refl => exact Nat.le_refl _
  | step _ hx ih => exact Nat.le_trans ih hx.opened_le

theorem le_of_opened (h : Run s later s') (hx : .opened c ∈ later) : s.line.opened ≤ c := by
  obtain ⟨_, _, t, _, -, hbefore, hstep, -⟩ := h.cut hx
  obtain ⟨⟨⟩, -⟩ | ⟨hnot, -⟩ := hstep.opens
  · exact hbefore.opened_le
  · cases hnot c rfl

end Run

theorem Reaches.lt_opened_of_sent (h : Reaches past s) (hx : .sent c call ∈ past) :
    c < s.line.opened := by
  obtain ⟨_, _, t, _, -, hbefore, hstep, hafter⟩ := h.cut hx
  have hlt : c < t.line.opened := Reaches.custody hbefore |>.lt_opened hstep.uses_of_sent
  have hle : t.line.opened ≤ s.line.opened := Nat.le_trans hstep.opened_le hafter.opened_le
  exact Nat.lt_of_lt_of_le hlt hle

end RemoteObjects.Tcp
