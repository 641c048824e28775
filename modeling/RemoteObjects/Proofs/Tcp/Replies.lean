import RemoteObjects.Proofs.Tcp.Custody

/-!
# Every call gets its own reply

A call reads from the connection that carries its request and nothing else, so the reply that it
returns is the one with which the server answered that request.  A call that fails or is given up
before leaves its connection behind, with whatever is still to come over it.
-/

namespace RemoteObjects.Tcp

open Transport (Error maxFrame)

variable {past : List Happening} {s s' : Traffic} {x : Happening} {c c' : Nat} {call call' : Call}
  {reply reply' : ByteArray}

/-! ## What the server answers -/

theorem mem_answers : (call, reply) ∈ answers c past ↔ .answered c call reply ∈ past := by
  rw [answers, List.mem_filterMap]
  constructor
  · rintro ⟨x, hx, heq⟩
    cases x with
    | answered c' call' reply' =>
        obtain ⟨rfl, ⟨⟩⟩ := Option.ite_none_right_eq_some.mp heq
        exact hx
    | _ => cases heq
  · intro hx
    exact ⟨_, hx, if_pos rfl⟩

/-- The requests that went out over a connection, the last one first. -/
def requests (c : Nat) (past : List Happening) : List Call :=
  ((sends past).filter (·.1 = c)).map (·.2)

theorem requests_sent :
    requests c (.sent c' call :: past) =
      if c' = c then call :: requests c past else requests c past := by
  by_cases heq : c' = c <;> simp [requests, heq]

theorem answers_answered :
    answers c (.answered c' call reply :: past) =
      if c' = c then (call, reply) :: answers c past else answers c past := by
  by_cases heq : c' = c <;> simp [answers, heq]

/-- The requests over a connection were answered in their order, up to those that still lack an
answer. -/
def Served (c : Nat) (past : List Happening) (k : Connection) : Prop :=
  requests c past = k.unanswered.reverse ++ (answers c past).map (·.1)

namespace Served

variable {k : Connection}

theorem receive (h : Served c past k) : Served c (.sent c call :: past) (k.receive call) := by
  rw [Served, requests_sent, if_pos rfl, h, Connection.receive, List.reverse_append]
  rfl

theorem sent_elsewhere (h : Served c past k) (hne : c' ≠ c) :
    Served c (.sent c' call :: past) k := by
  rw [Served, requests_sent, if_neg hne]
  exact h

theorem answer {rest : List Call} {unread : List ByteArray} (h : Served c past k)
    (hrest : k.unanswered = call :: rest) :
    Served c (.answered c call reply :: past) ⟨rest, unread⟩ := by
  rw [Served, hrest, List.reverse_cons, List.append_assoc] at h
  rw [Served, answers_answered, if_pos rfl]
  exact h

theorem answered_elsewhere (h : Served c past k) (hne : c' ≠ c) :
    Served c (.answered c' call reply :: past) k := by
  rw [Served, answers_answered, if_neg hne]
  exact h

theorem step (h : Served c past (s.connections c)) (hx : Step s x s') :
    Served c (x :: past) (s'.connections c) := by
  cases hx with
  | @send call c' hactive hunsent =>
      by_cases heq : c' = c
      · subst heq
        simpa using h.receive
      · simpa [Ne.symm heq] using h.sent_elsewhere heq
  | @answer call c' rest reply hrest =>
      by_cases heq : c' = c
      · subst heq
        simpa using h.answer hrest
      · simpa [Ne.symm heq] using h.answered_elsewhere heq
  | @read call c' reply rest l e hactive hreply hl =>
      have hread : Served c (.ended e :: past) (s.connections c) := h
      by_cases heq : c' = c
      · subst heq
        simpa [Served] using hread
      · simpa [Ne.symm heq] using hread
  | issue | acquire | connect | write | fail | abandon => exact h

end Served

theorem Reaches.served (h : Reaches past s) : Served c past (s.connections c) :=
  Reaches.invariant (I := fun past s ↦ Served c past (s.connections c)) rfl Served.step h

theorem Reaches.sent_of_answered (h : Reaches past s) (hx : .answered c call reply ∈ past) :
    .sent c call ∈ past := by
  have hanswered : call ∈ (answers c past).map (·.1) :=
    List.mem_map.mpr ⟨_, mem_answers.mpr hx, rfl⟩
  have hrequest : call ∈ requests c past := h.served ▸ List.mem_append_right _ hanswered
  obtain ⟨⟨c', _⟩, hsent, rfl⟩ := List.mem_map.mp hrequest
  obtain ⟨hsends, hc⟩ := List.mem_filter.mp hsent
  obtain rfl : c' = c := of_decide_eq_true hc
  exact mem_sends.mp hsends

theorem Reaches.answers_nodup (h : Reaches past s) : ((answers c past).map (·.1)).Nodup := by
  have hrequests : ((requests c past).map (·.id)).Nodup := by
    rw [requests, List.map_map]
    exact h.order.sends_nodup.sublist (List.filter_sublist.map _)
  exact (h.served ▸ hrequests.of_map).of_append_right

theorem Reaches.answered_unique (h : Reaches past s) (hx : .answered c call reply ∈ past)
    (hx' : .answered c' call' reply' ∈ past) (hid : call.id = call'.id) :
    call = call' ∧ reply = reply' := by
  obtain ⟨rfl, rfl⟩ := h.sent_unique (h.sent_of_answered hx) (h.sent_of_answered hx') hid
  have heq : (call, reply) = (call, reply') :=
    List.inj_on_of_nodup_map h.answers_nodup (mem_answers.mpr hx) (mem_answers.mpr hx') rfl
  exact ⟨rfl, (Prod.mk.inj heq).2⟩

/-! ## What a call returns -/

/-- What a call ends with, at once or after its turn. -/
def Returned (past : List Happening) (id : Nat) (result : Except Error ByteArray) : Prop :=
  .ended (id, result) ∈ past ∨ ∃ call, .issued call (some (id, result)) ∈ past

theorem Custody.owes (h : Custody past s) (hactive : s.line.active = some (call, .reading c)) :
    Owes past c call (s.connections c) := by
  cases h with
  | reading _ howes =>
      cases hactive
      exact howes
  | idle | connecting | ready | sent => cases hactive

theorem Owes.answered_of_unread {k : Connection} {rest : List ByteArray} (h : Owes past c call k)
    (hreply : k.unread = reply :: rest) : .answered c call reply ∈ past := by
  obtain ⟨-, hunread⟩ | ⟨reply', hanswered, -, hunread⟩ := h
  · cases hunread.symm.trans hreply
  · cases hunread.symm.trans hreply
    exact hanswered

theorem Reaches.answered_of_ended {id : Nat} (h : Reaches past s)
    (hx : .ended (id, .ok reply) ∈ past) :
    ∃ call c, call.id = id ∧ .answered c call reply ∈ past := by
  obtain ⟨later, before, t, t', rfl, hbefore, hstep, -⟩ := h.cut hx
  have hcustody : Custody before t := Reaches.custody hbefore
  cases hstep with
  | @read call c reply' rest l _ hactive hreply hl =>
      obtain ⟨call', c', hactive', he, -⟩ := Line.replied_step hl
      cases hactive.symm.trans hactive'
      cases he
      have hanswered := (hcustody.owes hactive).answered_of_unread hreply
      exact ⟨call, c, rfl, List.mem_append_right _ (List.mem_cons_of_mem _ hanswered)⟩
  | fail error hl =>
      obtain ⟨call, phase, -, he, -⟩ := Line.failed_step hl
      cases he

theorem Reaches.ownReply {id : Nat} (h : Reaches past s) (hreply : Returned past id (.ok reply)) :
    ∃ call c, call.id = id ∧ .issued call none ∈ past ∧ .sent c call ∈ past ∧
      .answered c call reply ∈ past := by
  obtain hended | ⟨call, hissued⟩ := hreply
  · obtain ⟨call, c, hid, hanswered⟩ := h.answered_of_ended hended
    have hsent := h.sent_of_answered hanswered
    exact ⟨call, c, hid, h.issued_of_sent hsent, hsent, hanswered⟩
  · -- a call that ends at once was refused
    have hrefusal := h.refusal hissued
    rw [Call.refusal] at hrefusal
    split at hrefusal
    · cases hrefusal
    · cases hrefusal

theorem Custody.settled (h : Custody past s) (hc : s.line.kept = some c) :
    (s.connections c).Settled := by
  cases h with
  | idle hkept => exact (hkept c hc).2
  | connecting | ready | sent | reading => cases hc

/-! ## Calls that go wrong -/

/-- The call whose turn it is fails or is given up. -/
def Breaks (s : Traffic) : Happening → Prop
  | .ended e => ∃ error, e.2 = .error error
  | .abandoned id => ∃ call phase, s.line.active = some (call, phase) ∧ call.id = id
  | _ => False

theorem Step.lost (hx : Step s x s') (h : Custody past s) (hbreaks : Breaks s x) :
    s'.line.kept = none ∧ s'.line.active = none := by
  cases hx with
  | read _ _ hl =>
      obtain ⟨call, c, -, he, -⟩ := Line.replied_step hl
      cases he
      obtain ⟨error, ⟨⟩⟩ := hbreaks
  | fail error hl =>
      obtain ⟨call, phase, hactive, -, rfl⟩ := Line.failed_step hl
      exact ⟨h.kept_eq_none hactive, rfl⟩
  | abandon id hl =>
      obtain ⟨call, phase, hactive, hid⟩ := hbreaks
      obtain ⟨-, ⟨_, _, _, _, rfl⟩ | ⟨hother, -⟩⟩ := Line.abandoned_step hl
      · exact ⟨h.kept_eq_none hactive, rfl⟩
      · exact absurd hid (hother call phase hactive)
  | issue | acquire | connect | send | write | answer => exact hbreaks.elim

/-- After the line has lost its connection, requests go over connections that are opened then. -/
theorem Run.sent_over_new {s'' : Traffic} (hrun : Run s' later s'') (h : Reaches past s)
    (hx : Step s x s') (hkept : s'.line.kept = none) (hactive : s'.line.active = none)
    (hsent : .sent c call ∈ later) : .opened c ∈ later ∧ ∀ call', .sent c call' ∉ past := by
  have hopened : .opened c ∈ later :=
    (hrun.uses_of_sent hsent).resolve_left (Line.not_uses hkept hactive)
  refine ⟨hopened, fun call' hbefore ↦ ?_⟩
  have hlt : c < s.line.opened := h.lt_opened_of_sent hbefore
  have hle : s.line.opened ≤ c := Nat.le_trans hx.opened_le (hrun.le_of_opened hopened)
  omega

/-- A call that is too long ends at once and leaves everything as it is. -/
theorem Step.refused_iff {payload : ByteArray} {ended : Option Ended}
    (hlong : maxFrame < payload.size) :
    Step s (.issued ⟨s.calls, payload⟩ ended) s' ↔
      ended = some (s.calls, .error (.payloadTooLarge payload.size)) ∧
        s' = { s with calls := s.calls + 1 } := by
  constructor
  · intro hx
    cases hx with
    | issue _ hl =>
        obtain ⟨-, rfl, rfl⟩ | ⟨hshort, -, -⟩ := Line.issue_step hl
        · exact ⟨rfl, rfl⟩
        · exact absurd hlong (Nat.not_lt_of_le hshort)
  · rintro ⟨rfl, rfl⟩
    exact .issue payload (if_pos hlong)

theorem Step.active_of_ended {e : Ended} (hx : Step s (.ended e) s') :
    ∃ call phase, s.line.active = some (call, phase) ∧ call.id = e.1 := by
  cases hx with
  | read _ _ hl =>
      obtain ⟨call, c, hactive, he, -⟩ := Line.replied_step hl
      cases he
      exact ⟨call, _, hactive, rfl⟩
  | fail error hl =>
      obtain ⟨call, phase, hactive, he, -⟩ := Line.failed_step hl
      cases he
      exact ⟨call, phase, hactive, rfl⟩

/-! ## Calls that go well -/

/-- Whether there is a way for a call to return a reply. -/
def Answerable (s : Traffic) (id : Nat) : Prop :=
  ∃ reply later s', Run s later s' ∧ .ended (id, .ok reply) ∈ later

namespace Answerable

variable {id : Nat}

theorem of_step (hx : Step s x s') (h : Answerable s' id) : Answerable s id := by
  obtain ⟨reply, later, u, hrun, hended⟩ := h
  exact ⟨reply, later ++ [x], u, hrun.after hx, List.mem_append_left _ hended⟩

theorem of_unread {rest : List ByteArray} (hactive : s.line.active = some (call, .reading c))
    (hreply : (s.connections c).unread = reply :: rest) : Answerable s call.id := by
  have hl : s.line.step? (.replied reply) =
      some ({ s.line with kept := some c, active := none }, some (call.id, .ok reply)) := by
    rw [Line.step?, hactive]
  exact ⟨reply, _, _, Run.refl.step (.read hactive hreply hl), List.mem_cons_self⟩

theorem of_reading (h : Custody past s) (hactive : s.line.active = some (call, .reading c)) :
    Answerable s call.id := by
  obtain ⟨hunanswered, hunread⟩ | ⟨reply, -, -, hunread⟩ := h.owes hactive
  · have hreply : (Function.update s.connections c
        ⟨[], (s.connections c).unread ++ [.empty]⟩ c).unread = [.empty] := by
      rw [Function.update_self, hunread]
      rfl
    exact of_step (.answer .empty hunanswered) (of_unread hactive hreply)
  · exact of_unread hactive hunread

theorem of_sent (h : Reaches past s) (hactive : s.line.active = some (call, .writing c))
    (hsent : s.sent = true) : Answerable s call.id := by
  have hx : Step s .written { s with line := { s.line with active := some (call, .reading c) } } :=
    .write hsent (by rw [Line.step?, hactive])
  have hreading : Reaches (.written :: past) _ := h.step hx
  exact of_step hx (of_reading hreading.custody rfl)

theorem of_writing (h : Reaches past s) (hactive : s.line.active = some (call, .writing c)) :
    Answerable s call.id := by
  cases hsent : s.sent with
  | true => exact of_sent h hactive hsent
  | false =>
      have hx := Step.send hactive hsent
      exact of_step hx (of_sent (h.step hx) hactive rfl)

theorem of_active {phase : Phase} (h : Reaches past s)
    (hactive : s.line.active = some (call, phase)) : Answerable s call.id := by
  cases phase with
  | connecting =>
      have hx : Step s (.opened s.line.opened)
          { s with line := { s.line with
            active := some (call, .writing s.line.opened), opened := s.line.opened + 1 } } :=
        .connect (by rw [Line.step?, hactive])
      exact of_step hx (of_writing (h.step hx) rfl)
  | writing c => exact of_writing h hactive
  | reading c => exact of_reading h.custody hactive

end Answerable

/-! ## The line as a whole -/

/-- What can be relied on whatever the calls, the server and the network do. -/
structure Orderly (past : List Happening) (s : Traffic) : Prop where
  /-- A reply that a call returns is the one that the server gave to the request of that call. -/
  ownReply : ∀ id reply, Returned past id (.ok reply) →
    ∃ call c, call.id = id ∧ .issued call none ∈ past ∧ .sent c call ∈ past ∧
      .answered c call reply ∈ past
  oneCall : ∀ call call' ended ended', .issued call ended ∈ past → .issued call' ended' ∈ past →
    call.id = call'.id → call = call'
  oneAnswer : ∀ c c' call call' reply reply', .answered c call reply ∈ past →
    .answered c' call' reply' ∈ past → call.id = call'.id → call = call' ∧ reply = reply'
  /-- A call that has its turn may yet be answered, whatever went before. -/
  answerable : ∀ call phase, s.line.active = some (call, phase) → Answerable s call.id
  keptSettled : ∀ c, s.line.kept = some c → (s.connections c).Settled
  /-- When a call has gone wrong in its turn, nothing is kept, and whoever sends a request after
  that does so over a connection that was opened after that. -/
  reconnects : ∀ x s', Step s x s' → Breaks s x →
    s'.line.kept = none ∧ s'.line.active = none ∧
      ∀ later s'', Run s' later s'' → ∀ c call, .sent c call ∈ later →
        .opened c ∈ later ∧ ∀ call', .sent c call' ∉ past
  refuses : ∀ payload, maxFrame < payload.size → ∀ ended s',
    Step s (.issued ⟨s.calls, payload⟩ ended) s' ↔
      ended = some (s.calls, .error (.payloadTooLarge payload.size)) ∧
        s' = { s with calls := s.calls + 1 }
  fits : ∀ c call, .sent c call ∈ past → call.payload.size ≤ maxFrame
  oneExchange : (underWay past).length ≤ 1
  sentInTurn : ∀ c call s', Step s (.sent c call) s' → underWay past = [call.id]
  endedInTurn : ∀ e s', Step s (.ended e) s' → underWay past = [e.1]
  /-- Requests go out in the order of the turns, and turns are taken in the order of the calls. -/
  inOrder : List.Sublist ((sends past).map (·.2)) (turns past) ∧
    List.Sublist (turns past) (issues past) ∧ ((issues past).map (·.id)).Nodup

theorem no_stale_reply (h : Reaches past s) : Orderly past s where
  ownReply _ _ hreply := h.ownReply hreply
  oneCall _ _ _ _ hx hx' hid := h.issued_unique hx hx' hid
  oneAnswer _ _ _ _ _ _ hx hx' hid := h.answered_unique hx hx' hid
  answerable _ _ hactive := .of_active h hactive
  keptSettled _ hc := h.custody.settled hc
  reconnects := by
    intro x s' hx hbreaks
    obtain ⟨hkept, hactive⟩ := hx.lost h.custody hbreaks
    refine ⟨hkept, hactive, ?_⟩
    intro later s'' hrun c call hsent
    exact hrun.sent_over_new h hx hkept hactive hsent
  refuses _ hlong _ _ := Step.refused_iff hlong
  fits := by
    intro c call hsent
    exact Call.refusal_eq_none.mp (h.refusal (h.issued_of_sent hsent)).symm
  oneExchange := by
    rw [h.order.underWay]
    cases s.line.active with
    | none => exact Nat.zero_le 1
    | some => exact Nat.le_refl 1
  sentInTurn := by
    intro c call s' hx
    cases hx with
    | send hactive _ =>
        rw [h.order.underWay, hactive]
        rfl
  endedInTurn := by
    intro e s' hx
    obtain ⟨call, phase, hactive, hid⟩ := hx.active_of_ended
    rw [h.order.underWay, hactive]
    exact congrArg (fun id ↦ [id]) hid
  inOrder := ⟨h.order.sent, h.order.turns_sublist.trans List.filter_sublist, h.order.issues_nodup⟩

namespace LateReply

def first : Call := ⟨0, ⟨#[0]⟩⟩
def second : Call := ⟨1, ⟨#[1]⟩⟩

/-- The first call is given up when its request is out, the server answers it nevertheless, and
then the second call gets its turn. -/
def events : List Happening :=
  [.ended (1, .ok ⟨#[11]⟩), .answered 1 second ⟨#[11]⟩, .written, .sent 1 second, .opened 1,
    .acquired second, .answered 0 first ⟨#[10]⟩, .abandoned 0, .sent 0 first, .opened 0,
    .acquired first, .issued second none, .issued first none]

end LateReply

open LateReply in
theorem no_stale_reply_of_late :
    ∃ s, Reaches events s ∧ (s.connections 0).unread = [⟨#[10]⟩] ∧ s.line.kept = some 1 ∧
      Orderly events s := by
  have hissued : Reaches [.issued second none, .issued first none]
      ⟨⟨none, [first, second], none, 0⟩, fun _ ↦ .quiet, false, 2⟩ :=
    (Run.refl.step (.issue first.payload rfl)).step (.issue second.payload rfl)
  have hturn : Reaches _
      ⟨⟨none, [second], some (first, .writing 0), 1⟩, fun _ ↦ .quiet, false, 2⟩ :=
    (hissued.step (.acquire rfl rfl)).step (.connect rfl)
  have hlost : Reaches _ ⟨⟨none, [second], none, 1⟩, _, true, 2⟩ :=
    (hturn.step (.send rfl rfl)).step (.abandon 0 rfl)
  have hlate := hlost.step (.answer (c := 0) ⟨#[10]⟩ rfl)
  have hturn' : Reaches _ ⟨⟨none, [], some (second, .writing 1), 2⟩, _, false, 2⟩ :=
    (hlate.step (.acquire rfl rfl)).step (.connect rfl)
  have hread : Reaches _ ⟨⟨none, [], some (second, .reading 1), 2⟩, _, true, 2⟩ :=
    (hturn'.step (.send rfl rfl)).step (.write rfl rfl)
  have hall : Reaches events ⟨⟨some 1, [], none, 2⟩, _, true, 2⟩ :=
    (hread.step (.answer (c := 1) ⟨#[11]⟩ rfl)).step (.read rfl rfl rfl)
  exact ⟨_, hall, rfl, rfl, no_stale_reply hall⟩

end RemoteObjects.Tcp
