import RemoteObjects.Proofs.Tcp.Traffic

/-!
# Calls take turns

The queue of a line keeps the order in which calls are made.  A call leaves it from the front, when
it gets its turn, or is given up; and only the call that got its turn last can send a request.  So
requests go out in the order of the turns, and turns are taken in the order of the calls.
-/

namespace RemoteObjects.Tcp

open Transport (Error maxFrame)

variable {past : List Happening} {s s' : Traffic} {x : Happening}

/-- The order of the calls of a line. -/
structure Order (past : List Happening) (s : Traffic) : Prop where
  numbered : (issues past).map (·.id) = (List.range s.calls).reverse
  /-- Calls wait, and have got their turn, in the order in which they were made. -/
  queued : List.Sublist (s.line.waiting.reverse ++ turns past)
    ((issues past).filter (·.payload.size ≤ maxFrame))
  /-- The call whose turn it is came last, and its request goes out once. -/
  latest : ∀ call phase, s.line.active = some (call, phase) →
    ∃ earlier, turns past = call :: earlier ∧
      (s.sent = false → List.Sublist ((sends past).map (·.2)) earlier)
  sent : List.Sublist ((sends past).map (·.2)) (turns past)
  underWay : underWay past = (s.line.active.map (·.1.id)).toList

namespace Order

theorem idle : Order [] .idle := by
  refine ⟨rfl, .slnil, ?_, .slnil, rfl⟩
  rintro call phase ⟨⟩

/-- A call of the queue that nobody waits for any more leaves it. -/
theorem forsaken {waiting : List Call} {turned made : List Call} (keep : Call → Bool)
    (h : List.Sublist (waiting.reverse ++ turned) made) :
    List.Sublist ((waiting.filter keep).reverse ++ turned) made :=
  ((List.filter_sublist.reverse).append_right turned).trans h

theorem step (h : Order past s) (hx : Step s x s') : Order (x :: past) s' := by
  obtain ⟨⟨kept, waiting, active, opened⟩, connections, sent, calls⟩ := s
  obtain ⟨hnumbered, hqueued, hlatest, hsent, hunderWay⟩ := h
  simp only at hnumbered hqueued hlatest hunderWay
  cases hx with
  | issue payload hl =>
      have hnumbered' : calls :: (issues past).map (·.id) = (List.range (calls + 1)).reverse := by
        rw [hnumbered, List.range_succ, List.reverse_append]
        rfl
      obtain ⟨hlong, rfl, rfl⟩ | ⟨hshort, rfl, rfl⟩ := Line.issue_step hl
      · refine ⟨hnumbered', ?_, hlatest, hsent, hunderWay⟩
        rw [issues_issued, List.filter_cons_of_neg (by simpa using hlong)]
        exact hqueued
      · refine ⟨hnumbered', ?_, hlatest, hsent, hunderWay⟩
        rw [issues_issued, List.filter_cons_of_pos (by simpa using hshort)]
        rw [List.reverse_append]
        exact hqueued.cons_cons _
  | acquire hl hactive =>
      obtain ⟨call, rest, rfl, rfl, -, rfl⟩ := Line.acquire_step hl
      cases hactive
      refine ⟨hnumbered, ?_, ?_, hsent.cons _, ?_⟩
      · rw [List.reverse_cons, List.append_assoc] at hqueued
        exact hqueued
      · rintro call' phase' ⟨⟩
        exact ⟨turns past, rfl, fun _ ↦ hsent⟩
      · simpa [Tcp.underWay] using hunderWay
  | connect hl =>
      obtain ⟨call, rfl, -, rfl⟩ := Line.connected_step hl
      refine ⟨hnumbered, hqueued, ?_, hsent, hunderWay⟩
      rintro call' phase' ⟨⟩
      exact hlatest _ _ rfl
  | @send call c hactive hunsent =>
      obtain ⟨earlier, hturns, hearlier⟩ := hlatest call _ hactive
      refine ⟨hnumbered, hqueued, ?_, ?_, hunderWay⟩
      · intro call' phase' hactive'
        obtain ⟨earlier', hturns', -⟩ := hlatest call' phase' hactive'
        exact ⟨earlier', hturns', nofun⟩
      · -- until now the requests that went out were those of earlier turns
        rw [sends_sent, List.map_cons]
        exact hturns ▸ (hearlier hunsent).cons_cons call
  | write _ hl =>
      obtain ⟨call, c, rfl, -, rfl⟩ := Line.written_step hl
      refine ⟨hnumbered, hqueued, ?_, hsent, hunderWay⟩
      rintro call' phase' ⟨⟩
      exact hlatest _ _ rfl
  | answer reply hrest => exact ⟨hnumbered, hqueued, hlatest, hsent, hunderWay⟩
  | read _ _ hl =>
      obtain ⟨call, c, rfl, he, rfl⟩ := Line.replied_step hl
      cases he
      refine ⟨hnumbered, hqueued, nofun, hsent, ?_⟩
      simp [Tcp.underWay, hunderWay]
  | fail error hl =>
      obtain ⟨call, phase, rfl, he, rfl⟩ := Line.failed_step hl
      cases he
      refine ⟨hnumbered, hqueued, nofun, hsent, ?_⟩
      simp [Tcp.underWay, hunderWay]
  | abandon id hl =>
      obtain ⟨-, ⟨call, phase, rfl, rfl, rfl⟩ | ⟨hother, rfl⟩⟩ := Line.abandoned_step hl
      · refine ⟨hnumbered, hqueued, nofun, hsent, ?_⟩
        simp [Tcp.underWay, hunderWay]
      · refine ⟨hnumbered, forsaken _ hqueued, hlatest, hsent, ?_⟩
        obtain _ | ⟨call, phase⟩ := active
        · simp [Tcp.underWay, hunderWay]
        · have hid : call.id ≠ id := hother call phase rfl
          simp [Tcp.underWay, hunderWay, hid]

end Order

theorem Reaches.order (h : Reaches past s) : Order past s :=
  h.invariant .idle .step

/-! ## What the order says of single calls -/

namespace Order

theorem turns_sublist (h : Order past s) :
    List.Sublist (turns past) ((issues past).filter (·.payload.size ≤ maxFrame)) :=
  (List.sublist_append_right _ _).trans h.queued

theorem issues_nodup (h : Order past s) : ((issues past).map (·.id)).Nodup := by
  rw [h.numbered, List.nodup_reverse]
  exact List.nodup_range

theorem sends_nodup (h : Order past s) : ((sends past).map (·.2.id)).Nodup := by
  have hsent : List.Sublist ((sends past).map (·.2)) (issues past) :=
    h.sent.trans (h.turns_sublist.trans List.filter_sublist)
  have hids := hsent.map (·.id)
  rw [List.map_map] at hids
  exact h.issues_nodup.sublist hids

end Order

theorem mem_issues {call : Call} : call ∈ issues past ↔ ∃ ended, .issued call ended ∈ past := by
  rw [issues, List.mem_filterMap]
  constructor
  · rintro ⟨x, hx, heq⟩
    cases x with
    | issued call' ended =>
        cases heq
        exact ⟨ended, hx⟩
    | _ => cases heq
  · rintro ⟨ended, hx⟩
    exact ⟨_, hx, rfl⟩

theorem mem_sends {c : Nat} {call : Call} : (c, call) ∈ sends past ↔ .sent c call ∈ past := by
  rw [sends, List.mem_filterMap]
  constructor
  · rintro ⟨x, hx, heq⟩
    cases x with
    | sent c' call' =>
        cases heq
        exact hx
    | _ => cases heq
  · intro hx
    exact ⟨_, hx, rfl⟩

/-- What a call ends with at once: one that is too long is refused, any other one waits. -/
def Call.refusal (call : Call) : Option Ended :=
  if maxFrame < call.payload.size then
    some (call.id, .error (.payloadTooLarge call.payload.size))
  else none

theorem Call.refusal_eq_none {call : Call} :
    call.refusal = none ↔ call.payload.size ≤ maxFrame := by
  simp [refusal]

theorem Step.refusal {call : Call} {ended : Option Ended} (h : Step s (.issued call ended) s') :
    ended = call.refusal := by
  cases h with
  | issue payload hl =>
      obtain ⟨hlong, -, rfl⟩ | ⟨hshort, -, rfl⟩ := Line.issue_step hl
      · exact (if_pos hlong).symm
      · exact (Call.refusal_eq_none.mpr hshort).symm

variable {c c' : Nat} {call call' : Call} {ended ended' : Option Ended}

theorem Reaches.refusal (h : Reaches past s) (hx : .issued call ended ∈ past) :
    ended = call.refusal := by
  obtain ⟨_, _, _, _, -, -, hstep, -⟩ := h.cut hx
  exact hstep.refusal

theorem Reaches.issued_of_turn (h : Reaches past s) (hcall : call ∈ turns past) :
    .issued call none ∈ past := by
  obtain ⟨hissued, hshort⟩ := List.mem_filter.mp (h.order.turns_sublist.subset hcall)
  obtain ⟨ended, hx⟩ := mem_issues.mp hissued
  have hended : ended = none :=
    (h.refusal hx).trans (Call.refusal_eq_none.mpr (of_decide_eq_true hshort))
  exact hended ▸ hx

theorem Reaches.issued_of_sent (h : Reaches past s) (hx : .sent c call ∈ past) :
    .issued call none ∈ past :=
  h.issued_of_turn (h.order.sent.subset (List.mem_map.mpr ⟨_, mem_sends.mpr hx, rfl⟩))

theorem Reaches.issued_unique (h : Reaches past s) (hx : .issued call ended ∈ past)
    (hx' : .issued call' ended' ∈ past) (hid : call.id = call'.id) : call = call' :=
  List.inj_on_of_nodup_map h.order.issues_nodup (mem_issues.mpr ⟨_, hx⟩) (mem_issues.mpr ⟨_, hx'⟩)
    hid

theorem Reaches.sent_unique (h : Reaches past s) (hx : .sent c call ∈ past)
    (hx' : .sent c' call' ∈ past) (hid : call.id = call'.id) : c = c' ∧ call = call' :=
  Prod.mk.inj
    (List.inj_on_of_nodup_map h.order.sends_nodup (mem_sends.mpr hx) (mem_sends.mpr hx') hid)

end RemoteObjects.Tcp
