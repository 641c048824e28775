import Mathlib.Algebra.Order.Floor.Div
import Mathlib.Order.Interval.Finset.Nat
import RemoteObjects.Pool

/-!
# A pool is fair to its servers

Any number of tasks may ask a pool for servers.  A task draws a turn in one go, so no two tasks draw
the same one, and some time later it looks up the server whose turn that is.  In whatever order the
tasks get to do so, each is answered as if the calls had come one after another in the order of
their turns, and so no server is handed out more often than another, but for the last round.
-/

namespace RemoteObjects.ServerPool

/-! ## Turns and positions -/

section Turns

variable {n i k N : Nat}

/-- How many of the `N` turns from the `k`-th on fall on a position among `n`. -/
def turnsAt (n k N i : Nat) : Nat := (List.range' k N).countP fun j ↦ j % n = i

theorem turnsAt_add (n k M N i : Nat) :
    turnsAt n k (M + N) i = turnsAt n k M i + turnsAt n (k + M) N i := by
  rw [turnsAt, ← List.range'_append_1, List.countP_append]
  rfl

theorem turnsAt_self (hi : i < n) (k : Nat) : turnsAt n k n i = 1 := by
  have hperm : ((List.range' k n).map (· % n)).Perm (List.range n) := by
    apply Multiset.coe_eq_coe.mp
    have hround := Nat.multiset_Ico_map_mod k n
    simpa [Multiset.Ico, Nat.Ico_eq_range', Multiset.range] using hround
  calc turnsAt n k n i = ((List.range' k n).map (· % n)).count i := by
        rw [List.count, List.countP_map]
        rfl
    _ = (List.range n).count i := hperm.count_eq i
    _ = 1 := List.count_eq_one_of_mem List.nodup_range (List.mem_range.mpr hi)

theorem turnsAt_mul (hi : i < n) (k q : Nat) : turnsAt n k (n * q) i = q := by
  induction q with
  | zero => rfl
  | succ q ih => rw [Nat.mul_succ, turnsAt_add, ih, turnsAt_self hi]

theorem turnsAt_le_one (hi : i < n) (k : Nat) (hN : N ≤ n) : turnsAt n k N i ≤ 1 := by
  have hsplit := turnsAt_add n k N (n - N) i
  rw [Nat.add_sub_cancel' hN, turnsAt_self hi] at hsplit
  omega

theorem turnsAt_eq_or (hi : i < n) (k N : Nat) :
    turnsAt n k N i = N / n ∨ turnsAt n k N i = N ⌈/⌉ n := by
  -- The turns are some whole rounds, in each of which a position comes up once, and a part of one.
  have hrounds : turnsAt n k N i = N / n + turnsAt n (k + n * (N / n)) (N % n) i := by
    conv_lhs => rw [← Nat.div_add_mod N n]
    rw [turnsAt_add, turnsAt_mul hi]
  have hlast := turnsAt_le_one hi (k + n * (N / n)) (Nat.mod_lt N (Nat.zero_lt_of_lt hi)).le
  rcases Nat.eq_zero_or_pos (turnsAt n (k + n * (N / n)) (N % n) i) with hnone | hsome
  · left
    rw [hrounds, hnone, Nat.add_zero]
  · right
    have hrest : 0 < N % n := by
      apply Nat.pos_of_ne_zero
      intro hzero
      rw [hzero] at hsome
      exact Nat.lt_irrefl 0 hsome
    have hceil : N ⌈/⌉ n = N / n + 1 := by
      rw [Nat.ceilDiv_eq_add_pred_div]
      have hN := Nat.div_add_mod N n
      have hlt := Nat.mod_lt N (Nat.zero_lt_of_lt hi)
      apply Nat.div_eq_of_lt_le
      · rw [Nat.add_mul, Nat.mul_comm]
        omega
      · rw [Nat.add_mul, Nat.add_mul, Nat.mul_comm]
        omega
    omega

/-- What is counted among all numbers, but only in a window, is counted in the window. -/
theorem countP_window (k N rest : Nat) (p : Nat → Prop) [DecidablePred p] :
    ((List.range (k + N + rest)).countP fun j ↦ k ≤ j ∧ j < k + N ∧ p j) =
      (List.range' k N).countP p := by
  have hsplit : List.range (k + N + rest) =
      List.range' 0 k ++ List.range' k N ++ List.range' (k + N) rest := by
    rw [List.range_eq_range', ← List.range'_append_1, ← List.range'_append_1, Nat.zero_add,
      Nat.zero_add]
  have hbefore : (List.range' 0 k).countP (fun j ↦ k ≤ j ∧ j < k + N ∧ p j) = 0 := by
    apply List.countP_eq_zero.mpr
    intro j hj
    have hlt := (List.mem_range'_1.mp hj).2
    simp only [decide_eq_true_eq]
    omega
  have hafter : (List.range' (k + N) rest).countP (fun j ↦ k ≤ j ∧ j < k + N ∧ p j) = 0 := by
    apply List.countP_eq_zero.mpr
    intro j hj
    have hle := (List.mem_range'_1.mp hj).1
    simp only [decide_eq_true_eq]
    omega
  rw [hsplit, List.countP_append, List.countP_append, hbefore, hafter, Nat.zero_add, Nat.add_zero]
  apply List.countP_congr
  intro j hj
  have hwindow := List.mem_range'_1.mp hj
  simp only [decide_eq_true_eq, hwindow, true_and]

end Turns

/-! ## Calls one after another -/

variable {addrs : List ServerAddr}

/-- The pool after so many calls. -/
def after (p : ServerPool) : Nat → ServerPool
  | 0 => p
  | k + 1 => (p.after k).allocate.2

theorem allocate_of_ne_nil (h : addrs ≠ []) (turn : UInt64) :
    allocate ⟨addrs, turn⟩ = (addrs[turn.toNat % addrs.length]?, ⟨addrs, turn + 1⟩) := by
  cases addrs with
  | nil => exact absurd rfl h
  | cons addr addrs => rfl

theorem after_of_ne_nil (h : addrs ≠ []) (k : Nat) :
    (ofList addrs).after k = ⟨addrs, .ofNat k⟩ := by
  induction k with
  | zero => rfl
  | succ k ih =>
      rw [after, ih, allocate_of_ne_nil h, UInt64.ofNat_add]
      rfl

theorem after_nil (k : Nat) : (ofList []).after k = ofList [] := by
  induction k with
  | zero => rfl
  | succ k ih => exact congrArg (fun p : ServerPool ↦ p.allocate.2) ih

theorem addrs_after (addrs : List ServerAddr) (k : Nat) :
    ((ofList addrs).after k).addrs = addrs := by
  cases addrs with
  | nil => exact congrArg ServerPool.addrs (after_nil k)
  | cons addr addrs => rw [after_of_ne_nil (List.cons_ne_nil addr addrs)]

theorem exists_allocate_after (h : addrs ≠ []) (k : Nat) :
    ∃ addr, ((ofList addrs).after k).allocate.1 = some addr ∧
      addrs[k % 2 ^ 64 % addrs.length]? = some addr := by
  have hlt : k % 2 ^ 64 % addrs.length < addrs.length := Nat.mod_lt _ (List.length_pos_iff.mpr h)
  have hserver := List.getElem?_eq_getElem hlt
  refine ⟨addrs[k % 2 ^ 64 % addrs.length], ?_, hserver⟩
  rw [after_of_ne_nil h, allocate_of_ne_nil h, UInt64.toNat_ofNat']
  exact hserver

theorem allocate_after_nil (k : Nat) : ((ofList []).after k).allocate = (none, ofList []) :=
  congrArg allocate (after_nil k)

/-! ## Looking up a turn -/

/-- What may go wrong when a turn is looked up. -/
inductive Mishap where
  | dividedByZero
  | outside (position : Nat)
  deriving DecidableEq

/-- The position that a turn falls on, and the server there. -/
def lookUp (addrs : List ServerAddr) (turn : UInt64) : Except Mishap (Nat × ServerAddr) :=
  if addrs.length = 0 then .error .dividedByZero
  else
    let i := turn.toNat % addrs.length
    match addrs[i]? with
    | some addr => .ok (i, addr)
    | none => .error (.outside i)

theorem lookUp_ofNat (h : addrs ≠ []) (k : Nat) :
    ∃ addr, lookUp addrs (.ofNat k) = .ok (k % 2 ^ 64 % addrs.length, addr) ∧
      ((ofList addrs).after k).allocate.1 = some addr := by
  obtain ⟨addr, hallocate, hserver⟩ := exists_allocate_after h k
  refine ⟨addr, ?_, hallocate⟩
  simp only [lookUp, if_neg (List.length_pos_iff.mpr h).ne', UInt64.toNat_ofNat', hserver]

/-! ## Calls that overlap -/

structure Ticket (τ : Type) where
  task : τ
  /-- How many turns were drawn before. -/
  number : Nat
  turn : UInt64

structure Answer (τ : Type) where
  ticket : Ticket τ
  found : Except Mishap (Nat × ServerAddr)

def Answer.position? {τ : Type} (a : Answer τ) : Option Nat := a.found.toOption.map Prod.fst

/-- A pool with the tasks that ask it for servers. -/
structure Desk (τ : Type) where
  pool : ServerPool
  drawn : Nat
  /-- The turns that have not been looked up, the last one last. -/
  waiting : List (Ticket τ)
  answers : List (Answer τ)
  /-- The tasks that were told that there is no server. -/
  refused : List τ

/-- What a task does at a time; between the two steps of a call others may take theirs. -/
inductive Step (τ : Type) where
  | draw (task : τ)
  | lookUp (task : τ)

def Step.isDraw {τ : Type} : Step τ → Bool
  | .draw _ => true
  | .lookUp _ => false

namespace Desk

variable {τ : Type} {d d' : Desk τ} {st : Step τ}

def opened (addrs : List ServerAddr) : Desk τ := ⟨ofList addrs, 0, [], [], []⟩

def step [DecidableEq τ] (d : Desk τ) : Step τ → Desk τ
  | .draw task =>
    -- The servers stay the same, so it is all one when a task looks whether there are any.
    if d.pool.isEmpty then { d with refused := task :: d.refused }
    else { d with
      pool := { d.pool with turn := d.pool.turn + 1 }
      drawn := d.drawn + 1
      waiting := d.waiting ++ [⟨task, d.drawn, d.pool.turn⟩] }
  | .lookUp task =>
    match d.waiting.find? (·.task = task) with
    | none => d
    | some ticket => { d with
        waiting := d.waiting.eraseP (·.task = task)
        answers := ⟨ticket, ServerPool.lookUp d.pool.addrs ticket.turn⟩ :: d.answers }

def run [DecidableEq τ] (d : Desk τ) (steps : List (Step τ)) : Desk τ := steps.foldl step d

/-- Whether the `N` turns from the `k`-th on have been drawn and looked up. -/
def Served (d : Desk τ) (k N : Nat) : Prop :=
  k + N ≤ d.drawn ∧ ∀ t ∈ d.waiting, k ≤ t.number → k + N ≤ t.number

/-- How often a position was found for one of the `N` turns from the `k`-th on. -/
def handedOut (d : Desk τ) (k N i : Nat) : Nat :=
  d.answers.countP fun a ↦ k ≤ a.ticket.number ∧ a.ticket.number < k + N ∧ a.position? = some i

/-! ### One step -/

inductive Moved (d : Desk τ) : Step τ → Desk τ → Prop
  | refused (task : τ) :
      d.pool.addrs = [] → Moved d (.draw task) { d with refused := task :: d.refused }
  | drawn (task : τ) :
      d.pool.addrs ≠ [] → Moved d (.draw task) { d with
        pool := { d.pool with turn := d.pool.turn + 1 }
        drawn := d.drawn + 1
        waiting := d.waiting ++ [⟨task, d.drawn, d.pool.turn⟩] }
  | idle (task : τ) :
      (∀ ticket ∈ d.waiting, ticket.task ≠ task) → Moved d (.lookUp task) d
  | answered (ticket : Ticket τ) (before later : List (Ticket τ)) :
      d.waiting = before ++ ticket :: later → Moved d (.lookUp ticket.task) { d with
        waiting := before ++ later
        answers := ⟨ticket, ServerPool.lookUp d.pool.addrs ticket.turn⟩ :: d.answers }

theorem step_moved [DecidableEq τ] (d : Desk τ) (st : Step τ) : Moved d st (d.step st) := by
  cases st with
  | draw task =>
      by_cases hempty : d.pool.isEmpty = true
      · rw [step, if_pos hempty]
        exact .refused task (List.isEmpty_iff.mp hempty)
      · rw [step, if_neg hempty]
        exact .drawn task fun hnil ↦ hempty (List.isEmpty_iff.mpr hnil)
  | lookUp task =>
      cases hfind : d.waiting.find? (·.task = task) with
      | none =>
          simp only [step, hfind]
          apply Moved.idle
          intro ticket hticket
          simpa using List.find?_eq_none.mp hfind ticket hticket
      | some ticket =>
          obtain ⟨htask, before, later, hwaiting, hbefore⟩ :=
            List.find?_eq_some_iff_append.mp hfind
          obtain rfl : ticket.task = task := of_decide_eq_true htask
          have herase : d.waiting.eraseP (·.task = ticket.task) = before ++ later := by
            rw [hwaiting, List.eraseP_append_right _ fun t ht ↦ by simpa using hbefore t ht]
            exact congrArg (before ++ ·) (List.eraseP_cons_of_pos htask)
          simp only [step, hfind, herase]
          exact .answered ticket before later hwaiting

theorem Moved.count (h : Moved d st d') :
    d'.drawn + d'.refused.length = d.drawn + d.refused.length + (if st.isDraw then 1 else 0) := by
  cases h with
  | refused task => rfl
  | drawn task => exact Nat.add_right_comm _ _ _
  | idle task => rfl
  | answered ticket before later => rfl

structure Orderly (addrs : List ServerAddr) (d : Desk τ) : Prop where
  pool_eq : d.pool = (ofList addrs).after d.drawn
  numbers : (d.answers.map (·.ticket.number) ++ d.waiting.map Ticket.number).Perm
    (List.range d.drawn)
  turn_eq : ∀ t ∈ d.waiting, t.turn = .ofNat t.number
  found_eq : ∀ a ∈ d.answers, a.found = ServerPool.lookUp addrs (.ofNat a.ticket.number)
  drawn_eq : addrs = [] → d.drawn = 0
  refused_eq : addrs ≠ [] → d.refused = []

namespace Orderly

variable {addrs : List ServerAddr}

theorem opened (addrs : List ServerAddr) : Orderly addrs (opened addrs : Desk τ) where
  pool_eq := rfl
  numbers := .nil
  turn_eq := nofun
  found_eq := nofun
  drawn_eq _ := rfl
  refused_eq _ := rfl

theorem addrs_eq (h : Orderly addrs d) : d.pool.addrs = addrs := by
  rw [h.pool_eq, addrs_after]

theorem moved (h : Orderly addrs d) (hmoved : Moved d st d') : Orderly addrs d' := by
  cases hmoved with
  | refused task hempty =>
      rw [h.addrs_eq] at hempty
      exact { h with refused_eq := fun hne ↦ absurd hempty hne }
  | drawn task hne =>
      rw [h.addrs_eq] at hne
      have hpool := h.pool_eq
      rw [after_of_ne_nil hne] at hpool
      refine { h with pool_eq := ?_, numbers := ?_, turn_eq := ?_, drawn_eq := ?_ }
      · rw [after_of_ne_nil hne, UInt64.ofNat_add, hpool]
        rfl
      · rw [List.map_append, ← List.append_assoc, List.range_succ]
        exact h.numbers.append_right _
      · intro t ht
        rcases List.mem_append.mp ht with hold | hnew
        · exact h.turn_eq t hold
        · obtain rfl := List.mem_singleton.mp hnew
          rw [hpool]
      · exact fun hempty ↦ absurd hempty hne
  | idle task => exact h
  | answered ticket before later hwaiting =>
      have hmem : ticket ∈ d.waiting := by
        rw [hwaiting]
        exact List.mem_append_right _ List.mem_cons_self
      refine { h with numbers := ?_, turn_eq := ?_, found_eq := ?_ }
      · have hnumbers := h.numbers
        rw [hwaiting, List.map_append, List.map_cons, ← List.append_assoc] at hnumbers
        rw [List.map_append, List.map_cons, List.cons_append, ← List.append_assoc]
        exact List.perm_middle.symm.trans hnumbers
      · intro t ht
        apply h.turn_eq
        rw [hwaiting]
        rcases List.mem_append.mp ht with hbefore | hlater
        · exact List.mem_append_left _ hbefore
        · exact List.mem_append_right _ (List.mem_cons_of_mem _ hlater)
      · intro a ha
        rcases List.mem_cons.mp ha with rfl | hold
        · rw [h.addrs_eq, h.turn_eq ticket hmem]
        · exact h.found_eq a hold

end Orderly

/-! ### Many steps -/

section

variable [DecidableEq τ] {addrs : List ServerAddr}

theorem Orderly.run (h : Orderly addrs d) (steps : List (Step τ)) :
    Orderly addrs (d.run steps) := by
  induction steps generalizing d with
  | nil => exact h
  | cons st steps ih => exact ih (h.moved (d.step_moved st))

theorem count_run (d : Desk τ) (steps : List (Step τ)) :
    (d.run steps).drawn + (d.run steps).refused.length =
      d.drawn + d.refused.length + steps.countP Step.isDraw := by
  induction steps generalizing d with
  | nil => rfl
  | cons st steps ih =>
      rw [List.countP_cons, Nat.add_comm (steps.countP _), ← Nat.add_assoc,
        ← (d.step_moved st).count]
      exact ih (d.step st)

theorem waiting_step_lookUp {t : Ticket τ} {rest : List (Ticket τ)} (h : d.waiting = t :: rest) :
    (d.step (.lookUp t.task)).waiting = rest := by
  simp [step, h]

theorem waiting_run_lookUps (d : Desk τ) :
    (d.run (d.waiting.map (.lookUp ·.task))).waiting = [] := by
  generalize hwaiting : d.waiting = waiting
  induction waiting generalizing d with
  | nil => exact hwaiting
  | cons t rest ih => exact ih _ (waiting_step_lookUp hwaiting)

end

/-! ### Fairness -/

namespace Orderly

variable {addrs : List ServerAddr} {k N i : Nat}

theorem eq_nil (h : Orderly addrs d) (hempty : addrs = []) : d.answers = [] ∧ d.waiting = [] := by
  have hnumbers := h.numbers
  rw [h.drawn_eq hempty, List.range_zero, List.perm_nil, List.append_eq_nil_iff] at hnumbers
  exact ⟨List.map_eq_nil_iff.mp hnumbers.1, List.map_eq_nil_iff.mp hnumbers.2⟩

theorem ne_nil_of_mem (h : Orderly addrs d) {a : Answer τ} (ha : a ∈ d.answers) : addrs ≠ [] := by
  intro hempty
  rw [(h.eq_nil hempty).1] at ha
  cases ha

theorem exists_found (h : Orderly addrs d) {a : Answer τ} (ha : a ∈ d.answers) :
    ∃ addr, a.found = .ok (a.ticket.number % 2 ^ 64 % addrs.length, addr) ∧
      addrs[a.ticket.number % 2 ^ 64 % addrs.length]? = some addr ∧
      ((ofList addrs).after a.ticket.number).allocate.1 = some addr := by
  have hne := h.ne_nil_of_mem ha
  obtain ⟨addr, hfound, hallocate⟩ := lookUp_ofNat hne a.ticket.number
  obtain ⟨addr', hallocate', hserver⟩ := exists_allocate_after hne a.ticket.number
  obtain rfl : addr = addr' := Option.some.inj (hallocate.symm.trans hallocate')
  exact ⟨addr, (h.found_eq a ha).trans hfound, hserver, hallocate⟩

theorem position?_eq (h : Orderly addrs d) {a : Answer τ} (ha : a ∈ d.answers)
    (hlt : a.ticket.number < 2 ^ 64) : a.position? = some (a.ticket.number % addrs.length) := by
  obtain ⟨addr, hfound, -⟩ := h.exists_found ha
  rw [Answer.position?, hfound, Nat.mod_eq_of_lt hlt]
  rfl

theorem handedOut_eq (h : Orderly addrs d) (hserved : d.Served k N) (hwrap : k + N ≤ 2 ^ 64)
    (i : Nat) : d.handedOut k N i = turnsAt addrs.length k N i := by
  obtain ⟨rest, hdrawn⟩ := Nat.exists_eq_add_of_le hserved.1
  -- All the numbers of the window are those of answers, since no call in it waits.
  let falls (j : Nat) : Prop := k ≤ j ∧ j < k + N ∧ j % addrs.length = i
  have hwaiting : (d.waiting.map Ticket.number).countP (fun j ↦ falls j) = 0 := by
    apply List.countP_eq_zero.mpr
    intro j hj
    obtain ⟨t, ht, rfl⟩ := List.mem_map.mp hj
    simp only [decide_eq_true_eq]
    rintro ⟨hle, hlt, -⟩
    exact Nat.not_le.mpr hlt (hserved.2 t ht hle)
  calc d.handedOut k N i = d.answers.countP fun a ↦ falls a.ticket.number := by
        apply List.countP_congr
        intro a ha
        simp only [decide_eq_true_eq]
        refine and_congr_right fun _ ↦ and_congr_right fun hlt ↦ ?_
        rw [h.position?_eq ha (hlt.trans_le hwrap), Option.some.injEq]
    _ = (d.answers.map (·.ticket.number)).countP fun j ↦ falls j := by
        rw [List.countP_map]
        rfl
    _ = (d.answers.map (·.ticket.number) ++ d.waiting.map Ticket.number).countP
          fun j ↦ falls j := by
        rw [List.countP_append, hwaiting, Nat.add_zero]
    _ = (List.range (k + N + rest)).countP fun j ↦ falls j := by
        rw [← hdrawn]
        exact h.numbers.countP_eq _
    _ = turnsAt addrs.length k N i := countP_window k N rest _

end Orderly

end Desk

/-- Whether what tasks have got in some steps is fair to the servers. -/
structure Fair {τ : Type} (addrs : List ServerAddr) (steps : List (Step τ)) (d : Desk τ) :
    Prop where
  pool_eq : d.pool = (ofList addrs).after d.drawn
  asked : d.drawn + d.refused.length = steps.countP Step.isDraw
  /-- Each of the turns that are drawn is drawn once, and looked up at most once. -/
  numbers : (d.answers.map (·.ticket.number) ++ d.waiting.map Ticket.number).Perm
    (List.range d.drawn)
  in_turn : ∀ a ∈ d.answers, a.ticket.number < 2 ^ 64 → ∃ addr,
    a.found = .ok (a.ticket.number % addrs.length, addr) ∧
      addrs[a.ticket.number % addrs.length]? = some addr
  /-- Also when the count of turns has begun again, a server is found, and it is the one that is
  found if the calls come one after another. -/
  inside : ∀ a ∈ d.answers, ∃ i addr, a.found = .ok (i, addr) ∧ i < addrs.length ∧
    addrs[i]? = some addr ∧ ((ofList addrs).after a.ticket.number).allocate.1 = some addr
  evenly : ∀ k N, d.Served k N → k + N ≤ 2 ^ 64 → ∀ i < addrs.length,
    d.handedOut k N i = N / addrs.length ∨ d.handedOut k N i = N ⌈/⌉ addrs.length
  each_once : ∀ k, d.Served k addrs.length → k + addrs.length ≤ 2 ^ 64 → ∀ i < addrs.length,
    d.handedOut k addrs.length i = 1
  refused_eq : addrs ≠ [] → d.refused = []
  eq_nil : addrs = [] →
    d.answers = [] ∧ d.waiting = [] ∧ d.refused.length = steps.countP Step.isDraw

theorem Desk.Orderly.fair {τ : Type} {addrs : List ServerAddr} {steps : List (Step τ)} {d : Desk τ}
    (h : d.Orderly addrs) (hasked : d.drawn + d.refused.length = steps.countP Step.isDraw) :
    Fair addrs steps d where
  pool_eq := h.pool_eq
  asked := hasked
  numbers := h.numbers
  in_turn a ha hlt := by
    obtain ⟨addr, hfound, hserver, -⟩ := h.exists_found ha
    rw [Nat.mod_eq_of_lt hlt] at hfound hserver
    exact ⟨addr, hfound, hserver⟩
  inside a ha := by
    obtain ⟨addr, hfound, hserver, hallocate⟩ := h.exists_found ha
    exact ⟨_, addr, hfound, (List.getElem?_eq_some_iff.mp hserver).1, hserver, hallocate⟩
  evenly k N hserved hwrap i hi := by
    rw [h.handedOut_eq hserved hwrap]
    exact turnsAt_eq_or hi k N
  each_once k hserved hwrap i hi := by
    rw [h.handedOut_eq hserved hwrap]
    exact turnsAt_self hi k
  refused_eq := h.refused_eq
  eq_nil hempty := by
    obtain ⟨hanswers, hwaiting⟩ := h.eq_nil hempty
    rw [h.drawn_eq hempty, Nat.zero_add] at hasked
    exact ⟨hanswers, hwaiting, hasked⟩

/-- Whoever asks a pool with servers gets the one whose turn it is, in whatever order tasks draw
their turns and look them up; whoever asks one without gets none. -/
theorem fair_to_servers (τ : Type) [DecidableEq τ] :
    (∀ addrs k, addrs ≠ [] → ∃ addr, ((ofList addrs).after k).allocate.1 = some addr ∧
      addrs[k % 2 ^ 64 % addrs.length]? = some addr) ∧
    (∀ k, ((ofList []).after k).allocate = (none, ofList [])) ∧
    (∀ addrs (steps : List (Step τ)), Fair addrs steps ((Desk.opened addrs).run steps)) ∧
    ∀ d : Desk τ, (d.run (d.waiting.map (.lookUp ·.task))).waiting = [] := by
  refine ⟨?_, ?_, ?_, ?_⟩
  · exact fun addrs k h ↦ exists_allocate_after h k
  · exact allocate_after_nil
  · intro addrs steps
    apply Desk.Orderly.fair
    · exact (Desk.Orderly.opened addrs).run steps
    · rw [Desk.count_run]
      exact Nat.zero_add _
  · exact Desk.waiting_run_lookUps

def race : List (Step Bool) :=
  [.draw false, .draw true, .lookUp true, .draw true, .lookUp false, .lookUp true, .draw false]

theorem fair_to_servers_of_race :
    let addrs := [ServerAddr.mk "a" 1, .mk "b" 2]
    let d := (Desk.opened addrs).run race
    addrs ≠ [] ∧ (∃ addr, ((ofList addrs).after 2).allocate.1 = some addr) ∧
      d.Served 0 3 ∧ (d.handedOut 0 3 0 = 3 / 2 ∨ d.handedOut 0 3 0 = 3 ⌈/⌉ 2) ∧
      d.Served 1 2 ∧ d.handedOut 1 2 0 = 1 ∧ d.handedOut 1 2 1 = 1 := by
  intro addrs d
  obtain ⟨halone, -, hruns, -⟩ := fair_to_servers Bool
  have hne : addrs ≠ [] := List.cons_ne_nil _ _
  have hfair : Fair addrs race d := hruns addrs race
  have hwaiting : d.waiting = [⟨false, 3, 3⟩] := rfl
  have hserved : d.Served 0 3 := ⟨by decide, by simp [hwaiting]⟩
  have hround : d.Served 1 2 := ⟨by decide, by simp [hwaiting]⟩
  refine ⟨hne, ?_, hserved, ?_, hround, ?_, ?_⟩
  · obtain ⟨addr, hallocate, -⟩ := halone addrs 2 hne
    exact ⟨addr, hallocate⟩
  · exact hfair.evenly 0 3 hserved (by decide) 0 (by decide)
  · exact hfair.each_once 1 hround (by decide) 0 (by decide)
  · exact hfair.each_once 1 hround (by decide) 1 (by decide)

end RemoteObjects.ServerPool
