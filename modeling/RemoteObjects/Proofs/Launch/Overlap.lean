import RemoteObjects.Launch.Launcher

/-!
# Launches that overlap

A launch looks for a server that runs before it starts a process, and takes hold of the process when
it is ready.  In between others may do the same.  So a server that runs is safe from the launches
that begin after it got ready, and not from those that had begun before: one of them that gets ready
takes its place, and it is killed although nobody has stopped it.
-/

namespace RemoteObjects.Launch.Launcher

variable {χ : Type} {l l' : Launcher χ} {child : χ} {st : Step χ} {steps : List (Step χ)}
  {answer : Option Answer}

/-- The launcher after steps, and what was answered to each of them. -/
def run (l : Launcher χ) : List (Step χ) → Launcher χ × List (Step χ × Option Answer)
  | [] => (l, [])
  | st :: steps =>
    let (l, answer) := l.step st
    let (l, answers) := l.run steps
    (l, (st, answer) :: answers)

theorem run_cons (l : Launcher χ) (st : Step χ) (steps : List (Step χ)) :
    l.run (st :: steps) =
      (((l.step st).1.run steps).1, (st, (l.step st).2) :: ((l.step st).1.run steps).2) := rfl

/-! ## One step -/

inductive Moved (l : Launcher χ) : Step χ → Launcher χ → Option Answer → Prop
  | barred (id : Nat) (spawned : Except Error χ) (child : χ) :
      l.held = some child → Moved l (.launch id spawned) l (some (.error .alreadyRunning))
  | unspawned (id : Nat) (e : Error) :
      l.held = none → Moved l (.launch id (.error e)) l (some (.error e))
  | begun (id : Nat) (child : χ) :
      l.held = none →
        Moved l (.launch id (.ok child)) { l with starting := (id, child) :: l.starting } none
  | stray (id : Nat) (failure : Option Error) :
      l.starting.lookup id = none → Moved l (.settle id failure) l none
  | failed (id : Nat) (child : χ) (e : Error) :
      l.starting.lookup id = some child →
        Moved l (.settle id (some e))
          { l with starting := l.starting.filter (·.1 ≠ id), killed := child :: l.killed }
          (some (.error e))
  | ready (id : Nat) (child : χ) :
      l.starting.lookup id = some child →
        Moved l (.settle id none)
          { held := some child
            starting := l.starting.filter (·.1 ≠ id)
            killed := l.held.toList ++ l.killed }
          (some (.ok ()))
  | idle (failure : Option String) :
      l.held = none → Moved l (.shutdown failure) l (some (.ok ()))
  | stopped (failure : Option String) (child : χ) (answer : Answer) :
      l.held = some child →
        Moved l (.shutdown failure) { l with held := none, killed := child :: l.killed }
          (some answer)

theorem step_moved (l : Launcher χ) (st : Step χ) : Moved l st (l.step st).1 (l.step st).2 := by
  cases st with
  | launch id spawned =>
      cases hheld : l.held with
      | some child =>
          simp only [step, isRunning, hheld, Option.isSome_some, if_true]
          exact .barred id spawned child hheld
      | none =>
          simp only [step, isRunning, hheld, Option.isSome_none, Bool.false_eq_true, if_false]
          cases spawned with
          | error e => exact .unspawned id e hheld
          | ok child =>
              have hbegun := Moved.begun id child hheld
              rwa [hheld] at hbegun
  | settle id failure =>
      cases hlookup : l.starting.lookup id with
      | none =>
          simp only [step, hlookup]
          exact .stray id failure hlookup
      | some child =>
          simp only [step, hlookup]
          cases failure with
          | some e => exact .failed id child e hlookup
          | none => exact .ready id child hlookup
  | shutdown failure =>
      cases hheld : l.held with
      | none =>
          simp only [step, hheld]
          exact .idle failure hheld
      | some child =>
          simp only [step, hheld]
          cases failure with
          | some reason => exact .stopped _ child _ hheld
          | none => exact .stopped _ child _ hheld

namespace Moved

theorem killed_subset (h : Moved l st l' answer) : l.killed ⊆ l'.killed := by
  cases h with
  | barred | unspawned | begun | stray | idle => exact fun _ hx ↦ hx
  | failed | stopped => exact List.subset_cons_self _ _
  | ready => exact List.subset_append_right _ _

theorem starting_subset (h : Moved l st l' answer) (hheld : l.held = some child) :
    l'.starting ⊆ l.starting := by
  cases h with
  | begun id child' hnone =>
      rw [hheld] at hnone
      cases hnone
  | barred | unspawned | stray | idle | stopped => exact fun _ hx ↦ hx
  | failed | ready => exact List.filter_sublist.subset

/-- Unless it is stopped, a server that runs stays until a launch that had begun gets ready. -/
theorem held_cases (h : Moved l st l' answer) (hheld : l.held = some child)
    (hst : ∀ failure, st ≠ .shutdown failure) :
    (l'.held = some child ∧ answer ≠ some (.ok ())) ∨
      ∃ id child', st = .settle id none ∧ l.starting.lookup id = some child' ∧
        l'.held = some child' ∧ child ∈ l'.killed ∧ answer = some (.ok ()) := by
  cases h with
  | barred => exact .inl ⟨hheld, nofun⟩
  | unspawned id e hnone => exact .inl ⟨hheld, nofun⟩
  | begun id child' hnone => exact .inl ⟨hheld, nofun⟩
  | stray => exact .inl ⟨hheld, nofun⟩
  | failed => exact .inl ⟨hheld, nofun⟩
  | ready id child' hlookup =>
      right
      refine ⟨id, child', rfl, hlookup, rfl, ?_, rfl⟩
      rw [hheld]
      exact List.mem_cons_self
  | idle failure | stopped failure => exact absurd rfl (hst failure)

end Moved

/-! ## Many steps -/

theorem killed_subset_run (l : Launcher χ) (steps : List (Step χ)) :
    l.killed ⊆ (l.run steps).1.killed := by
  induction steps generalizing l with
  | nil => exact fun _ hx ↦ hx
  | cons st steps ih => exact List.Subset.trans (l.step_moved st).killed_subset (ih _)

theorem held_step (hheld : l.held = some child) {st : Step χ}
    (hst : ∀ failure, st ≠ .shutdown failure) : ∃ child', (l.step st).1.held = some child' := by
  rcases (l.step_moved st).held_cases hheld hst with ⟨hkept, -⟩ | ⟨-, child', -, -, hready, -⟩
  · exact ⟨child, hkept⟩
  · exact ⟨child', hready⟩

/-- Nobody stops the server. -/
def Unstopped (steps : List (Step χ)) : Prop := ∀ failure, .shutdown failure ∉ steps

theorem Unstopped.uncons (h : Unstopped (st :: steps)) :
    (∀ failure, st ≠ .shutdown failure) ∧ Unstopped steps := by
  constructor
  · rintro failure rfl
    exact h failure List.mem_cons_self
  · intro failure hmem
    exact h failure (List.mem_cons_of_mem _ hmem)

theorem refused_of_held (hheld : l.held = some child) (hsteps : Unstopped steps) {id : Nat}
    {spawned : Except Error χ} (h : (.launch id spawned, answer) ∈ (l.run steps).2) :
    answer = some (.error .alreadyRunning) := by
  induction steps generalizing l child with
  | nil => cases h
  | cons st steps ih =>
      obtain ⟨hst, hlater⟩ := hsteps.uncons
      rcases List.mem_cons.mp h with hnow | hmem
      · obtain ⟨hfirst, hanswer⟩ := Prod.mk.inj hnow
        subst hfirst
        rw [hanswer]
        simp only [isRunning, hheld, Option.isSome_some, if_true]
      · obtain ⟨child', hheld'⟩ := held_step hheld hst
        exact ih hheld' hlater hmem

theorem begun_of_ready (hheld : l.held = some child) (hsteps : Unstopped steps)
    (h : (st, some (.ok ())) ∈ (l.run steps).2) :
    ∃ id child', (id, child') ∈ l.starting ∧ st = .settle id none := by
  induction steps generalizing l child with
  | nil => cases h
  | cons first steps ih =>
      have hmoved := l.step_moved first
      obtain ⟨hfirst, hlater⟩ := hsteps.uncons
      rcases List.mem_cons.mp h with hnow | hmem
      · obtain ⟨rfl, hanswer⟩ := Prod.mk.inj hnow
        rcases hmoved.held_cases hheld hfirst with ⟨-, hne⟩ | ⟨id, child', hst, hlookup, -⟩
        · exact absurd hanswer.symm hne
        · obtain ⟨before, after, hstarting, -⟩ := List.lookup_eq_some_iff.mp hlookup
          refine ⟨id, child', ?_, hst⟩
          rw [hstarting]
          exact List.mem_append_right _ List.mem_cons_self
      · obtain ⟨child', hheld'⟩ := held_step hheld hfirst
        obtain ⟨id, c, hstarting, hst⟩ := ih hheld' hlater hmem
        exact ⟨id, c, hmoved.starting_subset hheld hstarting, hst⟩

theorem kept_or_killed (hheld : l.held = some child) (hsteps : Unstopped steps) :
    ((∀ st, (st, some (.ok ())) ∉ (l.run steps).2) ∧ (l.run steps).1.held = some child) ∨
      (∃ st, (st, some (.ok ())) ∈ (l.run steps).2) ∧ child ∈ (l.run steps).1.killed := by
  induction steps generalizing l with
  | nil => exact .inl ⟨nofun, hheld⟩
  | cons first steps ih =>
      obtain ⟨hfirst, hlater⟩ := hsteps.uncons
      rcases (l.step_moved first).held_cases hheld hfirst with
        ⟨hkept, hanswer⟩ | ⟨id, child', -, -, -, hkilled, hanswer⟩
      · rcases ih hkept hlater with ⟨hnone, hstill⟩ | ⟨⟨st, hst⟩, hkilled⟩
        · left
          refine ⟨fun st hst ↦ ?_, hstill⟩
          rcases List.mem_cons.mp hst with hnow | hmem
          · exact hanswer (Prod.mk.inj hnow).2.symm
          · exact hnone st hmem
        · exact .inr ⟨⟨st, List.mem_cons_of_mem _ hst⟩, hkilled⟩
      · right
        rw [run_cons, hanswer]
        exact ⟨⟨first, List.mem_cons_self⟩, killed_subset_run _ steps hkilled⟩

/-- Until a server that runs is stopped, every launch that begins is refused.  The server stays
unless a launch succeeds; that launch had begun before, and then the server is killed. -/
theorem kept_unless_begun (hheld : l.held = some child) (hsteps : Unstopped steps) :
    (∀ id spawned answer, (.launch id spawned, answer) ∈ (l.run steps).2 →
        answer = some (.error .alreadyRunning)) ∧
      ((∀ st, (st, some (.ok ())) ∉ (l.run steps).2) → (l.run steps).1.held = some child) ∧
      ∀ st, (st, some (.ok ())) ∈ (l.run steps).2 →
        child ∈ (l.run steps).1.killed ∧
          ∃ id child', (id, child') ∈ l.starting ∧ st = .settle id none := by
  refine ⟨fun id spawned answer ↦ refused_of_held hheld hsteps, ?_, ?_⟩
  · intro hnone
    rcases kept_or_killed hheld hsteps with ⟨-, hkept⟩ | ⟨⟨st, hst⟩, -⟩
    · exact hkept
    · exact absurd hst (hnone st)
  · intro st hst
    rcases kept_or_killed hheld hsteps with ⟨hnone, -⟩ | ⟨-, hkilled⟩
    · exact absurd hst (hnone st)
    · exact ⟨hkilled, begun_of_ready hheld hsteps hst⟩

/-- Two launches that overlap may both succeed, and then nobody has stopped the first server. -/
theorem not_one_ready :
    ¬∀ steps : List (Step Nat), Unstopped steps → ∀ id id',
      (.settle id none, some (.ok ())) ∈ (idle.run steps).2 →
      (.settle id' none, some (.ok ())) ∈ (idle.run steps).2 → id = id' := by
  intro hall
  let steps : List (Step Nat) :=
    [.launch 0 (.ok 0), .launch 1 (.ok 1), .settle 0 none, .settle 1 none]
  have hanswers : (idle.run steps).2 = [(.launch 0 (.ok 0), none), (.launch 1 (.ok 1), none),
      (.settle 0 none, some (.ok ())), (.settle 1 none, some (.ok ()))] := rfl
  have hsame := hall steps (by simp [Unstopped, steps]) 0 1 (by simp [hanswers]) (by simp [hanswers])
  cases hsame

end RemoteObjects.Launch.Launcher
