import RemoteObjects.Launch.Process
import RemoteObjects.Proofs.Launch.Waiting

/-!
# Launches one after another

A service that is asked one thing at a time runs a server from a launch that succeeds to the next
shutdown, even if that one fails.  No process is lost sight of: each one that was started is either
the server that runs, or its end was asked for.
-/

namespace RemoteObjects.Launch

variable {χ : Type}

/-- Something that is asked of a service; the machine may be another one every time. -/
inductive Errand (χ : Type) where
  | launch (machine : Machine χ) (config : LaunchConfig)
  | shutdown (kill : χ → Except String Unit)

inductive Report where
  | launched (answer : Except Error UInt16)
  | stopped (answer : Except Error Unit)

namespace Launcher

variable {l : Launcher χ} {child : χ} {e : Error}

theorem isRunning_eq_false_iff : l.isRunning = false ↔ l.held = none := by
  simp [isRunning]

theorem launchAlone_spawn_error (hidle : l.isRunning = false) (failure : Option Error) :
    l.launchAlone (.error e) failure = (l, .error e) := by
  simp [launchAlone, step, hidle]

theorem launchAlone_failure (hidle : l.isRunning = false) (hquiet : l.starting = []) :
    l.launchAlone (.ok child) (some e) = ({ l with killed := child :: l.killed }, .error e) := by
  simp [launchAlone, step, hidle, hquiet]

theorem launchAlone_ready (hidle : l.isRunning = false) (hquiet : l.starting = []) :
    l.launchAlone (.ok child) none = ({ l with held := some child }, .ok ()) := by
  have hheld := isRunning_eq_false_iff.mp hidle
  simp [launchAlone, step, hidle, hquiet, hheld]

end Launcher

namespace Service

variable {machine : Machine χ} {config : LaunchConfig} {s : Service χ}

def fresh (program : String) (args : List String) : Service χ := ⟨program, args, .idle⟩

def perform (s : Service χ) : Errand χ → Report × Service χ
  | .launch machine config => (.launched (s.launch machine config).1, (s.launch machine config).2.2)
  | .shutdown kill => (.stopped (s.shutdown kill).1, (s.shutdown kill).2.2)

/-- The process that an errand starts, if it comes to start one. -/
def started? (s : Service χ) : Errand χ → Option χ
  | .launch machine config =>
    if s.launcher.isRunning then none
    else match machine.port config with
      | .error _ => none
      | .ok port => (s.spawn machine config port).toOption
  | .shutdown _ => none

def performAll (s : Service χ) : List (Errand χ) → List Report × Service χ
  | [] => ([], s)
  | e :: es =>
    let (report, s) := s.perform e
    let (reports, s) := s.performAll es
    (report :: reports, s)

def started (s : Service χ) : List (Errand χ) → List χ
  | [] => []
  | e :: es => (s.started? e).toList ++ (s.perform e).2.started es

/-! ## One errand -/

theorem launch_of_isRunning (h : s.launcher.isRunning = true) (machine : Machine χ)
    (config : LaunchConfig) : s.launch machine config = (.error .alreadyRunning, [], s) := by
  unfold launch
  rw [if_pos h]

theorem launch_of_spawn (hquiet : s.launcher.starting = []) (hidle : s.launcher.isRunning = false)
    {port : UInt16} {child : χ} (hport : machine.port config = .ok port)
    (hspawn : s.spawn machine config port = .ok child) :
    (s.launch machine config).1 = (failure machine config port child).elim (.ok port) .error := by
  unfold launch
  simp only [hidle, Bool.false_eq_true, if_false, hport, hspawn]
  cases hfailure : failure machine config port child with
  | some e =>
      rw [Launcher.launchAlone_failure hidle hquiet]
      rfl
  | none =>
      rw [Launcher.launchAlone_ready hidle hquiet]
      rfl

inductive Performed (l : Launcher χ) : Option χ → Report → Launcher χ → Prop
  | refused (e : Error) : Performed l none (.launched (.error e)) l
  | failed (child : χ) (e : Error) :
      l.held = none →
        Performed l (some child) (.launched (.error e)) { l with killed := child :: l.killed }
  | ready (child : χ) (port : UInt16) :
      l.held = none → Performed l (some child) (.launched (.ok port)) { l with held := some child }
  | idle : l.held = none → Performed l none (.stopped (.ok ())) l
  | stopped (child : χ) (answer : Except Error Unit) :
      l.held = some child →
        Performed l none (.stopped answer) { l with held := none, killed := child :: l.killed }

theorem launch_performed (hquiet : s.launcher.starting = []) (machine : Machine χ)
    (config : LaunchConfig) :
    Performed s.launcher (s.started? (.launch machine config))
      (.launched (s.launch machine config).1) (s.launch machine config).2.2.launcher := by
  cases hrunning : s.launcher.isRunning with
  | true =>
      rw [launch_of_isRunning hrunning, started?, if_pos hrunning]
      exact .refused .alreadyRunning
  | false =>
      have hheld := Launcher.isRunning_eq_false_iff.mp hrunning
      unfold launch started?
      simp only [hrunning, Bool.false_eq_true, if_false]
      cases hport : machine.port config with
      | error e => exact .refused e
      | ok port =>
          cases hspawn : s.spawn machine config port with
          | error e =>
              simp only [hspawn, Launcher.launchAlone_spawn_error hrunning]
              exact .refused e
          | ok child =>
              cases hfailure : failure machine config port child with
              | some e =>
                  simp only [hspawn, hfailure, Launcher.launchAlone_failure hrunning hquiet]
                  exact .failed child e hheld
              | none =>
                  simp only [hspawn, hfailure, Launcher.launchAlone_ready hrunning hquiet]
                  exact .ready child port hheld

theorem shutdown_performed (s : Service χ) (kill : χ → Except String Unit) :
    Performed s.launcher none (.stopped (s.shutdown kill).1) (s.shutdown kill).2.2.launcher := by
  unfold shutdown
  cases hheld : s.launcher.held with
  | none => exact .idle hheld
  | some child =>
      cases hkill : kill child with
      | ok _ =>
          simp only [hkill, Launcher.step, hheld]
          exact .stopped child _ hheld
      | error reason =>
          simp only [hkill, Launcher.step, hheld]
          exact .stopped child _ hheld

theorem perform_performed (hquiet : s.launcher.starting = []) (e : Errand χ) :
    Performed s.launcher (s.started? e) (s.perform e).1 (s.perform e).2.launcher := by
  cases e with
  | launch machine config => exact launch_performed hquiet machine config
  | shutdown kill => exact shutdown_performed s kill

namespace Performed

variable {l l' : Launcher χ} {child? : Option χ} {report : Report}

theorem starting_eq (h : Performed l child? report l') : l'.starting = l.starting := by
  cases h <;> rfl

theorem accounts (h : Performed l child? report l') :
    l'.held.toList ++ l'.killed = child?.toList ++ (l.held.toList ++ l.killed) := by
  cases h with
  | refused e => rfl
  | failed child e hheld => simp [hheld]
  | ready child port hheld => simp [hheld]
  | idle hheld => rfl
  | stopped child answer hheld => simp [hheld]

theorem isRunning_iff (h : Performed l child? report l') :
    l'.isRunning = true ↔
      (∃ port, report = .launched (.ok port)) ∨
        l.isRunning = true ∧ ∀ answer, report ≠ .stopped answer := by
  cases h with
  | refused e => simp
  | failed child e hheld => simp [Launcher.isRunning]
  | ready child port hheld => simp [Launcher.isRunning]
  | idle hheld => simp [Launcher.isRunning, hheld]
  | stopped child answer hheld => simp [Launcher.isRunning]

end Performed

/-! ## Many errands -/

/-- The last launch that succeeded came after the last shutdown. -/
def Lasting (reports : List Report) : Prop :=
  ∃ before port after, reports = before ++ .launched (.ok port) :: after ∧
    ∀ answer, .stopped answer ∉ after

theorem lasting_cons_iff {report : Report} {reports : List Report} :
    Lasting (report :: reports) ↔
      Lasting reports ∨
        (∃ port, report = .launched (.ok port)) ∧ ∀ answer, .stopped answer ∉ reports := by
  constructor
  · rintro ⟨before, port, after, heq, hafter⟩
    cases before with
    | nil =>
        obtain ⟨rfl, rfl⟩ := List.cons.inj heq
        exact .inr ⟨⟨port, rfl⟩, hafter⟩
    | cons first before =>
        obtain ⟨rfl, rfl⟩ := List.cons.inj heq
        exact .inl ⟨before, port, after, rfl, hafter⟩
  · rintro (⟨before, port, after, rfl, hafter⟩ | ⟨⟨port, rfl⟩, hafter⟩)
    · exact ⟨report :: before, port, after, rfl, hafter⟩
    · exact ⟨[], port, reports, rfl, hafter⟩

theorem performAll_starting (hquiet : s.launcher.starting = []) (es : List (Errand χ)) :
    (s.performAll es).2.launcher.starting = [] := by
  induction es generalizing s with
  | nil => exact hquiet
  | cons e es ih => exact ih ((perform_performed hquiet e).starting_eq.trans hquiet)

theorem performAll_accounts (hquiet : s.launcher.starting = []) (es : List (Errand χ)) :
    (s.performAll es).2.launcher.held.toList ++ (s.performAll es).2.launcher.killed =
      (s.started es).reverse ++ (s.launcher.held.toList ++ s.launcher.killed) := by
  induction es generalizing s with
  | nil => rfl
  | cons e es ih =>
      have hstep := perform_performed hquiet e
      have hlater := ih (hstep.starting_eq.trans hquiet)
      have hone : (s.started? e).toList.reverse = (s.started? e).toList := by
        cases s.started? e <;> rfl
      rw [started, List.reverse_append, hone, List.append_assoc, ← hstep.accounts]
      exact hlater

theorem performAll_isRunning_iff (hquiet : s.launcher.starting = []) (es : List (Errand χ)) :
    (s.performAll es).2.launcher.isRunning = true ↔
      Lasting (s.performAll es).1 ∨
        s.launcher.isRunning = true ∧ ∀ answer, .stopped answer ∉ (s.performAll es).1 := by
  induction es generalizing s with
  | nil => simp [performAll, Lasting]
  | cons e es ih =>
      have hstep := perform_performed hquiet e
      have hlater := ih (hstep.starting_eq.trans hquiet)
      have hmem : (∀ answer, .stopped answer ∉ (s.performAll (e :: es)).1) ↔
          (∀ answer, (s.perform e).1 ≠ .stopped answer) ∧
            ∀ answer, .stopped answer ∉ ((s.perform e).2.performAll es).1 := by
        simp [performAll, forall_and, eq_comm]
      rw [hmem]
      simp only [performAll, hlater, hstep.isRunning_iff, lasting_cons_iff]
      rw [or_and_right, and_assoc, or_assoc]

/-! ## What a service keeps to -/

/-- What holds of a service that has performed errands from the start on. -/
structure Orderly (children : List χ) (reports : List Report) (s : Service χ) : Prop where
  isRunning_iff : s.launcher.isRunning = true ↔ Lasting reports
  /-- Each process is the server that runs, or its end was asked for. -/
  accounts : s.launcher.held.toList ++ s.launcher.killed = children.reverse
  refuses : s.launcher.isRunning = true → ∀ machine config,
    s.launch machine config = (.error .alreadyRunning, [], s)
  /-- A launch that has started a process answers what the wait for it comes to. -/
  waits : s.launcher.isRunning = false → ∀ machine config port child,
    machine.port config = .ok port → s.spawn machine config port = .ok child →
    ∃ failure count, Awaited config.startupTimeoutMs (machine.rounds child config.host port) port
      failure count ∧ (s.launch machine config).1 = failure.elim (.ok port) .error
  /-- A launch that fails asks for the end of the process if it has started one. -/
  fails : ∀ machine config e, (s.launch machine config).1 = .error e →
    (s.launch machine config).2.2.launcher =
      { s.launcher with
        killed := (s.started? (.launch machine config)).toList ++ s.launcher.killed }

theorem orderly_of_quiet (hquiet : s.launcher.starting = []) {children : List χ}
    {reports : List Report} (hrunning : s.launcher.isRunning = true ↔ Lasting reports)
    (haccounts : s.launcher.held.toList ++ s.launcher.killed = children.reverse) :
    Orderly children reports s where
  isRunning_iff := hrunning
  accounts := haccounts
  refuses := launch_of_isRunning
  waits hidle _ _ _ _ hport hspawn :=
    ⟨_, _, awaited _ _ _, launch_of_spawn hquiet hidle hport hspawn⟩
  fails machine config e h := by
    have hstep := launch_performed hquiet machine config
    rw [h] at hstep
    generalize s.started? (.launch machine config) = child? at hstep ⊢
    generalize (s.launch machine config).2.2.launcher = l' at hstep ⊢
    cases hstep with
    | refused => rfl
    | failed child => rfl

theorem orderly (program : String) (args : List String) (es : List (Errand χ)) :
    Orderly ((fresh program args).started es) ((fresh program args).performAll es).1
      ((fresh program args).performAll es).2 := by
  have hquiet : (fresh program args : Service χ).launcher.starting = [] := rfl
  apply orderly_of_quiet (performAll_starting hquiet es)
  · have hrun := performAll_isRunning_iff hquiet es
    simpa [fresh, Launcher.idle, Launcher.isRunning] using hrun
  · have hrun := performAll_accounts hquiet es
    simpa [fresh, Launcher.idle] using hrun

end Service

/-- Every wait for a server ends, and says why; and every service that is asked one thing at a time
keeps to what it holds. -/
theorem awaited_and_orderly :
    (∀ (t : UInt64) (rounds : Nat → Round) (port : UInt16),
      Awaited t rounds port ((awaitReady (.ofMillis t) rounds).1.error? port (.ofMillis t))
        (awaitReady (.ofMillis t) rounds).2) ∧
      ∀ (program : String) (args : List String) (es : List (Errand χ)),
        Service.Orderly ((Service.fresh program args).started es)
          ((Service.fresh program args).performAll es).1
          ((Service.fresh program args).performAll es).2 :=
  ⟨awaited, Service.orderly⟩

/-! A program that ends with a status in the second round, and one that never listens. -/

def crashing : Machine Unit where
  freePort _ := .ok 4000
  spawn _ _ := .ok ()
  rounds _ _ _ k := ⟨.ok (if k = 0 then none else some (.code 3)), false, 0, 0⟩
  kill _ := .ok ()

def deaf : Machine Unit :=
  { crashing with rounds := fun _ _ _ _ ↦ ⟨.ok none, false, 0, 0⟩ }

def impatient : LaunchConfig := { LaunchConfig.standard with startupTimeoutMs := 100 }

theorem awaited_and_orderly_of_failures :
    ((Service.fresh "server" []).launch crashing impatient).1 =
      .error (.exited "exit status: 3") ∧
    ((Service.fresh "server" []).launch deaf impatient).1 = .error (.startupTimeout 4000 100) := by
  have horderly : Service.Orderly [] [] (Service.fresh "server" [] : Service Unit) :=
    awaited_and_orderly.2 "server" [] []
  constructor
  · obtain ⟨failure, count, hawaited, hanswer⟩ :=
      horderly.waits rfl crashing impatient 4000 () rfl rfl
    have hpending : Pending (.ofMillis 100) (crashing.rounds () "localhost" 4000) 1 := by
      intro i hi
      obtain rfl := Nat.lt_one_iff.mp hi
      exact ⟨rfl, rfl, by decide⟩
    rw [hanswer, (hawaited.exited_iff _).mpr ⟨1, .code 3, hpending, rfl, rfl⟩]
    rfl
  · obtain ⟨failure, count, hawaited, hanswer⟩ :=
      horderly.waits rfl deaf impatient 4000 () rfl rfl
    obtain ⟨k, hcount, hpending, hover⟩ := hawaited.lasts
    have hlate : (100 : UInt64).toNat * 1_000_000 ≤
        startOf (deaf.rounds () "localhost" 4000) k + 0 := by
      refine Nat.le_of_not_lt fun hearly ↦ hover fun i hi ↦ ?_
      rcases Nat.lt_succ_iff_lt_or_eq.mp hi with hi | rfl
      · exact hpending i hi
      · exact ⟨rfl, rfl, hearly⟩
    rw [hanswer,
      (hawaited.timeout_iff 4000 100).mpr ⟨rfl, rfl, k, hcount, hpending, rfl, rfl, hlate⟩]
    rfl

end RemoteObjects.Launch
