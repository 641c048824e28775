import Mathlib.Logic.Function.Iterate
import RemoteObjects.Proofs.Retry.Repetition

/-!
# Repeating what changes the scene

An operation finds a scene and leaves another one, so its next answer may depend on all that went
before.  Whatever it makes of the scene, a policy tries it again and again in the same way: as often
as its answers are worth it and the policy permits, with one delay between two tries.
-/

namespace RemoteObjects

open Repetition (Settles again_of_not_settles)

namespace Venture

/-- Something that is done while operations are repeated.  To draw a jitter factor is to go on in
the schedule. -/
inductive Deed (ω : Type) where
  | tried (x : ω)
  | drew
  | slept (d : Duration)

structure Affairs (σ ω : Type) where
  scene : σ
  draws : Nat
  /-- What was done, the earliest first. -/
  deeds : List (Deed ω)

end Venture

/-- Code that runs on a scene, with jitter factors from a sequence; its reports are passed over. -/
abbrev Venture (σ ω : Type) : Type → Type :=
  ReaderT (Nat → Binary64) (ExceptT String (StateM (Venture.Affairs σ ω)))

namespace Venture

variable {σ ω ε α β : Type}

def did (d : Deed ω) : Venture σ ω Unit :=
  modify fun s ↦ { s with deeds := s.deeds ++ [d] }

instance : Effects (Venture σ ω) where
  sleep d := did (.slept d)
  jitter := do
    let draws := (← get).draws
    modify fun s ↦ { s with draws := draws + 1 }
    did .drew
    return (← read) draws
  log _ := pure ()
  crash reason := throw reason

def onScene (f : StateM σ α) : Venture σ ω α :=
  modifyGet fun s ↦ ((f.run s.scene).1, { s with scene := (f.run s.scene).2 })

def trial (x : ω) (f : StateM σ α) : Venture σ ω α := do
  did (.tried x)
  onScene f

/-- Whether code comes to an end, and with what. -/
def Runs (jitter : Nat → Binary64) (x : Venture σ ω α) (s : Affairs σ ω) (a : α)
    (s' : Affairs σ ω) : Prop :=
  (x.run jitter).run.run s = (.ok a, s')

variable {jitter : Nat → Binary64} {s s' s'' : Affairs σ ω}

theorem Runs.pure (a : α) : Runs jitter (Pure.pure a) s a s := rfl

theorem Runs.bind {x : Venture σ ω α} {f : α → Venture σ ω β} {a : α} {b : β}
    (hx : Runs jitter x s a s') (hf : Runs jitter (f a) s' b s'') :
    Runs jitter (x >>= f) s b s'' := by
  rw [Runs, ReaderT.run_bind, ExceptT.run_bind, StateT.run_bind, hx]
  exact hf

theorem Runs.of_bind {x : Venture σ ω α} {f : α → Venture σ ω β} {b : β}
    (h : Runs jitter (x >>= f) s b s'') :
    ∃ a s', Runs jitter x s a s' ∧ Runs jitter (f a) s' b s'' := by
  rw [Runs, ReaderT.run_bind, ExceptT.run_bind, StateT.run_bind] at h
  rcases hx : (x.run jitter).run.run s with ⟨reason | a, s'⟩
  · rw [hx] at h
    cases h
  · rw [hx] at h
    exact ⟨a, s', hx, h⟩

theorem Runs.unique {x : Venture σ ω α} {a b : α} (h : Runs jitter x s a s')
    (h' : Runs jitter x s b s'') : a = b ∧ s' = s'' := by
  have heq : ((.ok a, s') : Except String α × Affairs σ ω) = (.ok b, s'') :=
    Eq.trans (Eq.symm h) h'
  cases heq
  exact ⟨rfl, rfl⟩

theorem Runs.tryCatch {x : Venture σ ω α} {a : α} (h : Runs jitter x s a s')
    (handle : String → Venture σ ω α) : Runs jitter (MonadExcept.tryCatch x handle) s a s' := by
  have hx : x jitter s = (.ok a, s') := h
  change (ExceptT.tryCatch (x jitter) fun reason ↦ handle reason jitter) s = _
  rw [ExceptT.tryCatch, ExceptT.mk]
  change StateT.bind _ _ s = _
  rw [StateT.bind, hx]
  rfl

theorem jitter_runs : Runs jitter (Effects.jitter : Venture σ ω Binary64) s (jitter s.draws)
    ⟨s.scene, s.draws + 1, s.deeds ++ [.drew]⟩ := rfl

theorem sleep_runs (d : Duration) : Runs jitter (Effects.sleep d : Venture σ ω Unit) s ()
    ⟨s.scene, s.draws, s.deeds ++ [.slept d]⟩ := rfl

theorem log_runs (e : Event) : Runs jitter (Effects.log e : Venture σ ω Unit) s () s := rfl

/-- Whether to run code is to try this on the scene, once. -/
def Tries (jitter : Nat → Binary64) (op : Venture σ ω α) (x : ω) (f : StateM σ α) : Prop :=
  ∀ s, Runs jitter op s (f.run s.scene).1
    ⟨(f.run s.scene).2, s.draws, s.deeds ++ [.tried x]⟩

theorem trial_tries (x : ω) (f : StateM σ α) : Tries jitter (trial x f) x f := fun _ ↦ rfl

/-! ## Trying the same again and again -/

def scenes (f : StateM σ α) (scene : σ) (tries : Nat) : σ := (fun s ↦ (f.run s).2)^[tries] scene

/-- What is answered after so many tries. -/
def answers (f : StateM σ α) (scene : σ) (tries : Nat) : α := (f.run (scenes f scene tries)).1

theorem scenes_next (f : StateM σ α) (scene : σ) (tries : Nat) :
    scenes f (f.run scene).2 tries = scenes f scene (tries + 1) := rfl

theorem answers_next (f : StateM σ α) (scene : σ) (tries : Nat) :
    answers f (f.run scene).2 tries = answers f scene (tries + 1) := rfl

theorem scenes_of_unchanged {f : StateM σ α} {scene : σ} {a : α} (h : f.run scene = (a, scene))
    (tries : Nat) : scenes f scene tries = scene :=
  Function.iterate_fixed (congrArg Prod.snd h) tries

theorem answers_of_unchanged {f : StateM σ α} {scene : σ} {a : α} (h : f.run scene = (a, scene))
    (tries : Nat) : answers f scene tries = a := by
  rw [answers, scenes_of_unchanged h]
  exact congrArg Prod.fst h

/-- All that is done when these delays lie between the tries. -/
def course (x : ω) (ds : List Duration) : List (Deed ω) :=
  ds.flatMap (fun d ↦ [.tried x, .drew, .slept d]) ++ [.tried x]

theorem course_cons (x : ω) (d : Duration) (ds : List Duration) :
    course x (d :: ds) = [.tried x, .drew, .slept d] ++ course x ds := by
  simp [course]

/-- The delays of a policy under the jitter factors that so many further draws yield. -/
def delays (jitter : Nat → Binary64) (b : Backoff) (draws count : Nat) :
    Except Duration.Failure (List Duration) :=
  b.delays ((List.range' draws count).map jitter)

theorem length_of_delays {b : Backoff} {draws count : Nat} {ds : List Duration}
    (h : delays jitter b draws count = .ok ds) : ds.length = count := by
  induction count generalizing b draws ds with
  | zero =>
      cases h
      rfl
  | succ count ih =>
      obtain ⟨d, b', ds', -, hrest, rfl⟩ := Backoff.delays_cons h
      rw [List.length_cons, ih hrest]

/-- Some try is the last one: the first that settles the matter, or the last that is permitted. -/
theorem exists_last (settles : Nat → Prop) (permitted : Nat) :
    ∃ k ≤ permitted, (∀ i < k, ¬settles i) ∧ (k = permitted ∨ settles k) := by
  induction permitted with
  | zero => exact ⟨0, Nat.le_refl 0, nofun, .inl rfl⟩
  | succ permitted ih =>
      obtain ⟨k, hk, hbefore, hlast⟩ := ih
      by_cases hsettles : settles k
      · exact ⟨k, Nat.le_succ_of_le hk, hbefore, .inr hsettles⟩
      · obtain rfl : k = permitted := hlast.resolve_right hsettles
        refine ⟨k + 1, Nat.le_refl _, fun i hi ↦ ?_, .inl rfl⟩
        rcases Nat.lt_succ_iff_lt_or_eq.mp hi with hi | rfl
        · exact hbefore i hi
        · exact hsettles

def running (jitter : Nat → Binary64) : Repetition.Running (Venture σ ω) (Affairs σ ω) :=
  ⟨Runs jitter, Runs.pure, Runs.bind, log_runs⟩

/-- Tries in vain follow one another as long as there are delays between them. -/
theorem repeats_running {again : ε → Bool} {op : Venture σ ω (Except ε α)} {x : ω}
    {f : StateM σ (Except ε α)} {k : Nat} {b : Backoff} {ds : List Duration}
    (hop : Tries jitter op x f) (hagain : ∀ i < k, ¬Settles again (answers f s.scene i))
    (hdelays : delays jitter b s.draws k = .ok ds) :
    (running jitter).Repeats again op b s k (answers f s.scene k)
      ⟨scenes f s.scene (k + 1), s.draws + k, s.deeds ++ course x ds⟩ := by
  induction k generalizing b ds s with
  | zero =>
      cases hdelays
      exact .last (hop s)
  | succ k ih =>
      obtain ⟨d, b', ds', hnext, hrest, rfl⟩ := Backoff.delays_cons hdelays
      obtain ⟨e, hanswer, he⟩ := again_of_not_settles (hagain 0 (Nat.succ_pos k))
      have htried := hop s
      rw [show (f.run s.scene).1 = .error e from hanswer] at htried
      -- The rest begins on the scene that the first try leaves, one draw further on.
      have hrepeats := @ih ⟨(f.run s.scene).2, s.draws + 1,
        s.deeds ++ [.tried x] ++ [.drew] ++ [.slept d]⟩ b' ds'
        (fun i hi ↦ hagain (i + 1) (Nat.succ_lt_succ hi)) hrest
      have hdraws : s.draws + 1 + k = s.draws + (k + 1) := by omega
      have hdeeds : s.deeds ++ [.tried x] ++ [.drew] ++ [.slept d] ++ course x ds' =
          s.deeds ++ course x (d :: ds') := by simp [course_cons]
      simp only [scenes_next, answers_next, hdraws, hdeeds] at hrepeats
      exact .again htried he jitter_runs hnext (sleep_runs d) hrepeats

/-- However often something was tried in the end, every try but the last was in vain, and the last
one settled the matter or was the last that is permitted. -/
theorem tries_of_attempt [ToString ε] {again : ε → Bool} {op : Venture σ ω (Except ε α)} {x : ω}
    {f : StateM σ (Except ε α)} {left : Nat} {done : UInt32} {b : Backoff}
    {r : Except (RetryError ε) α} (hop : Tries jitter op x f)
    (h : Runs jitter (RetryPolicy.attempt again op left done b) s r s') :
    ∃ k ds attempts, k ≤ left ∧ (∀ i < k, ¬Settles again (answers f s.scene i)) ∧
      r = Repetition.verdict again attempts (answers f s.scene k) ∧
      s'.scene = scenes f s.scene (k + 1) ∧ s'.deeds = s.deeds ++ course x ds := by
  have hlast {done : UInt32} {b : Backoff} {s : Affairs σ ω} {left : Nat}
      (h : Runs jitter (RetryPolicy.attempt again op left done b) s r s')
      (hlast : left = 0 ∨ Settles again (answers f s.scene 0)) :
      r = Repetition.verdict again (done + 1) (answers f s.scene 0) ∧
        s'.scene = scenes f s.scene 1 ∧ s'.deeds = s.deeds ++ course x [] := by
    obtain ⟨rfl, rfl⟩ := h.unique ((running jitter).attempt_last (hop s) hlast)
    exact ⟨rfl, rfl, rfl⟩
  induction left generalizing done b s with
  | zero => exact ⟨0, [], _, Nat.le_refl 0, nofun, hlast h (.inl rfl)⟩
  | succ left ih =>
      by_cases hsettles : Settles again (answers f s.scene 0)
      · exact ⟨0, [], _, Nat.zero_le _, nofun, hlast h (.inr hsettles)⟩
      · obtain ⟨e, hanswer, he⟩ := again_of_not_settles hsettles
        rw [RetryPolicy.attempt] at h
        obtain ⟨first, s₁, hfirst, h⟩ := h.of_bind
        obtain ⟨rfl, rfl⟩ := hfirst.unique (hop s)
        rw [show (f.run s.scene).1 = .error e from hanswer] at h
        simp only [he, Bool.not_true, Bool.false_eq_true, if_false] at h
        obtain ⟨factor, s₂, hfactor, h⟩ := h.of_bind
        obtain ⟨-, rfl⟩ := hfactor.unique jitter_runs
        cases hnext : b.next factor with
        | error failure =>
            rw [hnext] at h
            cases h
        | ok next =>
            obtain ⟨d, b'⟩ := next
            simp only [hnext] at h
            obtain ⟨_, s₃, hlog, h⟩ := h.of_bind
            obtain ⟨-, rfl⟩ := hlog.unique (log_runs _)
            obtain ⟨_, s₄, hsleep, h⟩ := h.of_bind
            obtain ⟨-, rfl⟩ := hsleep.unique (sleep_runs d)
            obtain ⟨k, ds, attempts, hk, hvain, hr, hscene, hdeeds⟩ := ih h
            refine ⟨k + 1, d :: ds, attempts, Nat.succ_le_succ hk, ?_, hr, hscene, ?_⟩
            · rintro (_ | i) hi
              · exact hsettles
              · exact hvain i (Nat.lt_of_succ_lt_succ hi)
            · rw [hdeeds, course_cons]
              simp

end Venture

end RemoteObjects
