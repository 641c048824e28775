import RemoteObjects.Proofs.Proxy.Deeds

/-!
# Families of proxies

Whatever is held in the life of a proxy comes from the proxy that was built, by copying and by
taking methods, or was made from a descriptor.
-/

namespace RemoteObjects.Proxy

variable {κ ℓ : Type}

/-- The family of a proxy: itself, its clones, their clones and so on. -/
inductive Kin (p : Proxy κ ℓ) : Proxy κ ℓ → Prop where
  | self : Kin p p
  | clone {q : Proxy κ ℓ} (h : Kin p q) : Kin p q.clone

@[simp] theorem clone_clone (p : Proxy κ ℓ) : p.clone.clone = p.clone := rfl

theorem Foreign.clone_eq {p : Proxy κ ℓ} (h : p.Foreign) : p.clone = p := by
  obtain ⟨-, hattached, hlauncher⟩ := h
  rw [clone, ← hattached, ← hlauncher]

theorem Kin.eq_or {p q : Proxy κ ℓ} (h : p.Kin q) : q = p ∨ q = p.clone := by
  induction h with
  | self => exact .inl rfl
  | clone _ ih =>
      rcases ih with rfl | rfl
      · exact .inr rfl
      · exact .inr (clone_clone p)

theorem Kin.creation_eq {p q : Proxy κ ℓ} (h : p.Kin q) : q.creation = p.creation := by
  rcases h.eq_or with rfl | rfl <;> rfl

/-- What is known of everything held in the life of a proxy. -/
structure Known (p : Proxy κ ℓ) (u : Holder κ ℓ) : Prop where
  origin : p.Kin u.held ∨ u.held.Foreign
  isPublic : ∀ f, u = .method f → f.proxy.methods.contains f.name = true

theorem Known.copy {p : Proxy κ ℓ} {u : Holder κ ℓ} (h : p.Known u) : p.Known u.copy := by
  cases u with
  | method f => exact h
  | proxy q =>
      refine ⟨?_, fun f hf ↦ by cases hf⟩
      rcases h.origin with hkin | ⟨hcreation, -, -⟩
      · exact .inl hkin.clone
      · exact .inr ⟨hcreation, rfl, rfl⟩

theorem Known.take {p q : Proxy κ ℓ} {name : String} {f : Method κ ℓ} (h : p.Known (.proxy q))
    (hf : q.method name = .ok f) : p.Known (.method f) := by
  unfold method at hf
  split at hf
  · next hpublic =>
      cases hf
      refine ⟨h.origin, fun f hf ↦ ?_⟩
      cases hf
      exact hpublic
  · cases hf

/-- Whoever has a launcher holds the proxy that was built. -/
theorem Known.held_eq {p : Proxy κ ℓ} {u : Holder κ ℓ} (h : p.Known u) {l : ℓ}
    (hl : u.held.launcher = some l) : u.held = p := by
  rcases h.origin with hkin | ⟨-, -, hnone⟩
  · rcases hkin.eq_or with heq | heq
    · exact heq
    · rw [heq] at hl
      cases hl
  · cases hnone.symm.trans hl

theorem Known.insert {p : Proxy κ ℓ} {hands : Holdings κ ℓ} {into : String} {x : Holder κ ℓ}
    (h : ∀ u ∈ hands.values, p.Known u) (hx : p.Known x) :
    ∀ u ∈ (hands.insert into x).values, p.Known u := by
  intro u hu
  obtain ⟨key, hu⟩ := Keyed.mem_values.mp hu
  rcases Keyed.mem_insert.mp hu with heq | ⟨hu, -⟩
  · cases heq
    exact hx
  · exact h u (Keyed.mem_values.mpr ⟨key, hu⟩)

theorem Known.get {p : Proxy κ ℓ} {hands : Holdings κ ℓ} {name : String} {x : Holder κ ℓ}
    (h : ∀ u ∈ hands.values, p.Known u) (hx : hands.get? name = some x) : p.Known x :=
  h x (Keyed.mem_values.mpr ⟨name, Keyed.mem_of_get? hx⟩)

namespace Life

variable {p : Proxy κ ℓ} {said : List (Exchange κ ℓ)} {slot : String}

structure Familiar (p : Proxy κ ℓ) (life : Life κ ℓ) : Prop where
  held : ∀ u ∈ life.hands.values, p.Known u
  used : ∀ d ∈ life.doings, ∀ u, d.deed.user? = some u → p.Known u
  dropped : ∀ d ∈ life.doings, ∀ hands name, d.deed = .drop hands name →
    ∀ u ∈ hands.values, p.Known u

theorem Familiar.start : Familiar p (Life.start p said slot) where
  held := by
    have hp : p.Known (.proxy p) := ⟨.inl .self, fun f hf ↦ by cases hf⟩
    exact Known.insert (by simp [Keyed.values, Keyed.empty]) hp
  used d hd := by cases hd
  dropped d hd := by cases hd

variable [DecidableEq ℓ]

theorem lawful {life : Life κ ℓ} (h : Reaches (start p said slot) life) :
    Lawful Deed.terms life :=
  Lawful.reaches h (fun deed _ past ↦ course_obeys deed past) (.start p said slot)

/-- What a descriptor is made into has nothing to do with creations and launchers. -/
theorem Lawful.foreign {life : Life κ ℓ} (h : Lawful Deed.terms life) {d : Doing κ ℓ}
    (hd : d ∈ life.doings) {q : Proxy κ ℓ} (hrest : d.rest = .done (.revived (.ok q))) :
    q.Foreign := by
  have hends : d.deed.Ends d.since life.past (.revived (.ok q)) := h.ends_done hd hrest
  cases hdeed : d.deed <;> rw [hdeed] at hends
  case rehydrate => exact hends q rfl
  all_goals exact hends.elim

theorem Familiar.step {life life' : Life κ ℓ} (h : Familiar p life)
    (hlawful : Lawful Deed.terms life) (hstep : Step life life') : Familiar p life' := by
  cases hstep with
  | copy hheld hfree =>
      exact ⟨Known.insert h.held (Known.get h.held hheld).copy, h.used, h.dropped⟩
  | take hheld hmethod hfree =>
      exact ⟨Known.insert h.held ((Known.get h.held hheld).take hmethod), h.used, h.dropped⟩
  | keep hd hrest hfree =>
      have hknown : p.Known (.proxy _) := ⟨.inr (hlawful.foreign hd hrest), fun f hf ↦ by cases hf⟩
      exact ⟨Known.insert h.held hknown, h.used, h.dropped⟩
  | @begin past hands doings name deed hbegins =>
      refine ⟨fun u hu ↦ h.held u ?_, fun d hd u hu ↦ ?_, fun d hd hands' name' hdeed u hu ↦ ?_⟩
      · cases deed with
        | drop hands' name' =>
            obtain ⟨key, hu⟩ := Keyed.mem_values.mp hu
            exact Keyed.mem_values.mpr ⟨key, (Keyed.mem_erase.mp hu).1⟩
        | _ => exact hu
      · rcases List.mem_append.mp hd with hd | hd
        · exact h.used d hd u hu
        · rw [List.mem_singleton.mp hd] at hu
          cases hbegins with
          | use hheld huser =>
              obtain rfl : _ = u := Option.some.inj (huser.symm.trans hu)
              exact Known.get h.held hheld
          | rehydrate methods d codec => cases hu
          | drop hheld hidle => cases hu
      · rcases List.mem_append.mp hd with hd | hd
        · exact h.dropped d hd hands' name' hdeed u hu
        · rw [List.mem_singleton.mp hd] at hdeed
          cases hbegins with
          | use hheld huser =>
              subst hdeed
              cases huser
          | rehydrate methods d codec => cases hdeed
          | drop hheld hidle =>
              cases hdeed
              exact h.held u hu
  | proceed hrest hfits =>
      refine ⟨h.held, fun x hx u hu ↦ ?_, fun x hx hands' name' hdeed u hu ↦ ?_⟩
      · obtain ⟨y, hy, -, hsame, -⟩ := Doing.mem_advance hx
        exact h.used y hy u (hsame ▸ hu)
      · obtain ⟨y, hy, -, hsame, -⟩ := Doing.mem_advance hx
        exact h.dropped y hy hands' name' (hsame ▸ hdeed) u hu
  | create hstart hnew => exact ⟨h.held, h.used, h.dropped⟩
  | settle hcreated hnew => exact ⟨h.held, h.used, h.dropped⟩

theorem familiar {life : Life κ ℓ} (h : Reaches (start p said slot) life) : Familiar p life := by
  induction h with
  | refl => exact .start
  | tail hreaches hstep ih => exact ih.step (lawful hreaches) hstep

end Life

end RemoteObjects.Proxy
