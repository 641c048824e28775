import Mathlib.Data.List.Induction
import Mathlib.Data.List.Nodup
import RemoteObjects.Launch.Config

/-!
# Flags tell what a server is to be

The name of a flag settles what follows it: the next item is its value, whatever that looks like.
So a host or a type that is spelled like a flag is read back like any other, and servers that are
told different things are given different flags.  Types stand in the order in which they were first
added, each of them once.
-/

namespace RemoteObjects

/-! ## Flags are read back -/

namespace Flag

variable {name value : String} {args rest values : List String} {on : Bool}

/-- The value of a flag that stands first, and what stands behind it. -/
def value? (name : String) : List String → Option (String × List String)
  | flag :: value :: rest => if flag = name then some (value, rest) else none
  | _ => none

/-- Whether a flag without a value stands first, and what stands behind it. -/
def switch (name : String) : List String → Bool × List String
  | flag :: rest => if flag = name then (true, rest) else (false, flag :: rest)
  | [] => (false, [])

/-- The values of a flag that is given any number of times, and nothing else with it. -/
def values? (name : String) : List String → Option (List String)
  | flag :: value :: rest => if flag = name then (values? name rest).map (value :: ·) else none
  | [_] => none
  | [] => some []

theorem value?_eq_some_iff :
    value? name args = some (value, rest) ↔ args = name :: value :: rest := by
  constructor
  · intro h
    unfold value? at h
    split at h
    · split at h
      · next hname =>
          cases h
          rw [hname]
      · cases h
    · cases h
  · rintro rfl
    exact if_pos rfl

theorem eq_append_of_switch (h : switch name args = (on, rest)) :
    args = (if on then [name] else []) ++ rest := by
  unfold switch at h
  split at h
  · split at h
    · next hname =>
        cases h
        rw [hname]
        rfl
    · cases h
      rfl
  · cases h
    rfl

theorem switch_append (h : rest.head? ≠ some name) :
    switch name ((if on then [name] else []) ++ rest) = (on, rest) := by
  cases on with
  | true => exact if_pos rfl
  | false =>
      cases rest with
      | nil => rfl
      | cons flag rest => exact if_neg fun hname ↦ h (congrArg some hname)

theorem values?_eq_some_iff :
    values? name args = some values ↔ args = values.flatMap fun value ↦ [name, value] := by
  fun_induction values? name args generalizing values with
  | case1 value rest ih =>
      cases values with
      | nil => simp
      | cons first values => simp [ih, and_comm]
  | case2 flag value rest hname =>
      cases values with
      | nil => simp
      | cons first values => simp [hname]
  | case3 flag =>
      cases values with
      | nil => simp
      | cons first values => simp
  | case4 =>
      cases values with
      | nil => simp
      | cons first values => simp

/-- The thing with a given text, if it is the one that is guessed from the text. -/
def spelled? {α : Type} (print : α → String) (guess : String → α) (text : String) : Option α :=
  if print (guess text) = text then some (guess text) else none

theorem spelled?_eq_some_iff {α : Type} {print : α → String} {guess : String → α}
    (hguess : ∀ a, guess (print a) = a) {text : String} {a : α} :
    spelled? print guess text = some a ↔ text = print a := by
  unfold spelled?
  constructor
  · intro h
    split at h
    · next htext =>
        cases h
        exact htext.symm
    · cases h
  · rintro rfl
    rw [hguess, if_pos rfl]

end Flag

namespace LaunchConfig

/-- What flags tell a server. -/
structure Told where
  host : String
  port : UInt16
  maxPoolSize : UInt64
  maxTimeoutSeconds : UInt64
  localMode : Bool
  objectTypes : List String
  deriving DecidableEq

def told (c : LaunchConfig) (port : UInt16) : Told where
  host := c.host
  port := port
  maxPoolSize := c.maxPoolSize
  maxTimeoutSeconds := c.maxTimeoutSeconds
  localMode := c.localMode
  objectTypes := c.objectTypes

namespace Told

def config (t : Told) : LaunchConfig :=
  { standard with
    host := t.host
    maxPoolSize := t.maxPoolSize
    maxTimeoutSeconds := t.maxTimeoutSeconds
    localMode := t.localMode
    objectTypes := t.objectTypes }

def port? : String → Option UInt16 :=
  Flag.spelled? (fun p ↦ toString p.toNat) fun text ↦ .ofNat (.ofDigitChars 10 text.toList 0)

def count? : String → Option UInt64 :=
  Flag.spelled? (fun n ↦ toString n.toNat) fun text ↦ .ofNat (.ofDigitChars 10 text.toList 0)

def ofFlags? (args : List String) : Option Told := do
  let (host, args) ← Flag.value? "--host" args
  let (port, args) ← Flag.value? "--port" args
  let (maxPoolSize, args) ← Flag.value? "--max-pool-size" args
  let (maxTimeoutSeconds, args) ← Flag.value? "--max-timeout-seconds" args
  let (localMode, args) := Flag.switch "--local-mode" args
  let objectTypes ← Flag.values? "--object-type" args
  return {
    host := host
    port := ← port? port
    maxPoolSize := ← count? maxPoolSize
    maxTimeoutSeconds := ← count? maxTimeoutSeconds
    localMode := localMode
    objectTypes := objectTypes }

variable {t : Told} {args : List String} {text : String}

theorem port?_eq_some_iff {p : UInt16} : port? text = some p ↔ text = toString p.toNat := by
  apply Flag.spelled?_eq_some_iff
  intro p
  rw [Nat.toString_eq_repr, Nat.toList_repr, Nat.ofDigitChars_ten_toDigits, UInt16.ofNat_toNat]

theorem count?_eq_some_iff {n : UInt64} : count? text = some n ↔ text = toString n.toNat := by
  apply Flag.spelled?_eq_some_iff
  intro n
  rw [Nat.toString_eq_repr, Nat.toList_repr, Nat.ofDigitChars_ten_toDigits, UInt64.ofNat_toNat]

/-- What is told is read from the flags that tell it and from nothing else. -/
theorem ofFlags?_eq_some_iff : ofFlags? args = some t ↔ args = t.config.flags t.port := by
  simp only [ofFlags?, Option.bind_eq_bind, Option.bind_eq_some_iff, Prod.exists, Option.pure_def,
    Option.some.injEq]
  constructor
  · rintro ⟨host, rest₁, hhost, port, rest₂, hport, size, rest₃, hsize, timeout, rest₄, htimeout,
      types, htypes, p, hp, n, hn, m, hm, rfl⟩
    rcases hlocal : Flag.switch "--local-mode" rest₄ with ⟨on, rest₅⟩
    rw [hlocal] at htypes
    obtain rfl : rest₅ = types.flatMap fun type ↦ ["--object-type", type] :=
      Flag.values?_eq_some_iff.mp htypes
    obtain rfl := Flag.eq_append_of_switch hlocal
    obtain rfl := Flag.value?_eq_some_iff.mp htimeout
    obtain rfl := Flag.value?_eq_some_iff.mp hsize
    obtain rfl := Flag.value?_eq_some_iff.mp hport
    obtain rfl := Flag.value?_eq_some_iff.mp hhost
    rw [port?_eq_some_iff.mp hp, count?_eq_some_iff.mp hn, count?_eq_some_iff.mp hm]
    rfl
  · rintro rfl
    let typeFlags := t.objectTypes.flatMap fun type ↦ ["--object-type", type]
    -- A flag for a type is no flag for the local mode, so the reader knows where the types begin.
    have hlocal : Flag.switch "--local-mode"
        ((if t.localMode then ["--local-mode"] else []) ++ typeFlags) =
          (t.localMode, typeFlags) := by
      apply Flag.switch_append
      cases htypes : t.objectTypes with
      | nil => simp [typeFlags, htypes]
      | cons first types => simp [typeFlags, htypes]
    refine ⟨t.host, _, Flag.value?_eq_some_iff.mpr rfl, _, _, Flag.value?_eq_some_iff.mpr rfl,
      _, _, Flag.value?_eq_some_iff.mpr rfl, _, _, Flag.value?_eq_some_iff.mpr rfl, ?_⟩
    refine ⟨t.objectTypes, ?_, t.port, port?_eq_some_iff.mpr rfl, t.maxPoolSize,
      count?_eq_some_iff.mpr rfl, t.maxTimeoutSeconds, count?_eq_some_iff.mpr rfl, ?_⟩
    · apply Flag.values?_eq_some_iff.mpr
      exact congrArg Prod.snd hlocal
    · exact congrArg (fun on ↦ { t with localMode := on }) (congrArg Prod.fst hlocal)

end Told

theorem ofFlags?_flags (c : LaunchConfig) (port : UInt16) :
    Told.ofFlags? (c.flags port) = some (c.told port) :=
  Told.ofFlags?_eq_some_iff.mpr rfl

theorem exists_flags_iff {args : List String} {t : Told} :
    Told.ofFlags? args = some t ↔ ∃ c port, flags c port = args ∧ c.told port = t := by
  constructor
  · intro h
    exact ⟨t.config, t.port, (Told.ofFlags?_eq_some_iff.mp h).symm, rfl⟩
  · rintro ⟨c, port, rfl, rfl⟩
    exact ofFlags?_flags c port

theorem flags_eq_flags_iff {c d : LaunchConfig} {p q : UInt16} :
    c.flags p = d.flags q ↔ c.told p = d.told q := by
  constructor
  · intro h
    apply Option.some.inj
    rw [← ofFlags?_flags, ← ofFlags?_flags, h]
  · intro h
    exact congrArg (fun t : Told ↦ t.config.flags t.port) h

/-! ## Types in the order of their addition -/

variable {c : LaunchConfig} {type : String} {types added : List String}

def withObjectTypes (c : LaunchConfig) (types : List String) : LaunchConfig :=
  types.foldl withObjectType c

theorem withObjectType_of_mem (h : type ∈ c.objectTypes) : c.withObjectType type = c := if_pos h

theorem withObjectType_of_notMem (h : type ∉ c.objectTypes) :
    c.withObjectType type = { c with objectTypes := c.objectTypes ++ [type] } := if_neg h

theorem withObjectTypes_concat (c : LaunchConfig) (types : List String) (type : String) :
    c.withObjectTypes (types ++ [type]) = (c.withObjectTypes types).withObjectType type := by
  rw [withObjectTypes, List.foldl_append]
  rfl

/-- Whether these types are the new ones among all that are added, each in its place by its first
addition. -/
structure Gains (c : LaunchConfig) (types added : List String) : Prop where
  mem_iff : ∀ type, type ∈ added ↔ type ∈ types ∧ type ∉ c.objectTypes
  in_order : added.Pairwise fun s t ↦ types.idxOf s < types.idxOf t

namespace Gains

theorem nil (c : LaunchConfig) : c.Gains [] [] := ⟨by simp, .nil⟩

theorem nodup_append (h : c.Gains types added) (hc : c.objectTypes.Nodup) :
    (c.objectTypes ++ added).Nodup := by
  apply hc.append
  · apply h.in_order.imp
    rintro s t hlt rfl
    exact Nat.lt_irrefl _ hlt
  · intro type hold hnew
    exact ((h.mem_iff type).mp hnew).2 hold

theorem in_order_concat (h : c.Gains types added) (type : String) :
    added.Pairwise fun s t ↦ (types ++ [type]).idxOf s < (types ++ [type]).idxOf t := by
  apply h.in_order.imp_of_mem
  intro s t hs ht hlt
  rwa [List.idxOf_append_of_mem ((h.mem_iff s).mp hs).1,
    List.idxOf_append_of_mem ((h.mem_iff t).mp ht).1]

theorem again (h : c.Gains types added) (htype : type ∈ c.objectTypes ++ added) :
    c.Gains (types ++ [type]) added where
  mem_iff other := by
    have hother := h.mem_iff other
    have hsame := h.mem_iff type
    grind
  in_order := h.in_order_concat type

theorem new (h : c.Gains types added) (htype : type ∉ c.objectTypes ++ added) :
    c.Gains (types ++ [type]) (added ++ [type]) where
  mem_iff other := by
    have hother := h.mem_iff other
    grind
  in_order := by
    apply List.pairwise_append.mpr
    refine ⟨h.in_order_concat type, List.pairwise_singleton _ _, ?_⟩
    intro s hs t ht
    obtain rfl := List.mem_singleton.mp ht
    have hold := (h.mem_iff s).mp hs
    have hnew : t ∉ types := by
      intro hmem
      have hadded := (h.mem_iff t).mpr ⟨hmem, fun hc ↦ htype (List.mem_append_left _ hc)⟩
      exact htype (List.mem_append_right _ hadded)
    calc (types ++ [t]).idxOf s = types.idxOf s := List.idxOf_append_of_mem hold.1
      _ < types.length := List.idxOf_lt_length_of_mem hold.1
      _ = types.length + [t].idxOf t := by rw [List.idxOf_cons_self, Nat.add_zero]
      _ = (types ++ [t]).idxOf t := (List.idxOf_append_of_notMem hnew).symm

end Gains

theorem exists_gains (c : LaunchConfig) (types : List String) :
    ∃ added, c.Gains types added ∧
      c.withObjectTypes types = { c with objectTypes := c.objectTypes ++ added } := by
  induction types using List.reverseRecOn with
  | nil =>
      refine ⟨[], .nil c, ?_⟩
      rw [List.append_nil]
      rfl
  | append_singleton types type ih =>
      obtain ⟨added, hgains, htypes⟩ := ih
      rw [withObjectTypes_concat, htypes]
      by_cases htype : type ∈ c.objectTypes ++ added
      · refine ⟨added, hgains.again htype, ?_⟩
        exact withObjectType_of_mem htype
      · refine ⟨added ++ [type], hgains.new htype, ?_⟩
        rw [withObjectType_of_notMem htype, List.append_assoc]

theorem mem_withObjectTypes_iff :
    type ∈ (c.withObjectTypes types).objectTypes ↔ type ∈ c.objectTypes ∨ type ∈ types := by
  obtain ⟨added, hgains, htypes⟩ := c.exists_gains types
  rw [htypes]
  have htype := hgains.mem_iff type
  grind

/-- To add a type once more changes nothing, whenever that is. -/
theorem withObjectTypes_again {before : List String} (h : type ∈ c.objectTypes ∨ type ∈ before)
    (after : List String) :
    c.withObjectTypes (before ++ type :: after) = c.withObjectTypes (before ++ after) := by
  have hadded : type ∈ (c.withObjectTypes before).objectTypes := mem_withObjectTypes_iff.mpr h
  rw [withObjectTypes, withObjectTypes, List.foldl_append, List.foldl_append, List.foldl_cons]
  congr 1
  exact withObjectType_of_mem hadded

/-- What a server is told is read back from its flags, however it is spelled, and the flags tell
nothing else.  The types it is told are those of the configuration and then those that were added
to it, in the order in which they first were, each of them once. -/
theorem flags_tell :
    (∀ (c : LaunchConfig) port, Told.ofFlags? (c.flags port) = some (c.told port)) ∧
    (∀ args t, Told.ofFlags? args = some t ↔
      ∃ (c : LaunchConfig) (port : UInt16), c.flags port = args ∧ c.told port = t) ∧
    (∀ (c d : LaunchConfig) p q, c.flags p = d.flags q ↔ c.told p = d.told q) ∧
    (∀ (c : LaunchConfig) types, ∃ added, c.Gains types added ∧
      c.withObjectTypes types = { c with objectTypes := c.objectTypes ++ added } ∧
      (c.objectTypes.Nodup → (c.objectTypes ++ added).Nodup)) ∧
    ∀ (c : LaunchConfig) before type after, type ∈ c.objectTypes ∨ type ∈ before →
      c.withObjectTypes (before ++ type :: after) = c.withObjectTypes (before ++ after) := by
  refine ⟨ofFlags?_flags, ?_, ?_, ?_, ?_⟩
  · exact fun _ _ ↦ exists_flags_iff
  · exact fun _ _ _ _ ↦ flags_eq_flags_iff
  · intro c types
    obtain ⟨added, hgains, htypes⟩ := c.exists_gains types
    exact ⟨added, hgains, htypes, hgains.nodup_append⟩
  · exact fun c before type after h ↦ withObjectTypes_again h after

/-- A server at an address, with types, that are spelled like flags. -/
def lookalike : LaunchConfig :=
  { standard with
    host := "--port"
    localMode := false
    objectTypes := ["--object-type", ""] }

theorem flags_tell_lookalike :
    lookalike.objectTypes.Nodup ∧
    Told.ofFlags? (lookalike.flags 0) =
      some ⟨"--port", 0, 8192, 7200, false, ["--object-type", ""]⟩ ∧
    lookalike.flags 0 ≠ { lookalike with localMode := true }.flags 0 ∧
    (∃ added, lookalike.Gains ["--local-mode", "", "x", "--local-mode"] added ∧
      (lookalike.objectTypes ++ added).Nodup) ∧
    lookalike.withObjectTypes (["x"] ++ "" :: []) = lookalike.withObjectTypes (["x"] ++ []) := by
  obtain ⟨hread, -, hsame, htypes, hagain⟩ := flags_tell
  have hnodup : lookalike.objectTypes.Nodup := by decide
  refine ⟨hnodup, hread lookalike 0, ?_, ?_, ?_⟩
  · rw [ne_eq, hsame]
    decide
  · obtain ⟨added, hgains, -, hadded⟩ := htypes lookalike ["--local-mode", "", "x", "--local-mode"]
    exact ⟨added, hgains, hadded hnodup⟩
  · exact hagain lookalike ["x"] "" [] (.inl (by decide))

end LaunchConfig

end RemoteObjects
