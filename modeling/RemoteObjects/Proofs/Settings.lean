import RemoteObjects.Client.Config
import RemoteObjects.Launch.Config
import RemoteObjects.Proofs.Binary64.Rounding
import RemoteObjects.Proofs.Json.Defaults
import RemoteObjects.Proofs.Wire.Order

/-!
# Settings survive JSON

Settings are read back from their own texts.  Any of the fields that may be missing can be left out
of the document; just these have their defaults then, also in the retry section of a client, which
is a record of its own and may be null.  Whatever is accepted has finite delays, so it can be
written and is read as before.
-/

namespace RemoteObjects

open Json

/-! ## Delays -/

/-- Whether a number has a text in JSON. -/
def Binary64.IsFinite (d : Binary64) : Prop := ∃ x, d = .finite x

/-- Whether a number is read back from its text in JSON. -/
def Binary64.ReadsBack (d : Binary64) : Prop := ∃ x, d = .finite x ∧ (Number.float x).ReadsBack

theorem Binary64.ReadsBack.isFinite {d : Binary64} (h : d.ReadsBack) : d.IsFinite :=
  h.imp fun _ ↦ And.left

theorem Binary64.ReadsBack.floatTree {d : Binary64} (h : d.ReadsBack) :
    (RetryConfig.floatTree d).ReadsBack := by
  obtain ⟨x, rfl, hx⟩ := h
  rintro _ ⟨⟩
  exact hx

def RetryConfig.delays : RetryConfig → List Binary64
  | .fixed _ delay => [delay]
  | .exponential _ baseDelay maxDelay => [baseDelay, maxDelay]

def ClientConfig.delays (c : ClientConfig) : List Binary64 := c.retry.elim [] RetryConfig.delays

theorem Binary64.isFinite_ofRatio (negative : Bool) {n : Nat} (h : n ≤ UInt64.size) :
    (ofRatio negative n 1).IsFinite := by
  have hsize : UInt64.size = 2 ^ 64 := rfl
  have hle : n <<< 1074 ≤ 2 ^ 64 * one * 1 := by
    rw [shiftLeft_one, Nat.mul_one, ← hsize]
    exact Nat.mul_le_mul_right one h
  obtain ⟨x, hx, -, -⟩ := ofUnits_of_le negative (by decide) Nat.one_pos hle
  exact ⟨x, hx⟩

namespace Json

theorem Number.isFinite_toBinary64 (n : Number) : n.toBinary64.IsFinite := by
  cases n with
  | natural n => exact Binary64.isFinite_ofRatio false (Nat.le_of_lt n.toNat_lt)
  | negative below =>
      have hbelow := below.isLt
      have hsize : UInt64.size = 2 ^ 64 := rfl
      exact Binary64.isFinite_ofRatio _ (by omega)
  | float x => exact ⟨x, rfl⟩

theorem Decoder.isFinite_of_float {place : Place} {draft : Draft} {d : Binary64}
    (h : float place draft = .ok d) : d.IsFinite := by
  unfold float at h
  split at h
  · next n =>
      cases h
      exact n.isFinite_toBinary64
  · exact absurd h mismatch_ne_ok

end Json

theorem Json.Decoder.float_ofTree {d : Binary64} (h : d.IsFinite) (place : Place) :
    float place (.ofTree (RetryConfig.floatTree d)) = .ok d := by
  obtain ⟨x, rfl⟩ := h
  rfl

/-! ## Defaults -/

/-- The configuration with the defaults of the fields of these names. -/
def RetryConfig.defaulting (c : RetryConfig) (out : List String) : RetryConfig :=
  match c with
  | .fixed maxAttempts delay =>
    .fixed (if "max_attempts" ∈ out then defaultMaxAttempts else maxAttempts)
      (if "delay" ∈ out then defaultDelay else delay)
  | .exponential maxAttempts baseDelay maxDelay =>
    .exponential (if "max_attempts" ∈ out then defaultMaxAttempts else maxAttempts)
      (if "base_delay" ∈ out then defaultDelay else baseDelay)
      (if "max_delay" ∈ out then defaultMaxDelay else maxDelay)

/-- The settings with the defaults of the fields of the names `out.1`, and of those of the names
`out.2` in the retry section. -/
def ClientConfig.defaulting (c : ClientConfig) (out : List String × List String) :
    ClientConfig where
  connectTimeoutMs :=
    if "connect_timeout_ms" ∈ out.1 then standard.connectTimeoutMs else c.connectTimeoutMs
  ioTimeoutMs := if "io_timeout_ms" ∈ out.1 then standard.ioTimeoutMs else c.ioTimeoutMs
  probeTimeoutMs := if "probe_timeout_ms" ∈ out.1 then standard.probeTimeoutMs else c.probeTimeoutMs
  retry := if "retry" ∈ out.1 then standard.retry else c.retry.map (·.defaulting out.2)

def LaunchConfig.defaulting (c : LaunchConfig) (out : List String) : LaunchConfig where
  host := if "host" ∈ out then standard.host else c.host
  port := if "port" ∈ out then standard.port else c.port
  maxPoolSize := if "max_pool_size" ∈ out then standard.maxPoolSize else c.maxPoolSize
  maxTimeoutSeconds :=
    if "max_timeout_seconds" ∈ out then standard.maxTimeoutSeconds else c.maxTimeoutSeconds
  localMode := if "local_mode" ∈ out then standard.localMode else c.localMode
  startupTimeoutMs :=
    if "startup_timeout_ms" ∈ out then standard.startupTimeoutMs else c.startupTimeoutMs
  objectTypes := if "object_types" ∈ out then standard.objectTypes else c.objectTypes

/-! ## Retry configurations -/

namespace RetryConfig

theorem takes_count {kept members : List (String × Tree)} {out : List String} {name : String}
    {n : UInt32} (absent : UInt32)
    (hkept : kept.lookup name = if name ∈ out then none else members.lookup name)
    (ht : members.lookup name = some (.number (.natural n.toUInt64))) :
    (Field.optional name .uint32 absent).Takes .buffer (Draft.ofMembers kept)
      (if name ∈ out then absent else n) :=
  Field.takes_without absent hkept ht (Decoder.uint32_ofTree _ n)

theorem takes_delay {kept members : List (String × Tree)} {out : List String} {name : String}
    {d : Binary64} (absent : Binary64) (hd : d.IsFinite)
    (hkept : kept.lookup name = if name ∈ out then none else members.lookup name)
    (ht : members.lookup name = some (floatTree d)) :
    (Field.optional name .float absent).Takes .buffer (Draft.ofMembers kept)
      (if name ∈ out then absent else d) :=
  Field.takes_without absent hkept ht (Decoder.float_ofTree hd _)

theorem depth_floatTree (d : Binary64) : (floatTree d).depth = 0 := by
  cases d <;> rfl

theorem depthMembers_of_tree {c : RetryConfig} {members : List (String × Tree)}
    (h : c.tree = .object members) : Tree.depthMembers members = 0 := by
  cases c with
  | fixed maxAttempts delay =>
      cases h
      simp [Tree.depthMembers, Tree.depth, depth_floatTree]
  | exponential maxAttempts baseDelay maxDelay =>
      cases h
      simp [Tree.depthMembers, Tree.depth, depth_floatTree]

theorem decode_without (c : RetryConfig) {place inner : Place} (henter : place.enter = .ok inner)
    {out : List String} {u : Tree} (hkind : "kind" ∉ out) (hfinite : ∀ d ∈ c.delays, d.IsFinite)
    (hu : c.tree.Without out u) : tagged.decode place (.ofTree u) = .ok (c.defaulting out) := by
  obtain ⟨members, kept, hmembers, rfl, hkept⟩ := hu
  have hdepth : inner.Holds (Tree.depthMembers members) := by
    rw [depthMembers_of_tree hmembers]
    exact .zero
  cases c with
  | fixed maxAttempts delay =>
      cases hmembers
      apply tagged.decode_without henter hkept (by simp) hdepth hkind rfl rfl
      intro others hothers
      simp only [Fields.ofMembers_eq_ok_iff, Fields.ofMembers_done]
      refine ⟨_, takes_count _ (hothers _ (by decide)) rfl, _, ?_, rfl⟩
      exact takes_delay _ (hfinite delay (by simp [delays])) (hothers _ (by decide)) rfl
  | exponential maxAttempts baseDelay maxDelay =>
      cases hmembers
      apply tagged.decode_without henter hkept (by simp) hdepth hkind rfl rfl
      intro others hothers
      simp only [Fields.ofMembers_eq_ok_iff, Fields.ofMembers_done]
      refine ⟨_, takes_count _ (hothers _ (by decide)) rfl, _, ?_, _, ?_, rfl⟩
      · exact takes_delay _ (hfinite baseDelay (by simp [delays])) (hothers _ (by decide)) rfl
      · exact takes_delay _ (hfinite maxDelay (by simp [delays])) (hothers _ (by decide)) rfl

theorem readsBack_tree {c : RetryConfig} (h : ∀ d ∈ c.delays, d.ReadsBack) : c.tree.ReadsBack := by
  cases c with
  | fixed maxAttempts delay =>
      exact ⟨trivial, nofun, (h delay (by simp [delays])).floatTree, trivial⟩
  | exponential maxAttempts baseDelay maxDelay =>
      refine ⟨trivial, nofun, ?_, ?_, trivial⟩
      · exact (h baseDelay (by simp [delays])).floatTree
      · exact (h maxDelay (by simp [delays])).floatTree

theorem isFinite_of_mayHave {place : Place} {name : String} {n : Nat} {d : Binary64}
    (hn : n ≤ UInt64.size) (h : (Field.optional name .float (.ofNat n)).MayHave place d) :
    d.IsFinite := by
  rcases h with ⟨draft, hd⟩ | habsent
  · exact Decoder.isFinite_of_float hd
  · cases habsent
    exact Binary64.isFinite_ofRatio false hn

theorem isFinite_of_decode {c : RetryConfig} {place : Place} {draft : Draft}
    (h : tagged.decode place draft = .ok c) : ∀ d ∈ c.delays, d.IsFinite := by
  obtain ⟨v, hv, e, he⟩ := tagged.exists_variant_of_decode h
  simp only [tagged, List.mem_cons, List.not_mem_nil, or_false] at hv
  rcases hv with rfl | rfl
  · obtain ⟨_, hrecord, rfl⟩ := map_eq_ok_iff.mp he
    obtain ⟨_, -, maxAttempts, -, delay, hdelay, rfl⟩ := Record.mayMake_of_decode hrecord
    simpa [delays] using isFinite_of_mayHave (by decide) hdelay
  · obtain ⟨_, hrecord, rfl⟩ := map_eq_ok_iff.mp he
    obtain ⟨_, -, maxAttempts, -, base, hbase, max, hmax, rfl⟩ := Record.mayMake_of_decode hrecord
    simpa [delays] using
      And.intro (isFinite_of_mayHave (by decide) hbase) (isFinite_of_mayHave (by decide) hmax)

theorem defaulting_nil (c : RetryConfig) : c.defaulting [] = c := by
  cases c <;> simp [defaulting]

/-- Whether a document is that of the configuration without the fields of these names. -/
def LeavesOut (c : RetryConfig) (out : List String) (u : Tree) : Prop :=
  "kind" ∉ out ∧ c.tree.Without out u

end RetryConfig

/-! ## Settings of clients and servers -/

namespace ClientConfig

/-- The document of the settings with this retry section. -/
def treeWith (c : ClientConfig) (retryTree : Tree) : Tree :=
  .object [("connect_timeout_ms", .number (.natural c.connectTimeoutMs)),
    ("io_timeout_ms", .number (.natural c.ioTimeoutMs)),
    ("probe_timeout_ms", .number (.natural c.probeTimeoutMs)), ("retry", retryTree)]

/-- Whether a document is that of the settings without the fields of the names `out.1`, and without
those of the names `out.2` in the retry section. -/
def LeavesOut (c : ClientConfig) (out : List String × List String) (u : Tree) : Prop :=
  ∃ retryTree, (c.treeWith retryTree).Without out.1 u ∧
    match c.retry with
    | none => retryTree = .null
    | some r => r.LeavesOut out.2 retryTree

theorem decode_without {c : ClientConfig} {out : List String × List String} {u : Tree}
    (hfinite : ∀ d ∈ c.delays, d.IsFinite) (hu : c.LeavesOut out u) :
    record.decode (.text nestingLimit) (.ofTree u) = .ok (c.defaulting out) := by
  obtain ⟨retryTree, ⟨_, kept, ⟨⟩, rfl, hkept⟩, hretry⟩ := hu
  have hlookup := lookup_without hkept (by simp)
  have hcount {name : String} {n : UInt64} (absent : UInt64)
      (ht : List.lookup name _ = some (.number (.natural n))) :=
    Field.takes_without absent (hlookup name) ht (Decoder.uint64_ofTree (.text 126) n)
  have hsection : Decoder.option RetryConfig.tagged.decode (.text 126) (.ofTree retryTree) =
      .ok (c.retry.map (·.defaulting out.2)) := by
    unfold delays at hfinite
    split at hretry
    · next hnone =>
        rw [hretry, hnone]
        rfl
    · next r hsome =>
        rw [hsome] at hfinite
        obtain ⟨hkind, hwithout⟩ := hretry
        have hroom : (Place.text 126).enter = .ok (.text 125) := rfl
        have hr := r.decode_without hroom hkind hfinite hwithout
        obtain ⟨_, _, -, rfl, -⟩ := hwithout
        rw [hsome]
        exact Decoder.option_some nofun hr
  rw [record.decode_ofMembers rfl (nodup_kept hkept (by simp))]
  simp only [record, Fields.ofMembers_eq_ok_iff, Fields.ofMembers_done]
  refine ⟨_, hcount _ rfl, _, hcount _ rfl, _, hcount _ rfl, _, ?_, rfl⟩
  exact Field.takes_without _ (hlookup _) rfl hsection

theorem leavesOut_nil (c : ClientConfig) : c.LeavesOut ([], []) c.tree := by
  refine ⟨_, Tree.without_nil _, ?_⟩
  cases c.retry with
  | none => rfl
  | some r => exact ⟨by simp, by cases r <;> exact Tree.without_nil _⟩

theorem defaulting_nil (c : ClientConfig) : c.defaulting ([], []) = c := by
  have hid : (fun r : RetryConfig ↦ r.defaulting []) = id := funext RetryConfig.defaulting_nil
  simp [defaulting, hid]

theorem readsBack_tree {c : ClientConfig} (h : ∀ d ∈ c.delays, d.ReadsBack) :
    c.tree.ReadsBack := by
  refine ⟨nofun, nofun, nofun, ?_, trivial⟩
  unfold delays at h
  cases hretry : c.retry with
  | none => trivial
  | some r =>
      rw [hretry] at h
      exact RetryConfig.readsBack_tree h

theorem isFinite_of_decode {c : ClientConfig} {place : Place} {draft : Draft}
    (h : record.decode place draft = .ok c) : ∀ d ∈ c.delays, d.IsFinite := by
  obtain ⟨_, -, connect, -, io, -, probe, -, retry, hretry, rfl⟩ := Record.mayMake_of_decode h
  unfold delays
  cases retry with
  | none => nofun
  | some r =>
      rcases hretry with ⟨d, hd⟩ | habsent
      · exact RetryConfig.isFinite_of_decode (Decoder.of_option_some hd)
      · cases habsent

end ClientConfig

namespace LaunchConfig

theorem decode_without {c : LaunchConfig} {out : List String} {u : Tree}
    (hu : c.tree.Without out u) :
    record.decode (.text nestingLimit) (.ofTree u) = .ok (c.defaulting out) := by
  obtain ⟨_, kept, ⟨⟩, rfl, hkept⟩ := hu
  have htake {α : Type} {name : String} {decode : Decoder α} {t : Tree} {a : α} (absent : α)
      (ht : List.lookup name _ = some t) (ha : decode (.text 126) (.ofTree t) = .ok a) :=
    Field.takes_without absent (lookup_without hkept (by simp) name) ht ha
  have hport : Decoder.option .uint16 (.text 126)
      (.ofTree (c.port.elim .null fun p ↦ .number (.natural p.toUInt64))) = .ok c.port := by
    cases c.port with
    | none => rfl
    | some port => exact Decoder.option_some nofun (Decoder.uint16_ofTree _ port)
  have htypes : Decoder.list .text (.text 126) (.ofTree (.array (c.objectTypes.map .text))) =
      .ok c.objectTypes := Decoder.list_ofItems rfl fun _ _ ↦ rfl
  rw [record.decode_ofMembers rfl (nodup_kept hkept (by simp))]
  simp only [record, Fields.ofMembers_eq_ok_iff, Fields.ofMembers_done]
  refine ⟨_, htake _ rfl rfl, _, htake _ rfl hport, _, htake _ rfl (Decoder.size_ofTree _ _), _,
    htake _ rfl (Decoder.uint64_ofTree _ _), _, htake _ rfl rfl, _,
    htake _ rfl (Decoder.uint64_ofTree _ _), _, htake _ rfl htypes, rfl⟩

theorem readsBack_tree (c : LaunchConfig) : c.tree.ReadsBack := by
  have hport : (c.port.elim .null fun p ↦ .number (.natural p.toUInt64) : Tree).ReadsBack := by
    cases c.port with
    | none => trivial
    | some port => nofun
  have htypes : (Tree.array (c.objectTypes.map .text)).ReadsBack := by
    apply Tree.readsBackItems_iff.mpr
    intro t ht
    obtain ⟨s, -, rfl⟩ := List.mem_map.mp ht
    trivial
  exact ⟨trivial, hport, nofun, nofun, trivial, nofun, htypes, trivial⟩

theorem defaulting_nil (c : LaunchConfig) : c.defaulting [] = c := by
  simp [defaulting]

end LaunchConfig

/-! ## Settings and their texts -/

/-- Whether settings survive JSON: they are read back from their own texts, whatever can be left
out has its default, and what is accepted has finite delays and stays as it is. -/
structure Survives {α ε σ : Type} (read : String → Except ε α) (tree : α → Tree)
    (delays : α → List Binary64) (leavesOut : α → σ → Tree → Prop) (defaulting : α → σ → α) :
    Prop where
  back : ∀ c, (∀ d ∈ delays c, d.ReadsBack) → read (tree c).write = .ok c
  without : ∀ c out u s, (∀ d ∈ delays c, d.IsFinite) → leavesOut c out u →
    (Draft.ofTree u).SpelledBy (charsOf s) → read s = .ok (defaulting c out)
  again : ∀ s c, read s = .ok c → (∀ d ∈ delays c, d.IsFinite) ∧
    ((∀ d ∈ delays c, d.ReadsBack) → read (tree c).write = read s)

theorem survives_of_decode {α ε σ : Type} {read : String → Except ε α} {tree : α → Tree}
    {delays : α → List Binary64} {leavesOut : α → σ → Tree → Prop} {defaulting : α → σ → α}
    (decode : Decoder α) (nothing : σ)
    (hread : ∀ s a, read s = .ok a ↔ Json.read decode (charsOf s) = .ok a)
    (hwithout : ∀ c out u, (∀ d ∈ delays c, d.IsFinite) → leavesOut c out u →
      decode (.text nestingLimit) (.ofTree u) = .ok (defaulting c out))
    (hwhole : ∀ c, leavesOut c nothing (tree c) ∧ defaulting c nothing = c)
    (htree : ∀ c, (∀ d ∈ delays c, d.ReadsBack) → (tree c).ReadsBack)
    (hfinite : ∀ c draft, decode (.text nestingLimit) draft = .ok c → ∀ d ∈ delays c, d.IsFinite) :
    Survives read tree delays leavesOut defaulting := by
  have hleft (c : α) (out : σ) (u : Tree) (s : String) (hc : ∀ d ∈ delays c, d.IsFinite)
      (hu : leavesOut c out u) (hs : (Draft.ofTree u).SpelledBy (charsOf s)) :
      read s = .ok (defaulting c out) := by
    rw [hread, read_of_spelledBy hs]
    exact hwithout c out u hc hu
  -- The whole document is the one that nothing is left out of.
  have hback (c : α) (hc : ∀ d ∈ delays c, d.ReadsBack) : read (tree c).write = .ok c := by
    obtain ⟨hnothing, hsame⟩ := hwhole c
    have hfinite : ∀ d ∈ delays c, d.IsFinite := fun d hd ↦ (hc d hd).isFinite
    have hwritten := hleft c nothing (tree c) _ hfinite hnothing (Tree.spelledBy_write (htree c hc))
    rwa [hsame] at hwritten
  refine ⟨hback, hleft, fun s c hs ↦ ⟨?_, fun hc ↦ ?_⟩⟩
  · obtain ⟨draft, hdraft⟩ := Json.exists_draft ((hread s c).mp hs)
    exact hfinite c draft hdraft
  · rw [hs]
    exact hback c hc

theorem ClientConfig.ofString_eq_ok_iff {s : String} {c : ClientConfig} :
    ClientConfig.ofString s = .ok c ↔ Json.read record.decode (charsOf s) = .ok c := by
  rw [ClientConfig.ofString, Json.readString]
  cases Json.read record.decode (charsOf s) with
  | ok b => simp [Except.mapError]
  | error cause => simp [Except.mapError]

/-- Retry configurations, settings of clients and settings of servers survive JSON. -/
theorem settings_survive :
    Survives RetryConfig.ofString RetryConfig.tree RetryConfig.delays RetryConfig.LeavesOut
      RetryConfig.defaulting ∧
    Survives ClientConfig.ofString ClientConfig.tree ClientConfig.delays ClientConfig.LeavesOut
      ClientConfig.defaulting ∧
    Survives (Json.readString LaunchConfig.record.decode) LaunchConfig.tree (fun _ ↦ [])
      (fun c ↦ c.tree.Without) LaunchConfig.defaulting := by
  refine ⟨?_, ?_, ?_⟩
  · apply survives_of_decode RetryConfig.tagged.decode []
    · exact fun _ _ ↦ RetryConfig.ofString_eq_ok_iff
    · exact fun c out u hc hu ↦ c.decode_without rfl hu.1 hc hu.2
    · exact fun c ↦ ⟨⟨by simp, by cases c <;> exact Tree.without_nil _⟩, c.defaulting_nil⟩
    · exact fun _ ↦ RetryConfig.readsBack_tree
    · exact fun _ _ ↦ RetryConfig.isFinite_of_decode
  · apply survives_of_decode ClientConfig.record.decode ([], [])
    · exact fun _ _ ↦ ClientConfig.ofString_eq_ok_iff
    · exact fun _ _ _ hc hu ↦ ClientConfig.decode_without hc hu
    · exact fun c ↦ ⟨c.leavesOut_nil, c.defaulting_nil⟩
    · exact fun _ ↦ ClientConfig.readsBack_tree
    · exact fun _ _ ↦ ClientConfig.isFinite_of_decode
  · apply survives_of_decode LaunchConfig.record.decode []
    · exact fun _ _ ↦ Iff.rfl
    · exact fun _ _ _ _ hu ↦ LaunchConfig.decode_without hu
    · exact fun c ↦ ⟨Tree.without_nil _, c.defaulting_nil⟩
    · exact fun c _ ↦ c.readsBack_tree
    · nofun

/-! ### Settings without most of their fields -/

/-- Settings with two finite delays, `0.2` and `5.0`. -/
def hastySettings : ClientConfig :=
  ⟨1, 2, 3, some (.exponential 7 (.finite ⟨false, ⟨0x3FC999999999999A, by decide⟩⟩)
    (.finite ⟨false, ⟨0x4014000000000000, by decide⟩⟩))⟩

def sparseRetry : Tree :=
  .object [("max_delay", .number (.float ⟨false, ⟨0x4014000000000000, by decide⟩⟩)),
    ("kind", .text "exponential")]

/-- Their document without four of the fields. -/
def sparseSettings : Tree :=
  .object [("retry", sparseRetry), ("io_timeout_ms", .number (.natural 2))]

def sparseText : String :=
  "\x7b\"retry\": \x7b\"max_delay\":5.0,\"kind\":\"exponential\"\x7d, \"io_timeout_ms\":2\x7d"

theorem scan_sparseText : Token.scan (charsOf sparseText) = sparseSettings.tokens := by
  decide +kernel

theorem spelledBy_sparseText : (Draft.ofTree sparseSettings).SpelledBy (charsOf sparseText) := by
  rw [Draft.spelledBy_iff, scan_sparseText]
  exact ⟨Draft.closed_ofTree _, sparseSettings.ofTokens_tokens⟩

theorem readsBack_hastySettings : ∀ d ∈ hastySettings.delays, d.ReadsBack := by
  rintro d hd
  simp only [ClientConfig.delays, hastySettings, Option.elim, RetryConfig.delays, List.mem_cons,
    List.not_mem_nil, or_false] at hd
  rcases hd with rfl | rfl
  all_goals
    refine ⟨_, rfl, ?_⟩
    rw [Number.ReadsBack]
    decide +kernel

theorem leavesOut_sparseSettings : hastySettings.LeavesOut
    (["connect_timeout_ms", "probe_timeout_ms"], ["max_attempts", "base_delay"])
    sparseSettings := by
  refine ⟨sparseRetry, ⟨_, _, rfl, rfl, ?_⟩, by decide, _, _, rfl, rfl, ?_⟩
  · exact List.Perm.swap _ _ _
  · exact List.Perm.swap _ _ _

theorem settings_survive_sparse :
    ClientConfig.ofString hastySettings.tree.write = .ok hastySettings ∧
    ClientConfig.ofString sparseText = .ok ⟨5000, 2, 1000, some (.exponential 10
      RetryConfig.defaultDelay (.finite ⟨false, ⟨0x4014000000000000, by decide⟩⟩))⟩ := by
  obtain ⟨-, hclients, -⟩ := settings_survive
  have hfinite : ∀ d ∈ hastySettings.delays, d.IsFinite :=
    fun d hd ↦ (readsBack_hastySettings d hd).isFinite
  have hdefaults : hastySettings.defaulting
      (["connect_timeout_ms", "probe_timeout_ms"], ["max_attempts", "base_delay"]) =
      ⟨5000, 2, 1000, some (.exponential 10 RetryConfig.defaultDelay
        (.finite ⟨false, ⟨0x4014000000000000, by decide⟩⟩))⟩ := by
    simp [ClientConfig.defaulting, RetryConfig.defaulting, hastySettings, ClientConfig.standard,
      RetryConfig.defaultMaxAttempts]
  have hsparse := hclients.without _ _ _ _ hfinite leavesOut_sparseSettings spelledBy_sparseText
  rw [hdefaults] at hsparse
  exact ⟨hclients.back _ readsBack_hastySettings, hsparse⟩

end RemoteObjects
