import RemoteObjects.MethodTable
import RemoteObjects.Proofs.Keyed
import RemoteObjects.Proofs.Proxy.Dialogue
import RemoteObjects.Proofs.Text.Order
import RemoteObjects.Proxy

/-!
# Method tables are the public surface

A table has just the public ones among the names it is made of, however often and in whatever order
they are given.  Each type has its table made once and keeps it, also if another type goes by the
same name.  Both gates of a proxy, the methods taken from it and the calls of it, open for just the
names in its table.
-/

namespace RemoteObjects

/-! ## Tables -/

/-- Whether a name may be in a table: it is not empty and does not start with an underscore. -/
theorem isPublic_iff (name : String) :
    isPublic name = true ↔ name ≠ "" ∧ name.toList.head? ≠ some '_' := by
  have hempty : name = "" ↔ name.toList = [] := by rw [String.toList_eq_nil_iff]
  rw [isPublic, ne_eq, hempty]
  cases name.toList with
  | nil => simp
  | cons c rest => simp

namespace MethodTable

/-- Whether a table has just the public ones of these names. -/
structure Lists (t : MethodTable) (names : List String) : Prop where
  contains_iff : ∀ name, t.contains name = true ↔
    name ∈ names ∧ name ≠ "" ∧ name.toList.head? ≠ some '_'
  mem_names_iff : ∀ name, name ∈ t.names ↔ t.contains name = true
  ascending : t.names.Pairwise fun a b ↦ Text.bytesOf a < Text.bytesOf b
  size_eq : t.size = t.names.length

theorem get?_ofNames (typeName : String) (names : List String) (name : String) :
    (ofNames typeName names).methods.get? name =
      if name ∈ names ∧ isPublic name = true then some () else none := by
  have hlookup (l : List String) :
      (l.map (·, ())).lookup name = if name ∈ l then some () else none := by
    induction l with
    | nil => rfl
    | cons other rest ih =>
        rw [List.map_cons, Keyed.lookup_cons_eq_ite, ih]
        by_cases hname : name = other
        · simp [hname]
        · simp [hname]
  rw [ofNames, Keyed.get?_ofList, ← List.map_reverse, hlookup]
  simp only [List.mem_reverse, List.mem_filter]

theorem contains_ofNames_iff (typeName : String) (names : List String) (name : String) :
    (ofNames typeName names).contains name = true ↔ name ∈ names ∧ isPublic name = true := by
  rw [contains, Keyed.contains, get?_ofNames]
  split <;> simp [*]

theorem mem_names_iff {t : MethodTable} {name : String} :
    name ∈ t.names ↔ t.contains name = true := by
  rw [contains, Keyed.contains, Option.isSome_iff_exists, names, Keyed.keys]
  simp only [Keyed.get?_eq_some_iff, List.mem_map, Prod.exists, exists_and_right, exists_eq_right]

theorem lists_ofNames (typeName : String) (names : List String) :
    (ofNames typeName names).Lists names where
  contains_iff name := by rw [contains_ofNames_iff, isPublic_iff]
  mem_names_iff _ := mem_names_iff
  ascending := (Keyed.sorted _).imp Text.bytesOf_lt_iff.mpr
  size_eq := (List.length_map _).symm

/-- Neither the order of the names nor their number counts. -/
theorem ofNames_congr {typeName : String} {names others : List String}
    (h : ∀ name, name ∈ others ↔ name ∈ names) :
    ofNames typeName others = ofNames typeName names := by
  have hmethods : (ofNames typeName others).methods = (ofNames typeName names).methods := by
    apply Keyed.ext_get?
    intro name
    simp only [get?_ofNames, h]
  exact congrArg (MethodTable.mk typeName) hmethods

end MethodTable

/-! ## One table for each type -/

/-- The type of a key, where all types have these names and methods. -/
def ObjectType.of (typeName : String → String) (methods : String → List String) (key : String) :
    ObjectType :=
  ⟨key, typeName key, methods key⟩

namespace MethodRegistry

/-- Asks for the tables of types one after another; each type with the position of its table. -/
def serve (r : MethodRegistry) : List ObjectType → List (ObjectType × Nat) × MethodRegistry
  | [] => ([], r)
  | t :: rest =>
    let (i, r) := r.tableOf t
    let (answers, last) := r.serve rest
    ((t, i) :: answers, last)

variable {typeName : String → String} {methods : String → List String}

/-- Whether each key has one table, that of its type. -/
structure Orderly (typeName : String → String) (methods : String → List String)
    (r : MethodRegistry) : Prop where
  keys : (r.tables.map Prod.fst).Nodup
  tables : ∀ e ∈ r.tables, e.2 = (ObjectType.of typeName methods e.1).table

theorem orderly_empty : empty.Orderly typeName methods := ⟨List.nodup_nil, by simp [empty]⟩

/-- Whether the table of a type stands at a position. -/
def Stores (r : MethodRegistry) (t : ObjectType) (i : Nat) : Prop :=
  r.tables[i]? = some (t.key, t.table)

theorem Stores.get?_eq {r : MethodRegistry} {t : ObjectType} {i : Nat} (h : r.Stores t i) :
    r.get? i = some t.table := by
  rw [get?, h]
  rfl

theorem Stores.mono {r r' : MethodRegistry} {t : ObjectType} {i : Nat} (h : r.Stores t i)
    (hext : r.tables <+: r'.tables) : r'.Stores t i := by
  obtain ⟨more, hmore⟩ := hext
  have hi : i < r.tables.length := (List.getElem?_eq_some_iff.mp h).1
  rw [Stores, ← hmore, List.getElem?_append_left hi]
  exact h

/-- No two types have one table, and no type has two. -/
theorem Orderly.position_eq_iff {r : MethodRegistry} (h : r.Orderly typeName methods)
    {t u : ObjectType} {i j : Nat} (hi : r.Stores t i) (hj : r.Stores u j) :
    i = j ↔ t.key = u.key := by
  constructor
  · rintro rfl
    exact (Prod.mk.inj (Option.some.inj (hi.symm.trans hj))).1
  · intro hkey
    have hget {t : ObjectType} {i : Nat} (hi : r.Stores t i) :
        (r.tables.map Prod.fst)[i]? = some t.key := by
      rw [List.getElem?_map, hi]
      rfl
    apply (List.getElem?_inj (List.getElem?_eq_some_iff.mp (hget hi)).1 h.keys).mp
    rw [hget hi, hget hj, hkey]

theorem Orderly.tableOf {r : MethodRegistry} (h : r.Orderly typeName methods) {key : String}
    {i : Nat} {r' : MethodRegistry} (hr : r.tableOf (.of typeName methods key) = (i, r')) :
    r'.Orderly typeName methods ∧ r.tables <+: r'.tables ∧
      r'.Stores (.of typeName methods key) i := by
  unfold MethodRegistry.tableOf at hr
  split at hr
  · next hfind =>
      cases hr
      obtain ⟨hi, hkey, -⟩ := List.findIdx?_eq_some_iff_getElem.mp hfind
      have hentry : r.tables[i].1 = key := of_decide_eq_true hkey
      refine ⟨h, List.prefix_rfl, ?_⟩
      rw [Stores, List.getElem?_eq_getElem hi]
      congr 1
      apply Prod.ext
      · exact hentry
      · rw [h.tables _ (List.getElem_mem hi), hentry]
  · next hfind =>
      cases hr
      have hnew : key ∉ r.tables.map Prod.fst := by
        intro hmem
        obtain ⟨e, he, rfl⟩ := List.mem_map.mp hmem
        simpa [ObjectType.of] using List.findIdx?_eq_none_iff.mp hfind e he
      refine ⟨⟨?_, ?_⟩, List.prefix_append _ _, ?_⟩
      · rw [List.map_append]
        apply h.keys.append (List.nodup_singleton _)
        exact List.disjoint_singleton.mpr hnew
      · intro e he
        rcases List.mem_append.mp he with he | he
        · exact h.tables e he
        · obtain rfl := List.mem_singleton.mp he
          rfl
      · rw [Stores, List.getElem?_append_right (Nat.le_refl _), Nat.sub_self]
        rfl

theorem Orderly.serve {r : MethodRegistry} (h : r.Orderly typeName methods) (keys : List String) :
    (r.serve (keys.map (.of typeName methods))).2.Orderly typeName methods ∧
      r.tables <+: (r.serve (keys.map (.of typeName methods))).2.tables ∧
      ∀ e ∈ (r.serve (keys.map (.of typeName methods))).1,
        (r.serve (keys.map (.of typeName methods))).2.Stores e.1 e.2 := by
  induction keys generalizing r with
  | nil => exact ⟨h, List.prefix_rfl, by simp [MethodRegistry.serve]⟩
  | cons key rest ih =>
      cases hr : r.tableOf (.of typeName methods key) with
      | mk i r' =>
          obtain ⟨horderly, hext, hstores⟩ := h.tableOf hr
          obtain ⟨hlast, hrest, hall⟩ := ih horderly
          simp only [List.map_cons, MethodRegistry.serve, hr]
          refine ⟨hlast, hext.trans hrest, fun e he ↦ ?_⟩
          -- Tables are only added behind those that stand there, so the first answer stays right.
          rcases List.mem_cons.mp he with rfl | he
          · exact hstores.mono hrest
          · exact hall e he

theorem map_fst_serve (r : MethodRegistry) (types : List ObjectType) :
    (r.serve types).1.map Prod.fst = types := by
  induction types generalizing r with
  | nil => rfl
  | cons t rest ih => exact congrArg (t :: ·) (ih _)

/-- Whether types that are asked for get tables of their own: the same whenever one type is asked
for and different ones otherwise, each made of the names of its type and kept ever after. -/
structure Shares (typeName : String → String) (methods : String → List String)
    (keys : List String) (served : List (ObjectType × Nat) × MethodRegistry) : Prop where
  answered : served.1.map Prod.fst = keys.map (.of typeName methods)
  position_eq_iff : ∀ e ∈ served.1, ∀ e' ∈ served.1, e.2 = e'.2 ↔ e.1 = e'.1
  get?_eq : ∀ e ∈ served.1, ∀ more : List String,
    (served.2.serve (more.map (.of typeName methods))).2.get? e.2 =
      some (.ofNames e.1.name e.1.methods)

theorem shares_serve (typeName : String → String) (methods : String → List String)
    (keys : List String) :
    Shares typeName methods keys (empty.serve (keys.map (.of typeName methods))) := by
  have hanswered := map_fst_serve empty (keys.map (.of typeName methods))
  have hempty : empty.Orderly typeName methods := orderly_empty
  obtain ⟨horderly, -, hstores⟩ := hempty.serve keys
  generalize empty.serve (keys.map (.of typeName methods)) = served at *
  -- Types are told apart by their keys: name and methods are those of the key.
  have htype {e : ObjectType × Nat} (he : e ∈ served.1) :
      e.1 = .of typeName methods e.1.key := by
    have hmem := List.mem_map_of_mem (f := Prod.fst) he
    rw [hanswered] at hmem
    obtain ⟨key, -, hkey⟩ := List.mem_map.mp hmem
    rw [← hkey]
    rfl
  refine ⟨hanswered, ?_, ?_⟩
  · intro e he e' he'
    rw [horderly.position_eq_iff (hstores e he) (hstores e' he')]
    constructor
    · intro hkey
      rw [htype he, htype he', hkey]
    · exact congrArg ObjectType.key
  · intro e he more
    obtain ⟨-, hext, -⟩ := horderly.serve more
    exact ((hstores e he).mono hext).get?_eq

end MethodRegistry

/-! ## The gates of a proxy -/

namespace Proxy

variable {κ ℓ : Type}

/-- Whether a call was refused for its method. -/
def IsInvalidMethod (r : Except Error Json.Value) : Prop :=
  ∃ objectType method, r = .error (.invalidMethod objectType method)

theorem not_isInvalidMethod_answerOf (codec : Codec) (reply : Except Client.Error ByteArray) :
    ¬IsInvalidMethod (answerOf codec reply) := by
  rintro ⟨objectType, method, h⟩
  cases reply with
  | error e => cases e <;> cases h
  | ok payload =>
      simp only [answerOf, Except.mapError, bind, Except.bind] at h
      cases houtcome : codec.decodeOutcome payload with
      | error e =>
          rw [houtcome] at h
          cases h
      | ok outcome =>
          rw [houtcome] at h
          cases outcome <;> cases h

theorem not_isInvalidMethod_look (p : Proxy κ ℓ) (creation : Nat) (settled : Settled) :
    (p.look Dialogue.surroundings creation settled).Always fun _ r ↦
      ∀ e, r = .error e → ¬IsInvalidMethod (.error e) := by
  unfold look
  intro first
  cases settled.cause? creation with
  | none =>
      cases first with
      | true => exact fun _ ↦ nofun
      | false => exact nofun
  | some cause =>
      have hcreation : ∀ e, Except.error (ε := Error) (α := Unit)
          (.creation p.objectId p.addr cause) = .error e → ¬IsInvalidMethod (.error e) := by
        rintro _ ⟨⟩ ⟨_, _, ⟨⟩⟩
      cases first with
      | true => exact fun _ ↦ hcreation
      | false => exact hcreation

theorem not_isInvalidMethod_waitReady (p : Proxy κ ℓ) :
    (p.waitReady Dialogue.surroundings).Always fun _ r ↦
      ∀ e, r = .error e → ¬IsInvalidMethod (.error e) := by
  unfold waitReady
  split
  · exact nofun
  · intro settled
    exact not_isInvalidMethod_look p _ settled

/-- A call is refused for its method just if the table does not have it. -/
theorem invoke_always (p : Proxy κ ℓ) (name : String) (args : CallArgs) :
    (p.invoke Dialogue.surroundings name args).Always fun _ r ↦
      (IsInvalidMethod r ↔ p.methods.contains name = false) := by
  unfold invoke
  cases hpublic : p.methods.contains name with
  | false => exact iff_of_true ⟨_, _, rfl⟩ rfl
  | true =>
      have hopen {r : Except Error Json.Value} (hr : ¬IsInvalidMethod r) :
          IsInvalidMethod r ↔ true = false := iff_of_false hr nofun
      apply Dialogue.Always.bind
      apply (not_isInvalidMethod_waitReady p).mono
      intro said r hr
      cases r with
      | error e => exact hopen (hr e rfl)
      | ok _ =>
          cases hargs : p.codec.encodeArgs args with
          | error e => exact hopen nofun
          | ok payload =>
              intro reply
              exact hopen (not_isInvalidMethod_answerOf p.codec reply)

theorem exists_method_iff (p : Proxy κ ℓ) (name : String) :
    (∃ f, p.method name = .ok f) ↔ p.methods.contains name = true := by
  unfold method
  split
  · next h => simp [h]
  · next h => simp [h]

end Proxy

/-- Tables list just the public names, whatever stands between and around these; each type has one
table to itself, also among namesakes; and a proxy has just the methods of its table, to be taken as
well as to be called. -/
theorem method_tables_public (κ ℓ : Type) :
    (∀ typeName names, (MethodTable.ofNames typeName names).Lists names ∧
      ∀ others, (∀ name, name ∈ others ↔ name ∈ names) →
        MethodTable.ofNames typeName others = .ofNames typeName names) ∧
    (∀ typeName methods keys, MethodRegistry.Shares typeName methods keys
      (MethodRegistry.empty.serve (keys.map (.of typeName methods)))) ∧
    ∀ (p : Proxy κ ℓ) name args,
      ((∃ f, p.method name = .ok f) ↔ p.methods.contains name = true) ∧
      (p.invoke Proxy.Dialogue.surroundings name args).Always fun _ r ↦
        (Proxy.IsInvalidMethod r ↔ p.methods.contains name = false) := by
  refine ⟨fun typeName names ↦ ⟨?_, ?_⟩, ?_, fun p name args ↦ ⟨?_, ?_⟩⟩
  · exact MethodTable.lists_ofNames typeName names
  · exact fun others ↦ MethodTable.ofNames_congr
  · exact MethodRegistry.shares_serve
  · exact p.exists_method_iff name
  · exact p.invoke_always name args

/-- Two types that go by one name. -/
def namesake (key : String) : List String :=
  if key = "counter" then ["total", "", "add", "_reset", "add"] else ["add"]

theorem method_tables_public_namesakes :
    MethodTable.ofNames "Tally" ["add", "total", "_reset", ""] =
      .ofNames "Tally" (namesake "counter") ∧
    (MethodTable.ofNames "Tally" (namesake "counter")).names = ["add", "total"] ∧
    (MethodRegistry.empty.serve
      (["counter", "meter", "counter"].map (.of (fun _ ↦ "Tally") namesake))).1.map Prod.snd =
        [0, 1, 0] := by
  obtain ⟨htables, -, -⟩ := method_tables_public Unit Unit
  refine ⟨(htables "Tally" (namesake "counter")).2 _ fun name ↦ ?_, by decide +kernel,
    by decide +kernel⟩
  simp only [namesake, if_true, List.mem_cons, List.not_mem_nil, or_false]
  tauto

end RemoteObjects
