import RemoteObjects.Proofs.Json.Printing
import RemoteObjects.Proofs.Keyed
import RemoteObjects.Wire.Codec

/-!
# Arguments are encoded in one way

Arguments are put together step by step, positional ones and keyword ones mixed.  All that is left
of the steps is the order of the positional values and the last value of each keyword, and just what
is left can be told from the encoded bytes: all objects are written with their members sorted.
-/

namespace RemoteObjects

open Json

/-! ## Values that agree -/

namespace Json

/-- Whether two values are the same, floats by their texts. -/
def Value.Alike (v w : Value) : Prop := v.tree.Alike w.tree

theorem Tree.alikeItems_iff {vs ws : List Value} :
    AlikeItems (vs.map Value.tree) (ws.map Value.tree) ↔ List.Forall₂ Value.Alike vs ws := by
  induction vs generalizing ws with
  | nil =>
      cases ws with
      | nil => exact iff_of_true trivial .nil
      | cons w ws => exact iff_of_false id nofun
  | cons v vs ih =>
      cases ws with
      | nil => exact iff_of_false id nofun
      | cons w ws =>
          rw [List.forall₂_cons, ← ih]
          rfl

theorem none_iff_of_rel {α β : Type} {R : α → β → Prop} {x : Option α} {y : Option β}
    (h : Option.Rel R x y) : x = none ↔ y = none := by
  cases h with
  | some _ => exact iff_of_false nofun nofun
  | none => exact iff_of_true rfl rfl

section

variable {α : Type} {key name : String} {a b : α} {l : List (String × α)}

theorem lookup_eq_none_of_sorted (h : (((key, a) :: l).map Prod.fst).Pairwise (· < ·)) :
    l.lookup key = none := by
  apply Keyed.lookup_eq_none_iff.mpr
  intro e he
  exact (String.ne_of_lt ((List.pairwise_cons.mp h).1 e.1 (List.mem_map_of_mem he))).symm

/-- Nothing stands before the first entry. -/
theorem le_of_lookup_ne_none (h : (((key, a) :: l).map Prod.fst).Pairwise (· < ·))
    (hname : ((key, a) :: l).lookup name ≠ none) : key ≤ name := by
  rw [ne_eq, Keyed.lookup_eq_none_iff] at hname
  push Not at hname
  obtain ⟨e, he, rfl⟩ := hname
  rcases List.mem_cons.mp he with rfl | he
  · exact String.le_refl _
  · have hlt : key < e.1 := (List.pairwise_cons.mp h).1 e.1 (List.mem_map_of_mem he)
    exact String.not_lt.mp (String.lt_asymm hlt)

/-- Maps of the same names begin with the same name. -/
theorem eq_of_lookup_eq_none_iff {other : String} {r : List (String × α)}
    (hl : (((key, a) :: l).map Prod.fst).Pairwise (· < ·))
    (hr : (((other, b) :: r).map Prod.fst).Pairwise (· < ·))
    (h : ∀ name, ((key, a) :: l).lookup name = none ↔ ((other, b) :: r).lookup name = none) :
    key = other := by
  apply String.le_antisymm
  · apply le_of_lookup_ne_none hl
    rw [ne_eq, h, List.lookup_cons_self]
    exact Option.some_ne_none b
  · apply le_of_lookup_ne_none hr
    rw [ne_eq, ← h, List.lookup_cons_self]
    exact Option.some_ne_none a

end

/-- The entries of two maps agree one by one if what is found in them does. -/
theorem Tree.alikeMembers_iff {l r : List (String × Value)}
    (hl : (l.map Prod.fst).Pairwise (· < ·)) (hr : (r.map Prod.fst).Pairwise (· < ·)) :
    AlikeMembers (l.map fun e ↦ (e.1, e.2.tree)) (r.map fun e ↦ (e.1, e.2.tree)) ↔
      ∀ name, Option.Rel Value.Alike (l.lookup name) (r.lookup name) := by
  induction l generalizing r with
  | nil =>
      cases r with
      | nil => exact iff_of_true trivial fun _ ↦ .none
      | cons e r =>
          refine iff_of_false id fun h ↦ ?_
          have hfirst := h e.1
          rw [List.lookup_cons_self] at hfirst
          cases hfirst
  | cons e l ih =>
      obtain ⟨key, v⟩ := e
      cases r with
      | nil =>
          refine iff_of_false id fun h ↦ ?_
          have hfirst := h key
          rw [List.lookup_cons_self] at hfirst
          cases hfirst
      | cons e r =>
          obtain ⟨other, w⟩ := e
          have hrest := ih (List.pairwise_cons.mp hl).2 (List.pairwise_cons.mp hr).2
          rw [List.map_cons, List.map_cons, AlikeMembers, hrest]
          constructor
          · rintro ⟨rfl, hv, hrest⟩ name
            rw [Keyed.lookup_cons_eq_ite, Keyed.lookup_cons_eq_ite]
            split
            · exact .some hv
            · exact hrest name
          · intro h
            -- The first names are the same, since nothing stands before either.
            obtain rfl : key = other :=
              eq_of_lookup_eq_none_iff hl hr fun name ↦ none_iff_of_rel (h name)
            refine ⟨rfl, ?_, fun name ↦ ?_⟩
            · have hkey := h key
              rw [List.lookup_cons_self, List.lookup_cons_self] at hkey
              cases hkey with
              | some hv => exact hv
            · have hname := h name
              rw [Keyed.lookup_cons_eq_ite, Keyed.lookup_cons_eq_ite] at hname
              split at hname
              · next heq =>
                  rw [heq, lookup_eq_none_of_sorted hl, lookup_eq_none_of_sorted hr]
                  exact .none
              · exact hname

theorem Value.alike_array_iff {vs ws : List Value} :
    (Value.array vs).Alike (.array ws) ↔ List.Forall₂ Value.Alike vs ws :=
  Tree.alikeItems_iff

theorem Value.alike_object_iff {m n : Keyed Value} :
    (Value.object m).Alike (.object n) ↔
      ∀ name, Option.Rel Value.Alike (m.get? name) (n.get? name) :=
  Tree.alikeMembers_iff m.sorted n.sorted

theorem Value.write_eq_write_iff {v w : Value} : v.write = w.write ↔ v.Alike w :=
  Tree.write_eq_write_iff

end Json

/-! ## Steps -/

namespace CallArgs

/-- A step in putting arguments together. -/
inductive Step where
  | arg (v : Value)
  | kwarg (name : String) (v : Value)

def Step.positional? : Step → Option Value
  | .arg v => some v
  | .kwarg _ _ => none

def Step.keyword? (name : String) : Step → Option Value
  | .arg _ => none
  | .kwarg other v => if name = other then some v else none

def take (args : CallArgs) : Step → CallArgs
  | .arg v => args.push v
  | .kwarg name v => args.set name v

def build (steps : List Step) : CallArgs := steps.foldl take empty

/-- The positional values of some steps, in their order. -/
def positionals (steps : List Step) : List Value := steps.filterMap Step.positional?

/-- The value of the last step for a keyword. -/
def last? (steps : List Step) (name : String) : Option Value :=
  steps.reverse.findSome? (Step.keyword? name)

theorem positional_take (args : CallArgs) (s : Step) :
    (args.take s).positional = args.positional ++ s.positional?.toList := by
  cases s with
  | arg v => rfl
  | kwarg name v => exact (List.append_nil _).symm

theorem get?_take (args : CallArgs) (s : Step) (name : String) :
    (args.take s).keyword.get? name = (s.keyword? name).or (args.keyword.get? name) := by
  cases s with
  | arg v => rfl
  | kwarg other v =>
      rw [take, set, Keyed.get?_insert, Step.keyword?]
      split <;> rfl

theorem positional_foldl (args : CallArgs) (steps : List Step) :
    (steps.foldl take args).positional = args.positional ++ positionals steps := by
  induction steps generalizing args with
  | nil => exact (List.append_nil _).symm
  | cons s rest ih =>
      rw [List.foldl_cons, ih, positional_take, List.append_assoc, positionals, positionals,
        List.filterMap_cons]
      cases s.positional? <;> rfl

theorem get?_foldl (args : CallArgs) (steps : List Step) (name : String) :
    (steps.foldl take args).keyword.get? name = (last? steps name).or (args.keyword.get? name) := by
  induction steps generalizing args with
  | nil => rfl
  | cons s rest ih =>
      rw [List.foldl_cons, ih, get?_take, last?, last?, List.reverse_cons, List.findSome?_append,
        Option.or_assoc]
      cases h : s.keyword? name <;> simp [h]

theorem positional_build (steps : List Step) : (build steps).positional = positionals steps :=
  positional_foldl empty steps

theorem get?_build (steps : List Step) (name : String) :
    (build steps).keyword.get? name = last? steps name :=
  (get?_foldl empty steps name).trans Option.or_none

/-- Every step leaves something. -/
theorem isEmpty_build_iff (steps : List Step) : (build steps).isEmpty = true ↔ steps = [] := by
  rw [isEmpty, Bool.and_eq_true, List.isEmpty_iff, positional_build]
  constructor
  · rintro ⟨hpositional, hkeyword⟩
    apply List.eq_nil_iff_forall_not_mem.mpr
    intro s hs
    cases s with
    | arg v =>
        have hmem : v ∈ positionals steps := List.mem_filterMap.mpr ⟨_, hs, rfl⟩
        rw [hpositional] at hmem
        cases hmem
    | kwarg name v =>
        have hnone : (build steps).keyword.get? name = none := by
          rw [Keyed.get?, List.isEmpty_iff.mp hkeyword]
          rfl
        rw [get?_build, last?, List.findSome?_eq_none_iff] at hnone
        have hstep := hnone _ (List.mem_reverse.mpr hs)
        simp [Step.keyword?] at hstep
  · rintro rfl
    exact ⟨rfl, rfl⟩

/-! ## Encodings -/

theorem canonical_tree (args : CallArgs) : args.tree.Canonical := by
  refine ⟨?_, (Value.array args.positional).property, (Value.object args.keyword).property,
    trivial⟩
  have hlt : ("args" : String) < "kwargs" := by decide
  exact List.pairwise_pair.mpr hlt

theorem encodeArgs_eq_iff (a b : CallArgs) :
    Codec.json.encodeArgs a = Codec.json.encodeArgs b ↔
      List.Forall₂ Value.Alike a.positional b.positional ∧
        ∀ name, Option.Rel Value.Alike (a.keyword.get? name) (b.keyword.get? name) := by
  have hbytes : Codec.json.encodeArgs a = Codec.json.encodeArgs b ↔
      a.tree.write = b.tree.write := by
    simp only [Codec.json, Wire.encodeTree, Except.ok.injEq, String.toUTF8_eq_toByteArray,
      String.toByteArray_inj]
  rw [hbytes, Tree.write_eq_write_iff, ← Value.alike_array_iff, ← Value.alike_object_iff]
  simp only [tree, Tree.Alike, Tree.AlikeMembers, Value.Alike, true_and, and_true]

/-- What steps come to: the positional values in order and the last value of each keyword, which
the encoded bytes tell and nothing else. -/
theorem steps_encoded_alike :
    (∀ steps, (build steps).positional = positionals steps ∧
      (∀ name, (build steps).keyword.get? name = last? steps name) ∧
      ((build steps).isEmpty = true ↔ steps = [])) ∧
    (∀ steps, (build steps).tree.Canonical ∧
      Codec.json.encodeArgs (build steps) = .ok (Wire.encodeTree (build steps).tree)) ∧
    (∀ steps others, Codec.json.encodeArgs (build steps) = Codec.json.encodeArgs (build others) ↔
      List.Forall₂ Value.Alike (positionals steps) (positionals others) ∧
        ∀ name, Option.Rel Value.Alike (last? steps name) (last? others name)) ∧
    ∀ members others : List (String × Value),
      (Value.object (.ofList members)).write = (Value.object (.ofList others)).write ↔
        ∀ name, Option.Rel Value.Alike (members.reverse.lookup name)
          (others.reverse.lookup name) := by
  refine ⟨fun steps ↦ ⟨?_, ?_, ?_⟩, ?_, ?_, ?_⟩
  · exact positional_build steps
  · exact get?_build steps
  · exact isEmpty_build_iff steps
  · exact fun steps ↦ ⟨(build steps).canonical_tree, rfl⟩
  · intro steps others
    rw [encodeArgs_eq_iff, positional_build, positional_build]
    simp only [get?_build]
  · intro members others
    rw [Value.write_eq_write_iff, Value.alike_object_iff]
    simp only [Keyed.get?_ofList]

example : (build [.kwarg "b" .null, .arg (.ofBool true), .kwarg "a" (.ofText "x"),
    .kwarg "b" (.ofBool false)]).tree.write =
      "\x7b\"args\":[true],\"kwargs\":\x7b\"a\":\"x\",\"b\":false\x7d\x7d" := by cbv

end CallArgs

end RemoteObjects
