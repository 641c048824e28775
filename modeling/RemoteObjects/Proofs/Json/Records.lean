import RemoteObjects.Json.Tagged
import RemoteObjects.Proofs.Json.Parsing

/-!
# Which members a record takes

All members of a record are examined: a field may stand only once and has to be read, and what is
no field has to be JSON.  A tagged record sets all members aside but the tag.
-/

namespace RemoteObjects.Json

/-! ## Data by itself -/

theorem Decoder.mismatch_ne_ok {α : Type} {wanted : String} {d : Draft} {a : α} :
    mismatch wanted d ≠ .ok a := by
  intro h
  simp only [mismatch, bind_eq_ok_iff] at h
  obtain ⟨_, _, h⟩ := h
  cases h

theorem Decoder.text_eq_ok_iff {place : Place} {d : Draft} {s : String} :
    Decoder.text place d = .ok s ↔ d = .text (some s) := by
  constructor
  · intro h
    unfold Decoder.text at h
    split at h
    · cases h
      rfl
    · exact absurd h mismatch_ne_ok
  · rintro rfl
    rfl

theorem Decoder.value_eq_ok_iff {place : Place} {d : Draft} {v : Value} :
    Decoder.value place d = .ok v ↔ ∃ t, d = .ofTree t ∧ place.Holds t.depth ∧ .ofTree t = v := by
  simp only [Decoder.value, map_eq_ok_iff, Draft.tree_eq_ok_iff, and_assoc]

/-! ## Members -/

/-- What stands under a name that stands once. -/
theorem lookup_eq_some_iff {α β : Type} [BEq α] [LawfulBEq α] {l : List (α × β)} {a : α} {b : β}
    (h : (l.map Prod.fst).count a ≤ 1) : l.lookup a = some b ↔ (a, b) ∈ l := by
  induction l with
  | nil => simp
  | cons e rest ih =>
      obtain ⟨c, d⟩ := e
      rw [List.lookup_cons]
      by_cases hc : c = a
      · subst hc
        rw [List.map_cons, List.count_cons_self] at h
        have hrest : (c, b) ∉ rest := by
          intro hmem
          have hpos := List.count_pos_iff.mpr (List.mem_map_of_mem (f := Prod.fst) hmem)
          simp only at hpos
          omega
        simp [hrest, eq_comm]
      · rw [List.map_cons, List.count_cons_of_ne hc] at h
        simp [ih h, beq_false_of_ne (Ne.symm hc), Ne.symm hc]

namespace Fields

variable {β γ : Type}

/-- Whether what stands under a name may stand there. -/
def Passes (fields : Fields β γ) (place : Place) (name : String) (d : Draft) : Prop :=
  match fields.examine? name with
  | none => d.closed = true
  | some decode => decode place d = .ok ()

/-- Whether no field stands twice under these names, nor one that stood before. -/
def NoneTwice (fields : Fields β γ) (seen : List String) (names : List (Option String)) : Prop :=
  ∀ name, (fields.examine? name).isSome = true →
    (if name ∈ seen then 1 else 0) + names.count (some name) ≤ 1

theorem noneTwice_nil (fields : Fields β γ) (seen : List String) : fields.NoneTwice seen [] := by
  intro name _
  rw [List.count_nil]
  split <;> omega

theorem noneTwice_other {fields : Fields β γ} {seen : List String} {name : String}
    {names : List (Option String)} (hname : fields.examine? name = none) :
    fields.NoneTwice seen (some name :: names) ↔ fields.NoneTwice seen names := by
  refine forall₂_congr fun other hother ↦ ?_
  have hne : some name ≠ some other := by
    rintro ⟨⟩
    rw [hname] at hother
    cases hother
  rw [List.count_cons_of_ne hne]

theorem noneTwice_field {fields : Fields β γ} {seen : List String} {name : String}
    {names : List (Option String)} (hname : (fields.examine? name).isSome = true) :
    fields.NoneTwice seen (some name :: names) ↔
      name ∉ seen ∧ fields.NoneTwice (name :: seen) names := by
  by_cases hseen : name ∈ seen
  · refine iff_of_false (fun h ↦ ?_) (fun h ↦ h.1 hseen)
    have hcount := h name hname
    rw [if_pos hseen, List.count_cons_self] at hcount
    omega
  · rw [and_iff_right hseen]
    refine forall₂_congr fun other _ ↦ ?_
    by_cases hother : other = name
    · subst hother
      rw [if_neg hseen, if_pos List.mem_cons_self, List.count_cons_self]
      omega
    · have hne : some name ≠ some other := fun h ↦ hother (Option.some.inj h).symm
      simp only [List.mem_cons, hother, false_or, List.count_cons_of_ne hne]

theorem examine_other {fields : Fields β γ} {place : Place} {seen : List String} {name : String}
    {d : Draft} {rest : List (Option String × Draft)} (hname : fields.examine? name = none) :
    fields.examine place seen ((some name, d) :: rest) = .ok () ↔
      d.closed = true ∧ fields.examine place seen rest = .ok () := by
  simp only [examine, hname]
  by_cases hd : d.closed = true <;> simp [hd]

theorem examine_field {fields : Fields β γ} {place : Place} {seen : List String} {name : String}
    {d : Draft} {rest : List (Option String × Draft)} {decode : Decoder Unit}
    (hname : fields.examine? name = some decode) :
    fields.examine place seen ((some name, d) :: rest) = .ok () ↔
      name ∉ seen ∧ decode place d = .ok () ∧
        fields.examine place (name :: seen) rest = .ok () := by
  simp only [examine, hname]
  by_cases hseen : name ∈ seen
  · simp [hseen]
  · rw [if_neg hseen, bind_eq_ok_iff, and_iff_right hseen]
    constructor
    · rintro ⟨_, h⟩
      exact h
    · intro h
      exact ⟨(), h⟩

/-- Members pass if each of them does and no field stands twice, nor one that stood before. -/
theorem examine_eq_ok_iff (fields : Fields β γ) (place : Place) (seen : List String)
    (members : List (Option String × Draft)) :
    fields.examine place seen members = .ok () ↔
      (∀ m ∈ members, ∃ name, m.1 = some name ∧ fields.Passes place name m.2) ∧
        fields.NoneTwice seen (members.map Prod.fst) := by
  induction members generalizing seen with
  | nil => simp [examine, noneTwice_nil]
  | cons m rest ih =>
      obtain ⟨_ | name, d⟩ := m
      · simp [examine]
      · have hfirst : (∃ name', some name = some name' ∧ fields.Passes place name' d) ↔
            fields.Passes place name d := by simp
        rw [List.forall_mem_cons, hfirst, List.map_cons]
        cases hname : fields.examine? name with
        | none =>
            rw [examine_other hname, noneTwice_other hname, ih seen, Passes, hname, and_assoc]
        | some decode =>
            rw [examine_field hname, noneTwice_field (by rw [hname]; rfl), ih (name :: seen),
              Passes, hname]
            tauto

end Fields

/-- Whether a field has this value among members. -/
def Field.Takes {α : Type} (field : Field α) (place : Place)
    (members : List (Option String × Draft)) (a : α) : Prop :=
  match members.lookup (some field.name) with
  | some d => field.decode place d = .ok a
  | none => field.absent = some a

theorem Fields.ofMembers_done {β : Type} (place : Place) (members : List (Option String × Draft))
    (b : β) : Fields.done.ofMembers place members b = .ok b := rfl

theorem Fields.ofMembers_eq_ok_iff {α β γ : Type} {first : Field α} {rest : Fields β γ}
    {place : Place} {members : List (Option String × Draft)} {make : α → γ} {b : β} :
    (Fields.field first rest).ofMembers place members make = .ok b ↔
      ∃ a, first.Takes place members a ∧ rest.ofMembers place members (make a) = .ok b := by
  simp only [Fields.ofMembers, Field.Takes]
  cases members.lookup (some first.name) with
  | some d => simp only [bind_eq_ok_iff]
  | none =>
      cases first.absent with
      | some a => simp
      | none => simp

theorem Record.decode_object_eq_ok_iff {β : Type} (r : Record β) {place inner : Place}
    (henter : place.enter = .ok inner) {members : List (Option String × Draft)} {b : β} :
    r.decode place (.object members) = .ok b ↔
      r.fields.examine inner [] members = .ok () ∧
        r.fields.ofMembers inner members r.make = .ok b := by
  simp only [Record.decode, henter, bind_eq_ok_iff]
  constructor
  · rintro ⟨_, ⟨⟩, _, hexamine, hmembers⟩
    exact ⟨hexamine, hmembers⟩
  · rintro ⟨hexamine, hmembers⟩
    exact ⟨inner, rfl, (), hexamine, hmembers⟩

/-! ## Tagged records -/

theorem Tagged.gather_others {α : Type} (t : Tagged α) {place : Place}
    (v : Option (Variant α)) {others : List (String × Tree)} (hnames : ∀ e ∈ others, e.1 ≠ t.tag)
    (hdepth : place.Holds (Tree.depthMembers others)) :
    t.gather place v (Draft.ofMembers others) = .ok (v, others) := by
  induction others with
  | nil => rfl
  | cons e rest ih =>
      obtain ⟨name, tree⟩ := e
      have htree := Draft.tree_ofTree tree (hdepth.mono (Nat.le_max_left _ _))
      have hrest := ih (fun e he ↦ hnames e (List.mem_cons_of_mem _ he))
        (hdepth.mono (Nat.le_max_right _ _))
      have hname : name ≠ t.tag := hnames (name, tree) List.mem_cons_self
      simp only [Draft.ofMembers, Tagged.gather, if_neg hname, htree, hrest, bind, Except.bind]
      rfl

end RemoteObjects.Json
