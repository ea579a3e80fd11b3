import ColumnLineage.Data.Basic
import Mathlib.Data.List.Forall2

/-! What is taken from lists and records, told by their items and members themselves: a list is taken item by
item, and a member of a record counts where it is the only one with its name. -/

namespace ColumnLineage.DataFields
open Data

/-! ## Single values -/

theorem text?_eq_some_iff {d : Data} : text? d = some s ↔ d = .text s := by
  cases d <;> simp [text?]

theorem natBelow?_eq_some_iff {bound n : Nat} {d : Data} :
    natBelow? bound d = some n ↔ d = .integer n ∧ n < bound := by
  cases d with
  | integer m =>
    simp only [natBelow?, Option.ite_none_right_eq_some, Option.some.injEq, integer.injEq]
    omega
  | _ => simp [natBelow?]

theorem nullable?_eq_some_iff {value? : Data → Option α} {d : Data} {v : Option α} :
    nullable? value? d = some v ↔ d = .null ∧ v = none ∨ d ≠ .null ∧ ∃ a, value? d = some a ∧ some a = v := by
  cases d <;> simp [nullable?, eq_comm (a := none)]

theorem bool?_eq_some_iff {d : Data} : bool? d = some b ↔ d = .bool b := by
  cases d <;> simp [bool?]

theorem required?_eq_some_iff {value? : Data → Option α} {field : Option Data} {a : α} :
    required? value? field = some a ↔ ∃ d, field = some d ∧ value? d = some a := by
  cases field <;> simp [required?]

/-! ## Items -/

/-- Taking something from every item gives a list of what was taken from each, and fails with the first item
that does not give it. -/
theorem mapM_eq_some_iff {value? : α → Option β} {items : List α} {values : List β} :
    items.mapM value? = some values ↔ List.Forall₂ (fun item value => value? item = some value) items values := by
  induction items generalizing values with
  | nil => simp [eq_comm]
  | cons item items ih =>
    simp only [List.mapM_cons, Option.bind_eq_bind, Option.bind_eq_some_iff, Option.pure_def,
      Option.some.injEq, List.forall₂_cons_left_iff, ih]
    constructor
    · rintro ⟨value, first, values, others, rfl⟩
      exact ⟨value, values, first, others, rfl⟩
    · rintro ⟨value, values, first, others, rfl⟩
      exact ⟨value, first, values, others, rfl⟩

theorem mapM_eq_none_iff {value? : α → Option β} {items : List α} :
    items.mapM value? = none ↔ ∃ item ∈ items, value? item = none := by
  induction items with
  | nil => simp
  | cons item items ih =>
    rw [List.exists_mem_cons_iff, ← ih, List.mapM_cons]
    cases value? item with
    | none => simp
    | some value => cases items.mapM value? <;> simp

theorem listOf?_eq_some_iff {value? : Data → Option α} {d : Data} {values : List α} :
    listOf? value? d = some values ↔
      ∃ items, d = .list items ∧ List.Forall₂ (fun item value => value? item = some value) items values := by
  constructor
  · intro taken
    cases d with
    | list items => exact ⟨items, rfl, mapM_eq_some_iff.1 taken⟩
    | _ => cases taken
  · rintro ⟨items, rfl, each⟩
    exact mapM_eq_some_iff.2 each

theorem listOf?_text?_eq_some_iff {d : Data} {texts : List Text} :
    listOf? text? d = some texts ↔ d = .list (texts.map .text) := by
  simp only [listOf?_eq_some_iff, text?_eq_some_iff, ← List.forall₂_map_right_iff, List.forall₂_eq_eq_eq]
  exact ⟨fun ⟨_, held, same⟩ => same ▸ held, fun held => ⟨_, held, rfl⟩⟩

/-! ## Members -/

/-- Members of which none has a name. -/
def Without (name : Text) (members : List (Text × Data)) : Prop :=
  ∀ m ∈ members, m.1 ≠ name

instance (name : Text) (members : List (Text × Data)) : Decidable (Without name members) :=
  List.decidableBAll _ members

/-- Members of which one has a name and the others have not. -/
def Once (name : Text) (d : Data) (members : List (Text × Data)) : Prop :=
  ∃ front back, members = front ++ (name, d) :: back ∧ Without name front ∧ Without name back

theorem membersNamed_eq_nil_iff : membersNamed name members = [] ↔ Without name members := by
  simp [membersNamed, Without]

theorem membersNamed_append (front back : List (Text × Data)) :
    membersNamed name (front ++ back) = membersNamed name front ++ membersNamed name back := by
  simp [membersNamed]

theorem membersNamed_cons_self (d : Data) (members : List (Text × Data)) :
    membersNamed name ((name, d) :: members) = d :: membersNamed name members := by
  simp [membersNamed]

theorem membersNamed_cons_of_ne {m : Text × Data} (other : m.1 ≠ name) (members : List (Text × Data)) :
    membersNamed name (m :: members) = membersNamed name members := by
  simp [membersNamed, other]

/-- The first value with a name stands behind members without the name. -/
theorem exists_of_membersNamed_eq_cons {members : List (Text × Data)}
    (named : membersNamed name members = d :: rest) :
    ∃ front back, members = front ++ (name, d) :: back ∧ Without name front ∧ membersNamed name back = rest := by
  induction members with
  | nil => cases named
  | cons m members ih =>
    by_cases same : m.1 = name
    · obtain ⟨_, e⟩ := m
      cases same
      rw [membersNamed_cons_self] at named
      cases named
      exact ⟨[], members, rfl, List.forall_mem_nil _, rfl⟩
    · rw [membersNamed_cons_of_ne same] at named
      obtain ⟨front, back, rfl, without, others⟩ := ih named
      exact ⟨m :: front, back, rfl, List.forall_mem_cons.2 ⟨same, without⟩, others⟩

theorem membersNamed_eq_singleton_iff {members : List (Text × Data)} :
    membersNamed name members = [d] ↔ Once name d members := by
  constructor
  · intro named
    obtain ⟨front, back, rfl, without, others⟩ := exists_of_membersNamed_eq_cons named
    exact ⟨front, back, rfl, without, membersNamed_eq_nil_iff.1 others⟩
  · rintro ⟨front, back, rfl, without, others⟩
    rw [membersNamed_append, membersNamed_cons_self, membersNamed_eq_nil_iff.2 without,
      membersNamed_eq_nil_iff.2 others, List.nil_append]

/-- A member is absent where none has its name. -/
theorem member?_eq_absent_iff : member? members name = some none ↔ Without name members := by
  rw [← membersNamed_eq_nil_iff, member?]
  split <;> simp_all

/-- A member is there where it is the only one with its name. -/
theorem member?_eq_present_iff : member? members name = some (some d) ↔ Once name d members := by
  rw [← membersNamed_eq_singleton_iff, member?]
  split <;> simp_all

/-- Members of which several have a name. -/
def Repeated (name : Text) (members : List (Text × Data)) : Prop :=
  2 ≤ (members.map Prod.fst).count name

instance (name : Text) (members : List (Text × Data)) : Decidable (Repeated name members) :=
  inferInstanceAs (Decidable (2 ≤ _))

theorem length_membersNamed (name : Text) (members : List (Text × Data)) :
    (membersNamed name members).length = (members.map Prod.fst).count name := by
  induction members with
  | nil => rfl
  | cons m members ih =>
    by_cases same : m.1 = name
    · obtain ⟨_, d⟩ := m
      cases same
      rw [membersNamed_cons_self, List.length_cons, ih, List.map_cons, List.count_cons_self]
    · rw [membersNamed_cons_of_ne same, ih, List.map_cons, List.count_cons_of_ne same]

/-- Nothing is taken where several members have the name. -/
theorem member?_eq_none_iff : member? members name = none ↔ Repeated name members := by
  rw [Repeated, ← length_membersNamed, member?]
  rcases membersNamed name members with _ | ⟨d, _ | ⟨e, rest⟩⟩ <;> simp

/-- The order of members does not matter to the one with a name. -/
theorem member?_perm {members others : List (Text × Data)} (perm : members.Perm others) (name : Text) :
    member? members name = member? others name := by
  have named : (membersNamed name members).Perm (membersNamed name others) := (perm.filter _).map _
  have length := named.length_eq
  rw [member?, member?]
  rcases first : membersNamed name members with _ | ⟨d, _ | ⟨e, rest⟩⟩
  · rw [first] at named
    rw [named.nil_eq]
  · rw [first] at named
    rw [named.singleton_eq]
  · rw [first] at length
    rcases second : membersNamed name others with _ | ⟨_, _ | _⟩
    · simp [second] at length
    · simp [second] at length
    · rfl

/-- A member that has to be there is read where it is the only one with its name and holds its own data. -/
theorem member?_required_iff {value? : Data → Option α} {v : α} (reads : ∀ e, value? e = some v ↔ e = d) :
    (member? members name).bind (required? value?) = some v ↔ Once name d members := by
  simp only [Option.bind_eq_some_iff, required?_eq_some_iff, reads]
  constructor
  · rintro ⟨_, found, _, rfl, rfl⟩
    exact member?_eq_present_iff.1 found
  · intro once
    exact ⟨_, member?_eq_present_iff.2 once, _, rfl, rfl⟩

/-- A text that may be null or left out is read where the only member with its name holds it, or where there is
none and no member with the name. -/
theorem member?_optionalText_iff {text? : Option Text} :
    (member? members name).bind (default? none (nullable? Data.text?)) = some text? ↔
      Once name (text?.elim .null .text) members ∨ text? = none ∧ Without name members := by
  rw [← member?_eq_present_iff, ← member?_eq_absent_iff]
  rcases member? members name with _ | _ | d
  · simp
  · cases text? <;> simp [default?]
  · simp only [Option.bind_some, default?, nullable?_eq_some_iff, text?_eq_some_iff]
    cases text? with
    | none => simp
    | some s => cases d <;> simp

theorem Without.perm {members others : List (Text × Data)} (without : Without name members)
    (perm : members.Perm others) : Without name others :=
  fun m inside => without m (perm.mem_iff.2 inside)

theorem Once.perm {members others : List (Text × Data)} (once : Once name d members)
    (perm : members.Perm others) : Once name d others :=
  member?_eq_present_iff.1 ((member?_perm perm name).symm.trans (member?_eq_present_iff.2 once))

theorem Without.append {members others : List (Text × Data)} (first : Without name members)
    (second : Without name others) : Without name (members ++ others) :=
  List.forall_mem_append.2 ⟨first, second⟩

theorem Once.append {others : List (Text × Data)} (once : Once name d members) (without : Without name others) :
    Once name d (members ++ others) := by
  obtain ⟨front, back, rfl, before, behind⟩ := once
  exact ⟨front, back ++ others, List.append_assoc _ _ _, before, behind.append without⟩

/-- Each of some members with different names is there once. -/
theorem once_of_mem {members : List (Text × Data)} (distinct : (members.map Prod.fst).Nodup) (inside : m ∈ members) :
    Once m.1 m.2 members := by
  obtain ⟨front, back, rfl⟩ := List.append_of_mem inside
  rw [List.map_append, List.map_cons, List.nodup_append, List.nodup_cons] at distinct
  obtain ⟨-, ⟨behind, -⟩, apart⟩ := distinct
  refine ⟨front, back, rfl, ?_, ?_⟩
  · intro n member
    exact apart n.1 (List.mem_map_of_mem member) m.1 List.mem_cons_self
  · intro n member same
    exact behind (same ▸ List.mem_map_of_mem member)

/-- A name is absent, there once or repeated, and only one of these. -/
theorem Once.not_without (once : Once name d members) : ¬ Without name members := by
  intro without
  cases (member?_eq_present_iff.2 once).symm.trans (member?_eq_absent_iff.2 without)

theorem Once.not_repeated (once : Once name d members) : ¬ Repeated name members := by
  intro several
  cases (member?_eq_present_iff.2 once).symm.trans (member?_eq_none_iff.2 several)

theorem Without.not_repeated {members : List (Text × Data)} (without : Without name members) :
    ¬ Repeated name members := by
  intro several
  cases (member?_eq_absent_iff.2 without).symm.trans (member?_eq_none_iff.2 several)

theorem fields?_record_singleton (name : Text) (allowed : Nat → Bool) (members : List (Text × Data)) :
    fields? [name] allowed (.record members) = (member? members name).map ([·]) := by
  rw [fields?, List.mapM_cons]
  cases member? members name <;> rfl

end ColumnLineage.DataFields
