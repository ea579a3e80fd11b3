import ColumnLineage.Lineage.Data
import ColumnLineage.Proofs.WrittenData
import Mathlib.Data.List.Nodup

/-! Lineage values against their JSON form. A kind of value is told by the members of its record: the value is read
from exactly the records where each of them is there once with its own data. So the order of the members and what
stands among them do not matter, and a record where one of them is missing or repeated holds no value. Only a source
table that is null may be left out. -/

namespace ColumnLineage.LineageRecords
open Data DataFields Json JsonGrammar Lineage WrittenData

variable {names optional : List Text} {own members : List (Text × Data)} {name s : Text}

/-! ## Kinds of values -/

/-- A member that may be left out of a record: it is null, and its name need not be there. -/
def Omissible (optional : List Text) (m : Text × Data) : Prop :=
  m.1 ∈ optional ∧ m.2 = .null

/-- Members that tell a member of a value: it is the only one of them with its name, or it is left out where it may
be. -/
def Tells (optional : List Text) (members : List (Text × Data)) (m : Text × Data) : Prop :=
  Once m.1 m.2 members ∨ Omissible optional m ∧ Without m.1 members

theorem tells_of_needed (needed : name ∉ optional) (d : Data) :
    Tells optional members (name, d) ↔ Once name d members := by
  simp [Tells, Omissible, needed]

theorem tells_optionalText (listed : name ∈ optional) (text? : Option Text) :
    Tells optional members (name, text?.elim .null .text) ↔
      Once name (text?.elim .null .text) members ∨ text? = none ∧ Without name members := by
  cases text? <;> simp [Tells, Omissible, listed]

/-- A kind of value with the names of its members and those of them that need not be there: each value is a record,
and it is read from exactly the records that tell all of its members. -/
structure Recorded (names optional : List Text) (data : α → Data) (ofData? : Data → Option α) : Prop where
  distinct : names.Nodup
  record (value : α) : ∃ own, data value = .record own
  named {value own} (written : data value = .record own) : own.map Prod.fst = names
  numberless (value : α) : Numberless (data value)
  read_iff {value own} (written : data value = .record own) (members : List (Text × Data)) :
    ofData? (.record members) = some value ↔ ∀ m ∈ own, Tells optional members m

/-- Members of a record as they may stand for those of a value: in any order, among others with other names, and
without those that may be left out or with them. -/
def Arranged (names optional : List Text) (own members : List (Text × Data)) : Prop :=
  ∃ kept others, members.Perm (kept ++ others) ∧ kept.Sublist own ∧ (∀ m ∈ own, m ∉ kept → Omissible optional m) ∧
    ∀ name ∈ names, Without name others

theorem Arranged.refl (names optional : List Text) (own : List (Text × Data)) :
    Arranged names optional own own :=
  ⟨own, [], by rw [List.append_nil], .refl own, fun _ inside out => absurd inside out,
    fun _ _ => List.forall_mem_nil _⟩

/-- A null that may be left out is left out of an arrangement. -/
theorem Arranged.omitted {front back others : List (Text × Data)} (listed : name ∈ optional)
    (perm : members.Perm ((front ++ back) ++ others)) (unknown : ∀ name ∈ names, Without name others) :
    Arranged names optional (front ++ (name, .null) :: back) members := by
  refine ⟨front ++ back, others, perm, .append_left (.cons _ (.refl back)) front, ?_, unknown⟩
  intro m inside out
  have same : m = (name, .null) := by simp_all
  exact same ▸ ⟨listed, rfl⟩

/-- Arranged members tell every member of the value. -/
theorem Arranged.tells (arranged : Arranged names optional own members) (distinct : names.Nodup)
    (named : own.map Prod.fst = names) : ∀ m ∈ own, Tells optional members m := by
  obtain ⟨kept, others, perm, sublist, left, unknown⟩ := arranged
  subst named
  intro m inside
  have apart : Without m.1 others := unknown m.1 (List.mem_map_of_mem inside)
  by_cases keeps : m ∈ kept
  · have once : Once m.1 m.2 kept := once_of_mem ((sublist.map Prod.fst).nodup distinct) keeps
    exact .inl ((once.append apart).perm perm.symm)
  · have gone : Without m.1 kept := by
      intro n member same
      have found : n = m := List.inj_on_of_nodup_map distinct (sublist.subset member) inside same
      exact keeps (found ▸ member)
    exact .inr ⟨left m inside keeps, (gone.append apart).perm perm.symm⟩

/-! ## Their JSON form -/

/-- The value that the data of a JSON text hold. -/
def decode? (ofData? : Data → Option α) (s : Text) : Option α :=
  (read? s).bind ofData?

theorem decode?_of_document {ofData? : Data → Option α} (text : Document (.record members) s) :
    decode? ofData? s = ofData? (.record members) := by
  rw [decode?, read?_eq_some_iff.2 text, Option.bind_some]

/-- A kind of value that survives its JSON form. What is written for a value is a record with the names of the kind,
and it is read back; so is every text of a record where its members are arranged in any way. A text of a record that
lacks a name that has to be there, or repeats any of the names, is refused whatever else it holds. -/
structure Survives (names optional : List Text) (data : α → Data) (ofData? : Data → Option α) : Prop where
  named (value : α) : ∃ own, data value = .record own ∧ own.map Prod.fst = names
  written (value : α) : decode? ofData? (write (data value)) = some value
  arranged (value : α) (own members : List (Text × Data)) (s : Text) :
    data value = .record own → Arranged names optional own members → Document (.record members) s →
      decode? ofData? s = some value
  lacking (name : Text) (members : List (Text × Data)) (s : Text) :
    name ∈ names → name ∉ optional → Without name members → Document (.record members) s → decode? ofData? s = none
  repeated (name : Text) (members : List (Text × Data)) (s : Text) :
    name ∈ names → Repeated name members → Document (.record members) s → decode? ofData? s = none

variable {data : α → Data} {ofData? : Data → Option α}

theorem Recorded.ofData?_of_arranged (recorded : Recorded names optional data ofData?) {value : α}
    (written : data value = .record own) (arranged : Arranged names optional own members) :
    ofData? (.record members) = some value :=
  (recorded.read_iff written members).2 (arranged.tells recorded.distinct (recorded.named written))

/-- A record that is read as a value tells something of every name. -/
theorem Recorded.told (recorded : Recorded names optional data ofData?) {value : α}
    (read : ofData? (.record members) = some value) (inside : name ∈ names) :
    (∃ d, Once name d members) ∨ name ∈ optional ∧ Without name members := by
  obtain ⟨own, written⟩ := recorded.record value
  rw [← recorded.named written] at inside
  obtain ⟨m, member, rfl⟩ := List.mem_map.1 inside
  rcases (recorded.read_iff written members).1 read m member with once | ⟨⟨omitted, -⟩, without⟩
  · exact .inl ⟨m.2, once⟩
  · exact .inr ⟨omitted, without⟩

theorem Recorded.survives (recorded : Recorded names optional data ofData?) :
    Survives names optional data ofData? where
  named value := by
    obtain ⟨own, written⟩ := recorded.record value
    exact ⟨own, written, recorded.named written⟩
  written value := by
    obtain ⟨own, written⟩ := recorded.record value
    rw [decode?, read?_write (recorded.numberless value), Option.bind_some, written]
    exact recorded.ofData?_of_arranged written (.refl names optional own)
  arranged value own members s written arranged text := by
    rw [decode?_of_document text]
    exact recorded.ofData?_of_arranged written arranged
  lacking name members s inside needed without text := by
    rw [decode?_of_document text]
    refine Option.eq_none_iff_forall_ne_some.2 fun value read => ?_
    rcases recorded.told read inside with ⟨d, once⟩ | ⟨omitted, -⟩
    · exact once.not_without without
    · exact needed omitted
  repeated name members s inside several text := by
    rw [decode?_of_document text]
    refine Option.eq_none_iff_forall_ne_some.2 fun value read => ?_
    rcases recorded.told read inside with ⟨d, once⟩ | ⟨-, without⟩
    · exact once.not_repeated several
    · exact without.not_repeated several

/-! ## Tables and columns -/

theorem tables_ofData?_eq_some_iff {tables : Tables} :
    Tables.ofData? (.record members) = some tables ↔
      Once "target_table".toList (.text tables.target) members ∧
        Once "source_tables".toList (.list (tables.sources.map .text)) members := by
  simp only [← member?_required_iff fun _ => text?_eq_some_iff,
    ← member?_required_iff fun _ => listOf?_text?_eq_some_iff, Option.bind_eq_some_iff]
  constructor
  · intro read
    simp only [Tables.ofData?, fields?] at read
    split at read
    · rename_i target sources found
      have found := mapM_eq_some_iff.1 found
      simp only [Tables.names, List.map_cons, List.map_nil, List.forall₂_cons] at found
      simp only [Option.bind_eq_bind, Option.bind_eq_some_iff, Option.pure_def, Option.some.injEq] at read
      obtain ⟨_, target, _, sources, rfl⟩ := read
      exact ⟨⟨_, found.1, target⟩, ⟨_, found.2.1, sources⟩⟩
    · cases read
  · rintro ⟨⟨target, hasTarget, isTarget⟩, sources, hasSources, isSources⟩
    have found : Tables.names.mapM (member? members) = some [target, sources] :=
      mapM_eq_some_iff.2 (.cons hasTarget (.cons hasSources .nil))
    simp only [Tables.ofData?, fields?, found, isTarget, isSources]
    rfl

theorem tables_recorded : Recorded Tables.names [] Tables.data Tables.ofData? where
  distinct := by decide
  record tables := ⟨_, rfl⟩
  named written := by
    cases written
    rfl
  numberless tables := by
    have sources : Numberless (.list (tables.sources.map .text)) :=
      .list (List.forall_mem_map.2 fun source _ => .text source)
    exact .record (List.forall_mem_cons.2 ⟨.text _, List.forall_mem_cons.2 ⟨sources, List.forall_mem_nil _⟩⟩)
  read_iff written members := by
    cases written
    simp only [tables_ofData?_eq_some_iff, List.forall_mem_cons, tells_of_needed List.not_mem_nil, List.not_mem_nil,
      IsEmpty.forall_iff, implies_true, and_true]

theorem column_ofData?_eq_some_iff {column : Column} :
    Column.ofData? (.record members) = some column ↔
      Once "table_name".toList (.text column.table) members ∧
        Once "column_name".toList (.text column.name) members ∧
        (Once "source_table".toList (column.sourceTable.elim .null .text) members ∨
          column.sourceTable = none ∧ Without "source_table".toList members) ∧
        Once "source_column".toList (.text column.sourceColumn) members ∧
        Once "full_definition".toList (.text column.definition) members ∧
        Once "has_transformation".toList (.bool column.transformed) members := by
  simp only [← member?_required_iff fun _ => text?_eq_some_iff, ← member?_required_iff fun _ => bool?_eq_some_iff,
    ← member?_optionalText_iff, Option.bind_eq_some_iff]
  constructor
  · intro read
    simp only [Column.ofData?, fields?] at read
    split at read
    · rename_i table name source sourceColumn definition transformed found
      have found := mapM_eq_some_iff.1 found
      simp only [Column.names, List.map_cons, List.map_nil, List.forall₂_cons] at found
      obtain ⟨hasTable, hasName, hasSource, hasSourceColumn, hasDefinition, hasTransformed, -⟩ := found
      simp only [Option.bind_eq_bind, Option.bind_eq_some_iff, Option.pure_def, Option.some.injEq] at read
      obtain ⟨_, table, _, name, _, source, _, sourceColumn, _, definition, _, transformed, rfl⟩ := read
      exact ⟨⟨_, hasTable, table⟩, ⟨_, hasName, name⟩, ⟨_, hasSource, source⟩, ⟨_, hasSourceColumn, sourceColumn⟩,
        ⟨_, hasDefinition, definition⟩, ⟨_, hasTransformed, transformed⟩⟩
    · cases read
  · rintro ⟨⟨_, hasTable, table⟩, ⟨_, hasName, name⟩, ⟨_, hasSource, source⟩, ⟨_, hasSourceColumn, sourceColumn⟩,
      ⟨_, hasDefinition, definition⟩, ⟨_, hasTransformed, transformed⟩⟩
    have found : Column.names.mapM (member? members) = some _ :=
      mapM_eq_some_iff.2 (.cons hasTable (.cons hasName (.cons hasSource (.cons hasSourceColumn
        (.cons hasDefinition (.cons hasTransformed .nil))))))
    simp only [Column.ofData?, fields?, found, table, name, source, sourceColumn, definition, transformed]
    rfl

theorem column_recorded : Recorded Column.names ["source_table".toList] Column.data Column.ofData? where
  distinct := by decide
  record column := ⟨_, rfl⟩
  named written := by
    cases written
    rfl
  numberless column := by
    refine .record ?_
    simp only [List.forall_mem_cons]
    exact ⟨.text _, .text _, .optionalText column.sourceTable, .text _, .text _, .bool _, List.forall_mem_nil _⟩
  read_iff written members := by
    cases written
    simp (disch := decide) only [column_ofData?_eq_some_iff, List.forall_mem_cons, tells_of_needed,
      tells_optionalText, List.not_mem_nil, IsEmpty.forall_iff, implies_true, and_true]

/-- Columns and tables survive their JSON form: each is read back from what is written for it, and from every text of
a record with its members in any order, with other members of any values among them, and, where there is no source
table, without the member for it. Without another member, or with any of them more than once, nothing is read. -/
theorem lineage_survives_json :
    Survives Column.names ["source_table".toList] Column.data Column.ofData? ∧
      Survives Tables.names [] Tables.data Tables.ofData? :=
  ⟨column_recorded.survives, tables_recorded.survives⟩

/-- A column that comes from no table, and its members before and behind the one for the table. -/
private def constant : Column :=
  ⟨"t".toList, "n".toList, none, "1".toList, "1 AS n".toList, true⟩

private abbrev front : List (Text × Data) :=
  [("table_name".toList, .text "t".toList), ("column_name".toList, .text "n".toList)]

private abbrev back : List (Text × Data) :=
  [("source_column".toList, .text "1".toList), ("full_definition".toList, .text "1 AS n".toList),
    ("has_transformation".toList, .bool true)]

/-- Members that are passed over, two of them with one name. -/
private abbrev notes : List (Text × Data) :=
  [("n".toList, .list [.record [("table_name".toList, .null)]]), ("n".toList, .null)]

private theorem constant_document :
    Document (.record (notes ++ (front ++ back))) (write (.record (notes ++ (front ++ back)))) := by
  have inner : Numberless (.record [("table_name".toList, .null)]) :=
    .record (List.forall_mem_singleton.2 .null)
  refine read?_eq_some_iff.1 (read?_write (.record ?_))
  simp only [List.cons_append, List.nil_append, List.forall_mem_cons]
  exact ⟨.list (List.forall_mem_singleton.2 inner), .null, .text _, .text _, .text _, .text _, .bool _,
    List.forall_mem_nil _⟩

private def untargeted : Text :=
  "\x7b\"source_tables\": []\x7d".toList

private def retargeted : Text :=
  "\x7b\"target_table\": 1, \"target_table\": \"a\"\x7d".toList

/-- A column is read back without its source table from behind the notes, and tables without a target or with two are
not read. -/
theorem rearranged_column_survives :
    decode? Column.ofData? (write (.record (notes ++ (front ++ back)))) = some constant ∧
      decode? Tables.ofData? untargeted = none ∧ decode? Tables.ofData? retargeted = none := by
  refine ⟨?_, ?_, ?_⟩
  · have arranged : Arranged Column.names ["source_table".toList] (front ++ ("source_table".toList, .null) :: back)
        (notes ++ (front ++ back)) :=
      .omitted List.mem_cons_self List.perm_append_comm (by decide)
    exact lineage_survives_json.1.arranged constant _ _ _ rfl arranged constant_document
  · have text : Document (.record [("source_tables".toList, .list [])]) untargeted :=
      read?_eq_some_iff.1 (by cbv)
    exact lineage_survives_json.2.lacking "target_table".toList _ _ (by decide) (by decide) (by decide) text
  · have text : Document (.record [("target_table".toList, .integer 1), ("target_table".toList, .text "a".toList)])
        retargeted :=
      read?_eq_some_iff.1 (by cbv)
    exact lineage_survives_json.2.repeated "target_table".toList _ _ (by decide) (by decide) text

end ColumnLineage.LineageRecords
