import ColumnLineage.Lineage.Extraction
import ColumnLineage.Proofs.Trimming

/-! Where the items of a select list stand. Every item is a run of neighbouring tokens of its text, and
neither end of it is a separator; its expression is a run at its front that holds more than separators. -/

namespace ColumnLineage.SelectedItems
open Sql
open SelectList (afterOuterSelect? afterAnySelect? afterSelect? afterQuantifiers regionFrom segmentsFrom
  itemsAtStart)

/-- A word without quotes as a token. -/
def plainWord (value : String) : Token :=
  .word ⟨none, value.toList⟩

theorem afterOuterSelect?_split {tokens rest : List Token} {depth : Nat}
    (found : afterOuterSelect? depth tokens = some rest) :
    ∃ before select, tokens = before ++ select :: rest ∧ select.isAnyOf ["SELECT"] = true := by
  fun_induction afterOuterSelect? depth tokens with
  | case1 => cases found
  | case2 depth select more outer =>
    obtain rfl := Option.some.inj found
    exact ⟨[], select, rfl, outer.2⟩
  | case3 depth token more _ ih =>
    obtain ⟨before, select, rfl, named⟩ := ih found
    exact ⟨token :: before, select, rfl, named⟩

theorem afterAnySelect?_split {tokens rest : List Token} (found : afterAnySelect? tokens = some rest) :
    ∃ before select, tokens = before ++ select :: rest ∧ select.isAnyOf ["SELECT"] = true := by
  fun_induction afterAnySelect? tokens with
  | case1 => cases found
  | case2 select more named =>
    obtain rfl := Option.some.inj found
    exact ⟨[], select, rfl, named⟩
  | case3 token more _ ih =>
    obtain ⟨before, select, rfl, named⟩ := ih found
    exact ⟨token :: before, select, rfl, named⟩

/-- What a select list is read from follows a token that spells `SELECT`. -/
theorem afterSelect?_split {tokens rest : List Token} (found : afterSelect? tokens = some rest) :
    ∃ before select, tokens = before ++ select :: rest ∧ select.isAnyOf ["SELECT"] = true := by
  unfold afterSelect? at found
  cases outer : afterOuterSelect? 0 tokens with
  | some inner =>
    rw [outer] at found
    obtain rfl : inner = rest := Option.some.inj found
    exact afterOuterSelect?_split outer
  | none =>
    rw [outer] at found
    exact afterAnySelect?_split found

theorem regionFrom_isPrefix (depth : Nat) (tokens : List Token) : regionFrom depth tokens <+: tokens := by
  fun_induction regionFrom depth tokens with
  | case1 => exact List.prefix_rfl
  | case2 => exact List.nil_prefix
  | case3 depth token rest _ ih => exact (List.prefix_cons_inj token).2 ih

/-- The first segment stands at the start, and every other one somewhere after it. -/
theorem segmentsFrom_isInfix (depth : Nat) (tokens : List Token) :
    ∃ first others, segmentsFrom depth tokens = first :: others ∧ first <+: tokens ∧
      ∀ segment ∈ others, segment <:+: tokens := by
  fun_induction segmentsFrom depth tokens with
  | case1 => exact ⟨[], [], rfl, List.prefix_rfl, by simp⟩
  | case2 depth token rest _ ih =>
    obtain ⟨first, others, parted, start, inside⟩ := ih
    refine ⟨[], first :: others, by rw [parted], List.nil_prefix, ?_⟩
    intro segment member
    rcases List.mem_cons.1 member with rfl | member
    · exact List.infix_cons start.isInfix
    · exact List.infix_cons (inside segment member)
  | case3 depth token rest _ none ih =>
    obtain ⟨first, others, parted, -⟩ := ih
    rw [none] at parted
    cases parted
  | case4 depth token rest _ segment others parted ih =>
    obtain ⟨_, _, same, start, inside⟩ := ih
    obtain ⟨rfl, rfl⟩ := List.cons.inj (parted.symm.trans same)
    refine ⟨token :: segment, others, rfl, (List.prefix_cons_inj token).2 start, ?_⟩
    exact fun other member => List.infix_cons (inside other member)

/-! ## Separators -/

theorem significant_append (front back : List Token) :
    Token.significant (front ++ back) = Token.significant front ++ Token.significant back :=
  List.filter_append front back

theorem significant_of_spacing {tokens : List Token} (spacing : ∀ token ∈ tokens, token.isSpacing = true) :
    Token.significant tokens = [] := by
  simpa [Token.significant] using spacing

/-- A run of tokens with no separator at its ends. -/
structure Trimmed (tokens : List Token) : Prop where
  begins : ∃ first more, tokens = first :: more ∧ first.isSpacing = false
  ends : ∃ front last, tokens = front ++ [last] ∧ last.isSpacing = false

theorem trimSpacing_isInfix (tokens : List Token) : Token.trimSpacing tokens <:+: tokens :=
  (List.rdropWhile_prefix Token.isSpacing (tokens.dropWhile Token.isSpacing)).isInfix.trans
    (List.dropWhile_suffix Token.isSpacing).isInfix

theorem trimSpacing_trimmed {tokens : List Token} (some : Token.trimSpacing tokens ≠ []) :
    Trimmed (Token.trimSpacing tokens) := by
  have kept : Token.trimSpacing tokens <+: tokens.dropWhile Token.isSpacing :=
    List.rdropWhile_prefix Token.isSpacing _
  constructor
  · obtain ⟨first, more, start⟩ := List.exists_cons_of_ne_nil some
    rw [start] at kept
    exact ⟨first, more, start, Text.head_of_prefix_dropWhile kept⟩
  · have last := List.rdropWhile_last_not Token.isSpacing (tokens.dropWhile Token.isSpacing) some
    refine ⟨_, _, (List.dropLast_append_getLast some).symm, ?_⟩
    exact Bool.eq_false_iff.2 last

theorem item_of_ofSegment? {segment : List Token} {item : SelectItem}
    (held : SelectItem.ofSegment? segment = some item) :
    item.tokens <:+: segment ∧ Trimmed item.tokens := by
  unfold SelectItem.ofSegment? at held
  split at held
  · cases held
  · rename_i some
    obtain rfl := Option.some.inj held
    exact ⟨trimSpacing_isInfix segment, trimSpacing_trimmed some⟩

/-- Every item of the select list of some tokens is a run of them. -/
theorem item_of_tokens {tokens : List Token} {list : SelectList} {item : SelectItem}
    (found : SelectList.ofTokens? tokens = some list) (member : item ∈ list.items) :
    item.tokens <:+: tokens ∧ Trimmed item.tokens := by
  unfold SelectList.ofTokens? at found
  split at found
  · rename_i rest after
    rw [SelectList.items_of_ofItems? found] at member
    obtain ⟨segment, among, held⟩ := List.mem_filterMap.1 member
    obtain ⟨inSegment, trimmed⟩ := item_of_ofSegment? held
    refine ⟨?_, trimmed⟩
    obtain ⟨first, others, parted, start, inside⟩ :=
      segmentsFrom_isInfix 0 (regionFrom 0 (afterQuantifiers rest))
    have inRegion : segment <:+: regionFrom 0 (afterQuantifiers rest) := by
      rw [parted] at among
      rcases List.mem_cons.1 among with rfl | among
      · exact start.isInfix
      · exact inside segment among
    have inRest : regionFrom 0 (afterQuantifiers rest) <:+: rest :=
      (regionFrom_isPrefix 0 _).isInfix.trans (List.dropWhile_suffix _).isInfix
    obtain ⟨before, select, whole, -⟩ := afterSelect?_split after
    have inTokens : rest <:+: tokens := ⟨before ++ [select], [], by simp [whole]⟩
    exact inSegment.trans (inRegion.trans (inRest.trans inTokens))
  · cases found

/-- Every item of the select list of a text is a run of the tokens of that text. -/
theorem item_isInfix {sql : Text} {list : SelectList} {item : SelectItem}
    (found : SelectList.ofTokens? (Statement.first sql) = some list) (member : item ∈ list.items) :
    item.tokens <:+: Statement.tokens sql ∧ Trimmed item.tokens := by
  obtain ⟨inFirst, trimmed⟩ := item_of_tokens found member
  exact ⟨inFirst.trans (Statement.firstFrom_isPrefix 0 _).isInfix, trimmed⟩

/-! ## Expressions -/

/-- The parts of an item with an alias: an expression that holds more than separators, and the alias, with `AS`
before it or without. -/
inductive AliasParts (tokens expression : List Token) (last : Word) : Prop where
  | explicit (gap : List Token) (keyword : Word) (holds : ∃ token ∈ expression, token.isSpacing = false)
      (introduces : keyword.isAnyOf ["AS"] = true) (spacing : ∀ token ∈ gap, token.isSpacing = true)
      (whole : tokens = expression ++ .word keyword :: (gap ++ [.word last]))
  | implicit (holds : ∃ token ∈ expression, token.isSpacing = false) (whole : tokens = expression ++ [.word last])

theorem aliasParts_of_splitAlias? {item : SelectItem} {expression : List Token} {last : Word}
    (split : item.splitAlias? = some (expression, last)) : AliasParts item.tokens expression last := by
  unfold SelectItem.splitAlias? at split
  split at split
  · rename_i word before reversed
    have whole : item.tokens = before.reverse ++ [.word word] := by
      rw [← List.reverse_cons, ← reversed, List.reverse_reverse]
    split at split
    · cases split
    · rename_i previous earlier kept
      have back : before.reverse = earlier.reverse ++ previous :: (before.takeWhile Token.isSpacing).reverse := by
        rw [List.append_cons, ← List.reverse_cons, ← kept, ← List.reverse_append,
          List.takeWhile_append_dropWhile]
      split at split
      · rename_i named
        obtain ⟨rfl, rfl⟩ := Prod.mk.inj (Option.some.inj split)
        rw [Bool.and_eq_true, List.any_eq_true] at named
        obtain ⟨introduces, token, member, solid⟩ := named
        cases previous with
        | word keyword =>
          refine .explicit (before.takeWhile Token.isSpacing).reverse keyword
            ⟨token, List.mem_reverse.2 member, by simpa using solid⟩ introduces ?_ (by simp [whole, back])
          exact fun token member => List.mem_takeWhile_imp (List.mem_reverse.1 member)
        | _ => cases introduces
      · split at split
        · obtain ⟨rfl, rfl⟩ := Prod.mk.inj (Option.some.inj split)
          have start : previous :: earlier <+: before.dropWhile Token.isSpacing := kept ▸ List.prefix_rfl
          exact .implicit ⟨previous, by simp [back], Text.head_of_prefix_dropWhile start⟩ whole
        · cases split
  · cases split

/-- An alias is the last token of its item, and the expression before it holds more than separators. -/
theorem splitAlias?_split {item : SelectItem} {tokens : List Token} {last : Word}
    (split : item.splitAlias? = some (tokens, last)) :
    (∃ between, item.tokens = tokens ++ between ++ [.word last]) ∧
      ∃ token ∈ tokens, token.isSpacing = false := by
  cases aliasParts_of_splitAlias? split with
  | explicit gap keyword holds introduces spacing whole =>
    exact ⟨⟨.word keyword :: gap, by rw [whole, List.append_assoc]; rfl⟩, holds⟩
  | implicit holds whole => exact ⟨⟨[], by rw [whole, List.append_nil]⟩, holds⟩

/-- The expression of an item stands at its front and holds more than separators. -/
theorem expression_isPrefix {item : SelectItem} (trimmed : Trimmed item.tokens) :
    item.expression <+: item.tokens ∧ ∃ token ∈ item.expression, token.isSpacing = false := by
  unfold SelectItem.expression
  split
  · rename_i tokens last found
    obtain ⟨⟨between, whole⟩, solid⟩ := splitAlias?_split found
    exact ⟨⟨between ++ [.word last], by rw [whole, List.append_assoc]⟩, solid⟩
  · obtain ⟨first, more, whole, solid⟩ := trimmed.begins
    exact ⟨List.prefix_rfl, first, by simp [whole], solid⟩

/-- What an item reads from is the first token of its expression, with others after it, or the whole of it. -/
theorem leadingText_cases (item : SelectItem) :
    (∃ first second others, Token.significant item.expression = first :: second :: others ∧
      item.leadingText = first.render) ∨
    item.leadingText = item.expressionText := by
  simp only [SelectItem.leadingText]
  split
  · rename_i first second others significant
    split
    · exact .inl ⟨first, second, others, significant, rfl⟩
    · exact .inr rfl
  · exact .inr rfl

/-! ## Columns -/

/-- A text selects an item, and a column among some tables is made of it. -/
def Selects (tables : Lineage.Tables) (sql : Text) (item : SelectItem) (column : Lineage.Column) : Prop :=
  ∃ list, SelectList.ofTokens? (Statement.first sql) = some list ∧ item ∈ list.items ∧
    Lineage.Column.ofItem? tables item = some column

/-- The columns of a text are those that are made of the items it selects. -/
theorem mem_columnsOfSql_iff {tables : Lineage.Tables} {sql : Text} {column : Lineage.Column} :
    column ∈ Lineage.columnsOfSql tables sql ↔ ∃ item, Selects tables sql item column := by
  unfold Lineage.columnsOfSql Lineage.columnsOfTokens
  constructor
  · intro member
    split at member
    · rename_i list found
      obtain ⟨item, inside, made⟩ := List.mem_filterMap.1 member
      exact ⟨item, list, found, inside, made⟩
    · cases member
  · rintro ⟨item, list, found, inside, made⟩
    rw [found]
    exact List.mem_filterMap.2 ⟨item, inside, made⟩

/-- What a column says of the item that it is made of. -/
theorem parts_of_ofItem? {tables : Lineage.Tables} {item : SelectItem} {column : Lineage.Column}
    (made : Lineage.Column.ofItem? tables item = some column) :
    item.name? = some column.name ∧ column.definition = item.text ∧
      column.transformed = (item.text != column.name) ∧
      (item.leadingText ≠ [] → column.sourceColumn = item.leadingText) := by
  obtain ⟨name, named, rfl⟩ := Option.map_eq_some_iff.1 made
  have trimmed : Text.trim item.text = item.text := Text.trim_trim _
  refine ⟨named, trimmed, congrArg (· != name) trimmed, ?_⟩
  intro holds
  have full : ¬ item.leadingText.isEmpty = true := fun empty => holds (List.isEmpty_iff.1 empty)
  exact if_neg full

/-- Every column of a text is made by an item of its select list. -/
theorem item_of_column {sql : Text} {column : Lineage.Column}
    (member : column ∈ (Lineage.QueryLineage.ofSql sql).columns) :
    ∃ list item, SelectList.ofTokens? (Statement.first sql) = some list ∧ item ∈ list.items ∧
      Lineage.Column.ofItem? (Lineage.Tables.ofSql sql) item = some column := by
  obtain ⟨item, list, found, inside, made⟩ := mem_columnsOfSql_iff.1 member
  exact ⟨list, item, found, inside, made⟩

end ColumnLineage.SelectedItems
