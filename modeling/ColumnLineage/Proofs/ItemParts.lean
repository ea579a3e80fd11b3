import ColumnLineage.Proofs.ImplicitAlias
import ColumnLineage.Proofs.WordEnds

/-! The parts that are told of an item, and how its text is put together from them. An item with a name ends in
the word that names it. Its text is that of its expression, and after it, where there is an alias, white space
and the alias, with `AS` between them or without. What it reads from stands at the front of its expression. Only
the end of the last word can be lost: a word of a mark and one blank stands in the text without the blank. -/

namespace ColumnLineage.ItemParts
open ImplicitAlias (referredWord?_split)
open Lineage (Column Tables columnsOfSql)
open SelectedItems
open Sql
open WordEnds

/-- A word as it ends the text of an item: without blanks at its end. -/
def ending (word : Word) : Text :=
  Text.trimEnd word.render

/-- The text of an item that ends in a word, put together from the parts that are told of the item. -/
inductive Reassembled (item : SelectItem) (last : Word) : Prop where
  | unaliased (none : item.alias? = none) (same : item.expressionText = item.text)
      (ends : ending last <:+ item.text)
  | implicit (named : item.alias? = some last.value) (tokens : item.tokens = item.expression ++ [.word last])
      (white : Text) (blank : ∀ c ∈ white, isBlank c = true)
      (whole : item.text = item.expressionText ++ (white ++ ending last))
  | explicit (named : item.alias? = some last.value) (keyword : Word) (gap : List Token)
      (introduces : keyword.isAnyOf ["AS"] = true) (spacing : ∀ token ∈ gap, token.isSpacing = true)
      (tokens : item.tokens = item.expression ++ .word keyword :: (gap ++ [.word last]))
      (white : Text) (blank : ∀ c ∈ white, isBlank c = true)
      (whole : item.text =
        item.expressionText ++ (white ++ (keyword.render ++ (Token.renderAll gap ++ ending last))))

/-- An item whose parts fit together: it ends in the word that names it, its text is put together from its
parts, and what it reads from is some of the front of its expression. -/
structure Fits (item : SelectItem) (last : Word) : Prop where
  ends : item.significant.getLast? = some (.word last)
  named : item.name? = some last.value
  text : Reassembled item last
  nonempty : item.leadingText ≠ []
  leads : item.leadingText <+: item.expressionText
  kept : ending last = last.render ∨ EndsBlank last

variable {item : SelectItem} {tokens front : List Token} {last : Word} {name sql : Text}

/-! ## The text of tokens -/

/-- Every token that is no separator is written from a character that is not blank. -/
def Begins (tokens : List Token) : Prop :=
  ∀ token ∈ tokens, token.isSpacing = false → Text.BeginsSolid token.render

theorem trim_renderAll {first : Token} {more : List Token} (begins : Begins (first :: more))
    (solid : first.isSpacing = false) :
    Text.BeginsSolid (Token.renderAll (first :: more)) ∧
      Text.trim (Token.renderAll (first :: more)) = Text.trimEnd (Token.renderAll (first :: more)) := by
  have start : Text.BeginsSolid (Token.renderAll (first :: more)) :=
    (begins first (by simp) solid).append (Token.renderAll more)
  exact ⟨start, by rw [Text.trim, Text.trimStart_of_beginsSolid start]⟩

/-- Trimming the end of tokens stops within the last one that is no separator. -/
theorem trimEnd_renderAll {back : List Token} {token : Token} (begins : Begins back) (member : token ∈ back)
    (solid : token.isSpacing = false) (text : Text) :
    Text.trimEnd (text ++ Token.renderAll back) = text ++ Text.trimEnd (Token.renderAll back) := by
  obtain ⟨c, more, written, first⟩ := begins token member solid
  have inside : c ∈ Token.renderAll back := List.mem_flatMap.2 ⟨token, member, by simp [written]⟩
  exact Text.trimEnd_append_of_solid inside first text

/-- The text of an item is that of the tokens before its last word, and the word without blanks at its end. -/
theorem text_of_last (begins : Begins item.tokens) (trimmed : Trimmed item.tokens)
    (whole : item.tokens = front ++ [.word last]) : item.text = Token.renderAll front ++ ending last := by
  have atLast : Begins [.word last] :=
    fun token member => begins token (by simp [whole, List.mem_singleton.1 member])
  have trim : item.text = Text.trimEnd (Token.renderAll item.tokens) := by
    obtain ⟨first, more, start, solid⟩ := trimmed.begins
    rw [SelectItem.text, start]
    exact (trim_renderAll (start ▸ begins) solid).2
  have alone : Token.renderAll [.word last] = last.render := List.append_nil last.render
  rw [trim, whole, Token.renderAll_append, trimEnd_renderAll atLast (List.mem_singleton_self _) rfl, alone]
  rfl

/-! ## Expressions -/

/-- An expression begins with the first token of its item. -/
theorem exists_expression (begins : Begins item.tokens) (trimmed : Trimmed item.tokens) :
    ∃ first more, item.expression = first :: more ∧ first.isSpacing = false ∧ Begins (first :: more) := by
  obtain ⟨start, token, member, -⟩ := expression_isPrefix trimmed
  obtain ⟨first, rest, whole, solid⟩ := trimmed.begins
  cases expression : item.expression with
  | nil =>
    rw [expression] at member
    cases member
  | cons head more =>
    have inside : head :: more <+: item.tokens := expression ▸ start
    obtain ⟨rfl, -⟩ := List.cons_prefix_cons.1 (whole ▸ inside)
    exact ⟨head, more, rfl, solid, fun token member => begins token (inside.subset member)⟩

/-- The tokens of an expression are its text and white space after it. -/
theorem exists_white (begins : Begins item.tokens) (trimmed : Trimmed item.tokens) :
    ∃ white, Token.renderAll item.expression = item.expressionText ++ white ∧
      ∀ c ∈ white, isBlank c = true := by
  obtain ⟨first, more, expression, solid, start⟩ := exists_expression begins trimmed
  obtain ⟨white, split, blank⟩ := Text.exists_gap (Token.renderAll item.expression)
  refine ⟨white, ?_, blank⟩
  rw [SelectItem.expressionText, expression, (trim_renderAll start solid).2, ← expression]
  exact split

/-- What an item reads from is some text at the front of its expression. -/
theorem leadingText_isPrefix (begins : Begins item.tokens) (trimmed : Trimmed item.tokens) :
    item.leadingText ≠ [] ∧ item.leadingText <+: item.expressionText := by
  obtain ⟨first, more, expression, solid, start⟩ := exists_expression begins trimmed
  have text : item.expressionText = Text.trimEnd (Token.renderAll (first :: more)) := by
    rw [SelectItem.expressionText, expression, (trim_renderAll start solid).2]
  rcases leadingText_cases item with ⟨head, second, others, significant, leading⟩ | leading
  · rw [expression, Token.significant, List.filter_cons_of_pos (by simp [solid])] at significant
    obtain ⟨rfl, rest⟩ := List.cons.inj significant
    obtain ⟨member, solidSecond⟩ : second ∈ more ∧ (!second.isSpacing) = true :=
      List.mem_filter.1 (rest ▸ List.mem_cons_self)
    have startMore : Begins more := fun token inside => start token (List.mem_cons_of_mem _ inside)
    rw [leading]
    refine ⟨(start first List.mem_cons_self solid).ne_nil, ?_⟩
    rw [text, Token.renderAll_cons, trimEnd_renderAll startMore member (by simpa using solidSecond)]
    exact List.prefix_append _ _
  · rw [leading]
    refine ⟨?_, List.prefix_rfl⟩
    rw [text]
    exact (trim_renderAll start solid).1.trimEnd.ne_nil

/-! ## Names -/

/-- An item with a name ends in the word that names it: its alias, or the last word of a reference. -/
theorem last_of_name? (trimmed : Trimmed item.tokens) (named : item.name? = some name) :
    ∃ front last, item.tokens = front ++ [.word last] ∧ name = last.value ∧
      (item.splitAlias? = none ∨ ∃ expression, item.splitAlias? = some (expression, last)) := by
  unfold SelectItem.name? SelectItem.alias? at named
  cases split : item.splitAlias? with
  | some parts =>
    obtain ⟨expression, last⟩ := parts
    rw [split] at named
    obtain ⟨⟨between, whole⟩, -⟩ := splitAlias?_split split
    exact ⟨expression ++ between, last, whole, (Option.some.inj named).symm, .inr ⟨expression, rfl⟩⟩
  | none =>
    rw [split] at named
    obtain ⟨last, reference, rfl⟩ := Option.map_eq_some_iff.1 named
    have final : item.significant.getLast? = some (.word last) := by
      rcases referredWord?_split reference with single | ⟨front, dotted⟩
      · rw [single]
        rfl
      · rw [dotted]
        simp
    obtain ⟨front, token, whole, solid⟩ := trimmed.ends
    have ends : Token.significant [token] = [token] := by simp [Token.significant, solid]
    rw [SelectItem.significant, whole, significant_append, ends, List.getLast?_append] at final
    obtain rfl : token = .word last := Option.some.inj final
    exact ⟨front, last, whole, rfl, .inl rfl⟩

theorem reassembled_of_last (begins : Begins item.tokens) (trimmed : Trimmed item.tokens)
    (whole : item.tokens = front ++ [.word last])
    (split : item.splitAlias? = none ∨ ∃ expression, item.splitAlias? = some (expression, last)) :
    Reassembled item last := by
  rcases split with none | ⟨expression, split⟩
  · have all : item.expression = item.tokens := by rw [SelectItem.expression, none]
    refine .unaliased (by rw [SelectItem.alias?, none]; rfl) ?_ ?_
    · rw [SelectItem.expressionText, all, SelectItem.text]
    · rw [text_of_last begins trimmed whole]
      exact List.suffix_append _ _
  · have named : item.alias? = some last.value := by
      rw [SelectItem.alias?, split]
      rfl
    obtain rfl : item.expression = expression := by rw [SelectItem.expression, split]
    obtain ⟨white, text, blank⟩ := exists_white begins trimmed
    cases aliasParts_of_splitAlias? split with
    | explicit gap keyword _ introduces spacing whole =>
      have written : item.text =
          Token.renderAll (item.expression ++ .word keyword :: gap) ++ ending last :=
        text_of_last begins trimmed (by rw [whole]; simp)
      refine .explicit named keyword gap introduces spacing whole white blank ?_
      rw [written, Token.renderAll_append, Token.renderAll_cons, text]
      simp [Token.render]
    | implicit _ whole =>
      refine .implicit named whole white blank ?_
      rw [text_of_last begins trimmed whole, text, List.append_assoc]

/-- The parts of an item fit together, if its tokens are those of a text. -/
theorem exists_fits (begins : Begins item.tokens) (trimmed : Trimmed item.tokens)
    (words : ∀ word, .word word ∈ item.tokens → Text.EndsSolid word.render ∨ EndsBlank word)
    (named : item.name? = some name) : ∃ last, Fits item last := by
  obtain ⟨front, last, whole, rfl, split⟩ := last_of_name? trimmed named
  obtain ⟨nonempty, leads⟩ := leadingText_isPrefix begins trimmed
  have final : item.significant.getLast? = some (.word last) := by
    rw [SelectItem.significant, whole, significant_append]
    exact List.getLast?_concat
  refine ⟨last, final, named, reassembled_of_last begins trimmed whole split, nonempty, leads, ?_⟩
  rcases words last (by simp [whole]) with solid | blank
  · exact .inl (Text.trimEnd_of_endsSolid solid)
  · exact .inr blank

theorem Reassembled.starts (text : Reassembled item last) : item.expressionText <+: item.text := by
  cases text with
  | unaliased _ same => exact same ▸ List.prefix_rfl
  | implicit _ _ _ _ whole | explicit _ _ _ _ _ _ _ _ whole =>
    rw [whole]
    exact List.prefix_append _ _

theorem Reassembled.ends (text : Reassembled item last) : ending last <:+ item.text := by
  cases text with
  | unaliased _ _ ends => exact ends
  | implicit _ _ white _ whole =>
    rw [whole, ← List.append_assoc]
    exact List.suffix_append _ _
  | explicit _ keyword gap _ _ _ white _ whole =>
    rw [whole]
    simp only [← List.append_assoc]
    exact List.suffix_append _ _

theorem fits_of_tokens {list : SelectList} (run : tokens <:+: Statement.tokens sql)
    (found : SelectList.ofTokens? tokens = some list) (member : item ∈ list.items)
    (named : item.name? = some name) : ∃ last, Fits item last := by
  obtain ⟨inside, trimmed⟩ := item_of_tokens found member
  have inText : ∀ token ∈ item.tokens, token ∈ Statement.tokens sql :=
    fun token among => (inside.trans run).subset among
  exact exists_fits (fun token among solid => token_begins (inText token among) solid) trimmed
    (fun word among => word_ends (inText _ among)) named

/-- The parts of every named item of the tokens of a text fit together, and so do the parts of every column of
the text: its source column is what its item reads from, never the name in its place, and stands at the front
of its definition, which ends in the word that names it. -/
theorem parts_reassemble (sql : Text) :
    (∀ tokens list item name, tokens <:+: Statement.tokens sql → SelectList.ofTokens? tokens = some list →
      item ∈ list.items → item.name? = some name → ∃ last, Fits item last) ∧
    ∀ tables, ∀ column ∈ columnsOfSql tables sql, ∃ item last, Selects tables sql item column ∧ Fits item last ∧
      column.name = last.value ∧ column.sourceColumn = item.leadingText ∧ column.sourceColumn ≠ [] ∧
      column.sourceColumn <+: column.definition ∧ ending last <:+ column.definition := by
  refine ⟨fun tokens list item name run found member named => fits_of_tokens run found member named, ?_⟩
  intro tables column member
  obtain ⟨item, list, found, listed, made⟩ := mem_columnsOfSql_iff.1 member
  obtain ⟨named, definition, -, source⟩ := parts_of_ofItem? made
  have run : Statement.first sql <:+: Statement.tokens sql := (Statement.firstFrom_isPrefix 0 _).isInfix
  obtain ⟨last, fits⟩ := fits_of_tokens run found listed named
  have leading : column.sourceColumn = item.leadingText := source fits.nonempty
  refine ⟨item, last, ⟨list, found, listed, made⟩, fits, ?_, leading, ?_, ?_, ?_⟩
  · exact Option.some.inj (named.symm.trans fits.named)
  · rw [leading]
    exact fits.nonempty
  · rw [leading, definition]
    exact fits.leads.trans fits.text.starts
  · rw [definition]
    exact fits.text.ends

/-- A query of a reference with an alias, and a comment before the alias. -/
def commentedAlias : Text :=
  "SELECT o.total AS /* sum */ amount FROM orders o".toList

/-- Its item. -/
def amount : SelectItem :=
  ⟨[plainWord "o", .symbol .period, plainWord "total", .spacing .space, plainWord "AS", .spacing .space,
    .spacing (.blockComment " sum ".toList), .spacing .space, plainWord "amount"]⟩

/-- The parts of that item fit together, and so does its column. -/
theorem parts_reassemble_of_comment :
    SelectList.ofTokens? (Statement.first commentedAlias) = some (.single amount) ∧
      (∃ last, Fits amount last ∧ last.value = "amount".toList) ∧
      ∃ column ∈ columnsOfSql (Tables.ofSql commentedAlias) commentedAlias,
        column.sourceColumn = "o".toList ∧ column.sourceColumn <+: column.definition := by
  have found : SelectList.ofTokens? (Statement.first commentedAlias) = some (.single amount) := by
    decide +kernel
  have run : Statement.first commentedAlias <:+: Statement.tokens commentedAlias :=
    (Statement.firstFrom_isPrefix 0 _).isInfix
  have named : amount.name? = some "amount".toList := by decide
  obtain ⟨items, columns⟩ := parts_reassemble commentedAlias
  obtain ⟨last, fits⟩ := items _ _ amount _ run found List.mem_cons_self named
  refine ⟨found, ⟨last, fits, Option.some.inj (fits.named.symm.trans named)⟩, ?_⟩
  cases made : columnsOfSql (Tables.ofSql commentedAlias) commentedAlias with
  | nil => exact absurd made (by decide +kernel)
  | cons column others =>
    obtain ⟨item, last, ⟨list, found', listed, -⟩, -, -, source, -, leads, -⟩ :=
      columns (Tables.ofSql commentedAlias) column (by rw [made]; exact List.mem_cons_self)
    obtain rfl := Option.some.inj (found'.symm.trans found)
    obtain rfl := List.mem_singleton.1 listed
    exact ⟨column, List.mem_cons_self, source.trans (by decide), leads⟩

/-- A query with an alias of a mark and a blank. -/
def blankAlias : Text :=
  "SELECT x AS @\t FROM t".toList

/-- So the text of an item need not end in the word that names it, as that word is written. -/
theorem not_always_whole_word :
    ¬ ∀ (sql : Text) (list : SelectList) (item : SelectItem) (name : Text),
      SelectList.ofTokens? (Statement.first sql) = some list → item ∈ list.items → item.name? = some name →
        ∃ last : Word, item.significant.getLast? = some (.word last) ∧ last.render <:+ item.text := by
  intro always
  have found : SelectList.ofTokens? (Statement.first blankAlias) =
      some (.single ⟨[plainWord "x", .spacing .space, plainWord "AS", .spacing .space, plainWord "@\t"]⟩) := by
    decide +kernel
  obtain ⟨last, final, ends⟩ := always blankAlias _ _ "@\t".toList found List.mem_cons_self (by decide)
  obtain rfl : last = ⟨none, "@\t".toList⟩ := by
    simpa [plainWord, SelectItem.significant, Token.significant, Token.isSpacing] using final.symm
  exact absurd ends (by decide)

end ColumnLineage.ItemParts
