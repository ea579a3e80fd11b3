import ColumnLineage.Proofs.ItemParts
import ColumnLineage.Proofs.ListContext

/-! Select lists one after another. A comma between two whole lists is a comma of the joined list, so its items
are those of the first list and then those of the second, unless the second begins with a quantifier, which is
skipped only at the front. Each item makes its column on its own, so the columns of joined lists are those of the
lists, and a list without names adds none. -/

namespace ColumnLineage.ListConcatenation
open BracketedItems (IsClause)
open ItemParts (last_of_name?)
open Lineage (Column Tables columnsOfTokens)
open ListContext
open Parentheses
open SelectListParts
open SelectedItems (Trimmed item_of_ofSegment? plainWord segmentsFrom_isInfix significant_append)
open Sql
open SelectList (afterQuantifiers itemsAtStart ofItems? ofTokens? segmentsFrom)

/-- No quantifier begins a list, apart from separators before it. -/
def Unquantified (list : List Token) : Prop :=
  ∀ token ∈ (Token.significant list).head?, ¬ token.isAnyOf quantifierWords = true

instance (list : List Token) : Decidable (Unquantified list) :=
  inferInstanceAs
    (Decidable (∀ token ∈ (Token.significant list).head?, ¬ token.isAnyOf quantifierWords = true))

/-- Lists with commas between them. -/
def joined (lists : List (List Token)) : List Token :=
  [.symbol .comma].intercalate lists

variable {list front back after segment : List Token} {lists : List (List Token)} {select token : Token}
  {item : SelectItem} {tables : Tables}

/-! ## Joined lists -/

theorem not_isSkipped_comma : ¬ IsSkipped (.symbol .comma) := by
  rintro (spacing | quantifier)
  · cases spacing
  · cases quantifier

theorem wholeList_comma (first : WholeList front) (second : WholeList back) :
    WholeList (front ++ .symbol .comma :: back) where
  balanced := first.balanced.append (second.balanced.cons ⟨nofun, nofun⟩)
  inside := by
    rw [standsOutside_append, first.balanced.depthAfter_eq, standsOutside_cons]
    rintro (stands | ⟨-, clause⟩ | stands)
    · exact first.inside stands
    · cases clause
    · exact second.inside stands

theorem Unquantified.comma (plain : Unquantified front) (back : List Token) :
    Unquantified (front ++ .symbol .comma :: back) := by
  intro token member
  rw [significant_append] at member
  cases first : Token.significant front with
  | nil =>
    rw [first] at member
    obtain rfl := Option.some.inj member
    nofun
  | cons head more =>
    apply plain token
    rw [first] at member ⊢
    exact member

theorem joined_cons (front : List Token) (some : lists ≠ []) :
    joined (front :: lists) = front ++ .symbol .comma :: joined lists := by
  obtain ⟨second, others, rfl⟩ := List.exists_cons_of_ne_nil some
  simp [joined]

theorem joined_whole (wholes : ∀ list ∈ lists, WholeList list ∧ Unquantified list) (some : lists ≠ []) :
    WholeList (joined lists) ∧ Unquantified (joined lists) := by
  induction lists with
  | nil => exact absurd rfl some
  | cons front lists ih =>
    obtain ⟨first, others⟩ := List.forall_mem_cons.1 wholes
    by_cases last : lists = []
    · subst last
      simpa [joined] using first
    · obtain ⟨whole, -⟩ := ih others last
      rw [joined_cons front last]
      exact ⟨wholeList_comma first.1 whole, first.2.comma _⟩

/-! ## Items -/

theorem ofSegment?_cons (spacing : token.isSpacing = true) (segment : List Token) :
    SelectItem.ofSegment? (token :: segment) = SelectItem.ofSegment? segment := by
  rw [SelectItem.ofSegment?, SelectItem.ofSegment?, Token.trimSpacing, Token.trimSpacing,
    List.dropWhile_cons_of_pos spacing]

/-- A separator before a list belongs to no item. -/
theorem items_cons (spacing : token.isSpacing = true) (list : List Token) :
    (segmentsFrom 0 (token :: list)).filterMap SelectItem.ofSegment? =
      (segmentsFrom 0 list).filterMap SelectItem.ofSegment? := by
  have apart := apart_of_isSpacing spacing
  have stays : ¬ (0 = 0 ∧ token = .symbol .comma) := by
    rintro ⟨-, rfl⟩
    cases spacing
  obtain ⟨segment, others, parted, -⟩ := segmentsFrom_isInfix 0 list
  rw [segmentsFrom, if_neg stays, apart.depthAfter_eq, parted]
  simp only [List.filterMap_cons, ofSegment?_cons spacing]

/-- Nothing of a list without a quantifier is skipped that an item holds. -/
theorem items_of_unquantified (plain : Unquantified list) :
    (segmentsFrom 0 (afterQuantifiers list)).filterMap SelectItem.ofSegment? =
      (segmentsFrom 0 list).filterMap SelectItem.ofSegment? := by
  induction list with
  | nil => rfl
  | cons token list ih =>
    cases spacing : token.isSpacing with
    | true =>
      have rest : Token.significant (token :: list) = Token.significant list :=
        List.filter_cons_of_neg (by simp [spacing])
      rw [Unquantified, rest] at plain
      rw [items_cons spacing, ← ih plain, afterQuantifiers, List.dropWhile_cons_of_pos (by simp [spacing])]
      rfl
    | false =>
      have first : Token.significant (token :: list) = token :: Token.significant list :=
        List.filter_cons_of_pos (by simp [spacing])
      have other := plain token (by rw [first]; rfl)
      rw [afterQuantifiers, List.dropWhile_cons_of_neg (by simp [spacing, other])]

/-- The items of two joined lists are those of the first and then those of the second. -/
theorem itemsAtStart_comma (first : WholeList front) (second : WholeList back) (plain : Unquantified back)
    (ends : ∀ token ∈ after.head?, EndsList token) :
    itemsAtStart (front ++ .symbol .comma :: (back ++ after)) =
      itemsAtStart (front ++ after) ++ itemsAtStart (back ++ after) := by
  have stays : ∀ token ∈ (.symbol .comma :: back : List Token).head?, ¬ IsSkipped token := by
    rintro token ⟨⟩
    exact not_isSkipped_comma
  have whole := itemsAtStart_of_whole (wholeList_comma first second) ends
  rw [List.append_assoc, List.cons_append] at whole
  rw [whole, itemsAtStart_of_whole first ends, itemsAtStart_of_whole second ends, items_of_unquantified plain,
    afterQuantifiers_append front stays, segmentsFrom_append first.region.2, List.filterMap_append]

/-! ## Columns -/

theorem columnsOfTokens_of_select (tables : Tables) (named : IsSelect select) (list : List Token) :
    columnsOfTokens tables (select :: list) = (itemsAtStart list).filterMap (Column.ofItem? tables) := by
  have front : Balanced [] := by decide
  have found : SelectList.afterSelect? (select :: list) = some list :=
    afterSelect?_of_outside named front not_standsOutside_nil
  simp only [columnsOfTokens, ofTokens?, found]
  cases itemsAtStart list with
  | nil => rfl
  | cons first others => cases others <;> rfl

/-- An item for all columns has no name. -/
theorem name?_of_isWildcard (trimmed : Trimmed item.tokens) (wildcard : item.isWildcard = true) :
    item.name? = none := by
  cases named : item.name? with
  | none => rfl
  | some name =>
    obtain ⟨front, last, whole, -⟩ := last_of_name? trimmed named
    have final : item.significant.getLast? = some (.word last) := by
      rw [SelectItem.significant, whole, significant_append]
      simp [Token.significant, Token.isSpacing]
    rw [SelectItem.isWildcard, final] at wildcard
    cases wildcard

theorem trimmed_of_mem_itemsAtStart (member : item ∈ itemsAtStart list) : Trimmed item.tokens := by
  obtain ⟨segment, -, held⟩ := List.mem_filterMap.1 member
  exact (item_of_ofSegment? held).2

theorem columns_comma (tables : Tables) (named : IsSelect select) (first : WholeList front)
    (second : WholeList back) (plain : Unquantified back) (ends : ∀ token ∈ after.head?, EndsList token) :
    columnsOfTokens tables (select :: (front ++ .symbol .comma :: (back ++ after))) =
      columnsOfTokens tables (select :: (front ++ after)) ++
        columnsOfTokens tables (select :: (back ++ after)) := by
  simp only [columnsOfTokens_of_select tables named, itemsAtStart_comma first second plain ends,
    List.filterMap_append]

theorem columns_joined (tables : Tables) (named : IsSelect select) (first : WholeList front)
    (others : ∀ list ∈ lists, WholeList list ∧ Unquantified list)
    (ends : ∀ token ∈ after.head?, EndsList token) :
    columnsOfTokens tables (select :: (joined (front :: lists) ++ after)) =
      (front :: lists).flatMap fun list => columnsOfTokens tables (select :: (list ++ after)) := by
  induction lists generalizing front with
  | nil => simp [joined]
  | cons second lists ih =>
    obtain ⟨whole, plain⟩ := joined_whole others (List.cons_ne_nil _ _)
    obtain ⟨next, more⟩ := List.forall_mem_cons.1 others
    rw [joined_cons front (List.cons_ne_nil _ _), List.append_assoc, List.cons_append,
      columns_comma tables named first whole plain ends, ih next.1 more]
    rfl

theorem columns_of_nameless (tables : Tables) (named : IsSelect select) (whole : WholeList list)
    (ends : ∀ token ∈ after.head?, EndsList token)
    (nameless : ∀ item ∈ itemsAtStart list, item.name? = none ∨ item.isWildcard = true) :
    columnsOfTokens tables (select :: (list ++ after)) = [] := by
  rw [columnsOfTokens_of_select tables named, itemsAtStart_append whole ends, List.filterMap_eq_nil_iff]
  intro item member
  have unnamed : item.name? = none := by
    rcases nameless item member with unnamed | wildcard
    · exact unnamed
    · exact name?_of_isWildcard (trimmed_of_mem_itemsAtStart member) wildcard
  rw [Column.ofItem?, unnamed, Option.map_none]

/-- The columns of joined lists, among any tables and before any clause. Those of two lists are the columns of
the first and then those of the second; those of more are the columns of each, in their order, so that no list
has a part in the columns of another; and a list of items without names and of wildcards has none. -/
theorem columns_of_joined (tables : Tables) (named : IsSelect select)
    (clause : ∀ token ∈ after.head?, IsClause token) :
    (∀ front back, WholeList front → WholeList back → Unquantified back →
      columnsOfTokens tables (select :: (front ++ .symbol .comma :: (back ++ after))) =
        columnsOfTokens tables (select :: (front ++ after)) ++
          columnsOfTokens tables (select :: (back ++ after))) ∧
    (∀ front lists, WholeList front → (∀ list ∈ lists, WholeList list ∧ Unquantified list) →
      columnsOfTokens tables (select :: (joined (front :: lists) ++ after)) =
        (front :: lists).flatMap fun list => columnsOfTokens tables (select :: (list ++ after))) ∧
    ∀ list, WholeList list → (∀ item ∈ itemsAtStart list, item.name? = none ∨ item.isWildcard = true) →
      columnsOfTokens tables (select :: (list ++ after)) = [] := by
  have ends : ∀ token ∈ after.head?, EndsList token := fun token member => .inr (clause token member)
  refine ⟨?_, ?_, ?_⟩
  · intro front back first second plain
    exact columns_comma tables named first second plain ends
  · intro front lists first others
    exact columns_joined tables named first others ends
  · intro list whole nameless
    exact columns_of_nameless tables named whole ends nameless

/-- A call with an alias, without repetitions. -/
private def distinctCall : List Token :=
  [plainWord "DISTINCT", plainWord "f", .symbol .openParen, plainWord "a", .symbol .comma, plainWord "b",
    .symbol .closeParen, .spacing .space, plainWord "c"]

/-- All columns of a table. -/
private def everything : List Token :=
  [plainWord "u", .symbol .period, .symbol .star]

private def single : List Token :=
  [.spacing .space, plainWord "d"]

private def source : List Token :=
  [plainWord "FROM", .spacing .space, plainWord "t"]

private def table : Tables :=
  ⟨['t'], [['t']]⟩

/-- Between two other lists a wildcard leaves no trace. -/
theorem columns_of_joined_wildcard :
    WholeList distinctCall ∧ (∀ list ∈ [everything, single], WholeList list ∧ Unquantified list) ∧
      columnsOfTokens table (plainWord "SELECT" :: (joined [distinctCall, everything, single] ++ source)) =
        columnsOfTokens table (plainWord "SELECT" :: (distinctCall ++ source)) ++
          columnsOfTokens table (plainWord "SELECT" :: (single ++ source)) ∧
      (columnsOfTokens table
        (plainWord "SELECT" :: (distinctCall ++ .symbol .comma :: (single ++ source)))).map Column.name =
          [['c'], ['d']] := by
  have first : WholeList distinctCall := by decide +kernel
  have others : ∀ list ∈ [everything, single], WholeList list ∧ Unquantified list := by decide +kernel
  obtain ⟨wild, plain⟩ := List.forall_mem_cons.1 others
  obtain ⟨last, -⟩ := List.forall_mem_cons.1 plain
  have named : IsSelect (plainWord "SELECT") := by decide
  have clause : ∀ token ∈ source.head?, IsClause token := by decide +kernel
  obtain ⟨two, more, nameless⟩ := columns_of_joined table named clause
  refine ⟨first, others, ?_, ?_⟩
  · have none := nameless everything wild.1 (by decide +kernel)
    rw [more _ _ first others]
    simp [none]
  · rw [two _ _ first last.1 last.2]
    decide +kernel

end ColumnLineage.ListConcatenation
