import ColumnLineage.Proofs.BracketedItems
import ColumnLineage.Proofs.KeywordSpelling

/-! A select list in its surroundings. Balanced tokens without a clause word outside parentheses are a whole
list, and its items are the same wherever it stands. Outside parentheses its `SELECT` is found behind any
balanced tokens, with or without selects of their own inside parentheses. Within parentheses it is found if no
`SELECT` stands before it and none outside. What follows has no part in the list, since it begins with a token
that ends one. -/

namespace ColumnLineage.ListContext
open BracketedItems (IsClause)
open KeywordSpelling (not_isAnyOf_of_apart)
open Parentheses
open SelectListParts
open SelectedItems (plainWord)
open Sql
open SelectList (afterQuantifiers afterSelect? itemsAtStart ofItems? ofTokens? segmentsFrom)
open StatementSequence (depthAfter)

/-- A whole select list: balanced tokens without a clause word outside parentheses. -/
structure WholeList (list : List Token) : Prop where
  balanced : Balanced list
  inside : ¬ StandsOutside 0 IsClause list

instance (list : List Token) : Decidable (WholeList list) :=
  decidable_of_iff (Balanced list ∧ ¬ StandsOutside 0 IsClause list)
    ⟨fun ⟨balanced, inside⟩ => ⟨balanced, inside⟩, fun whole => ⟨whole.balanced, whole.inside⟩⟩

/-- Tokens between parentheses, as many on either side. -/
def enclosed (count : Nat) (tokens : List Token) : List Token :=
  List.replicate count (.symbol .openParen) ++ (tokens ++ List.replicate count (.symbol .closeParen))

variable {kind : Token → Prop} {tokens list before after behind rest : List Token} {select token : Token}
  {count : Nat}

/-! ## The end of a list -/

theorem WholeList.not_endsList (whole : WholeList list) : ¬ StandsOutside 0 EndsList list := by
  rintro ⟨front, token, back, rfl, outside, close | clause⟩
  · exact whole.balanced.not_standsOutside_close 0 ⟨front, token, back, rfl, outside, close⟩
  · exact whole.inside ⟨front, token, back, rfl, outside, clause⟩

theorem apart_of_isSkipped (skipped : IsSkipped token) : Apart token :=
  skipped.elim apart_of_isSpacing apart_of_isAnyOf

/-- What ends a list is not skipped before one. -/
theorem not_isSkipped_of_endsList (ends : EndsList token) : ¬ IsSkipped token := by
  intro skipped
  rcases ends with close | clause
  · exact (apart_of_isSkipped skipped).2 close
  · cases token with
    | word word =>
      have other : word.isAnyOf quantifierWords = false := not_isAnyOf_of_apart (by decide) clause
      rcases skipped with spacing | quantifier
      · cases spacing
      · exact absurd quantifier (by simpa [Token.isAnyOf] using other)
    | _ => cases clause

/-- What is skipped before a list is skipped whatever follows, unless that is skipped as well. -/
theorem afterQuantifiers_append (list : List Token) (stays : ∀ token ∈ after.head?, ¬ IsSkipped token) :
    afterQuantifiers (list ++ after) = afterQuantifiers list ++ after := by
  obtain ⟨skipped, region, rfl, skips, begins⟩ := exists_skipped list
  have beginsAll : ∀ token ∈ (region ++ after).head?, ¬ IsSkipped token := by
    cases region with
    | nil => exact stays
    | cons first more => exact begins
  rw [List.append_assoc, afterQuantifiers_of_skipped skips beginsAll, afterQuantifiers_of_skipped skips begins]

theorem WholeList.region (whole : WholeList list) :
    ¬ StandsOutside 0 EndsList (afterQuantifiers list) ∧ depthAfter 0 (afterQuantifiers list) = 0 := by
  obtain ⟨skipped, region, rfl, skips, begins⟩ := exists_skipped list
  have level : depthAfter 0 skipped = 0 :=
    depthAfter_of_apart fun token member => apart_of_isSkipped (skips token member)
  rw [afterQuantifiers_of_skipped skips begins]
  constructor
  · intro stands
    apply whole.not_endsList
    rw [standsOutside_append, level]
    exact .inr stands
  · have closed := whole.balanced.depthAfter_eq 0
    rwa [depthAfter_append, level] at closed

/-- The items of a whole list are its own, whatever ends it. -/
theorem itemsAtStart_of_whole (whole : WholeList list) (ends : ∀ token ∈ after.head?, EndsList token) :
    itemsAtStart (list ++ after) =
      (segmentsFrom 0 (afterQuantifiers list)).filterMap SelectItem.ofSegment? := by
  obtain ⟨inside, closed⟩ := whole.region
  have stays : ∀ token ∈ after.head?, ¬ IsSkipped token :=
    fun token member => not_isSkipped_of_endsList (ends token member)
  rw [itemsAtStart, afterQuantifiers_append list stays,
    regionFrom_of_ends inside fun token member => ⟨ends token member, closed⟩]

/-- The items of a whole list are those of the list without what ends it. -/
theorem itemsAtStart_append (whole : WholeList list) (ends : ∀ token ∈ after.head?, EndsList token) :
    itemsAtStart (list ++ after) = itemsAtStart list := by
  have none : ∀ token ∈ ([] : List Token).head?, EndsList token := by simp
  have alone := itemsAtStart_of_whole whole none
  rw [List.append_nil] at alone
  rw [itemsAtStart_of_whole whole ends, alone]

/-! ## The `SELECT` of a list -/

theorem afterSelect?_of_outside (named : IsSelect select) (balanced : Balanced before)
    (first : ¬ StandsOutside 0 IsSelect before) : afterSelect? (before ++ select :: rest) = some rest := by
  rw [afterSelect?, afterOuterSelect?_of_first named (balanced.depthAfter_eq 0) first]
  rfl

theorem afterSelect?_of_inside (named : IsSelect select) (first : ∀ token ∈ before, ¬ IsSelect token)
    (nested : ¬ StandsOutside 0 IsSelect (before ++ select :: rest)) :
    afterSelect? (before ++ select :: rest) = some rest := by
  rw [afterSelect?, afterOuterSelect?_of_none nested, afterAnySelect?_of_first named first]
  rfl

theorem depthAfter_enclosed (balanced : Balanced tokens) : depthAfter 0 (enclosed count tokens) = 0 := by
  rw [enclosed, depthAfter_append, depthAfter_append, depthAfter_opens, balanced.depthAfter_eq,
    depthAfter_closes]
  omega

/-- Nothing but parentheses stands outside parentheses in enclosed tokens. -/
theorem not_standsOutside_enclosed (balanced : Balanced tokens) (some : 0 < count)
    (apart : ∀ token, kind token → Apart token) : ¬ StandsOutside 0 kind (enclosed count tokens) := by
  have opens (depth : Nat) : ¬ StandsOutside depth kind (List.replicate count (.symbol .openParen)) :=
    not_standsOutside_of_forall fun token member right =>
      (apart token right).1 (List.eq_of_mem_replicate member)
  have closes (depth : Nat) : ¬ StandsOutside depth kind (List.replicate count (.symbol .closeParen)) :=
    not_standsOutside_of_forall fun token member right =>
      (apart token right).2 (List.eq_of_mem_replicate member)
  rw [enclosed, standsOutside_append, standsOutside_append, depthAfter_opens, Nat.zero_add]
  rintro (stands | stands | stands)
  · exact opens 0 stands
  · exact balanced.not_standsOutside (Nat.ne_of_gt some) stands
  · exact closes _ stands

/-- In parentheses the first `SELECT` of all is taken, if none stands outside. -/
theorem afterSelect?_of_enclosed {inner : List Token} (named : IsSelect select) (deep : 0 < count)
    (balanced : Balanced before) (first : ∀ token ∈ before, ¬ IsSelect token)
    (balancedInner : Balanced (select :: inner)) (none : ¬ StandsOutside 0 IsSelect behind) :
    afterSelect? (before ++ (enclosed count (select :: inner) ++ behind)) =
      some (inner ++ (List.replicate count (.symbol .closeParen) ++ behind)) := by
  have nested : ¬ StandsOutside 0 IsSelect (before ++ (enclosed count (select :: inner) ++ behind)) := by
    rw [standsOutside_append, standsOutside_append, balanced.depthAfter_eq, depthAfter_enclosed balancedInner]
    rintro (stands | stands | stands)
    · exact not_standsOutside_of_forall first stands
    · exact not_standsOutside_enclosed balancedInner deep (fun _ => apart_of_isAnyOf) stands
    · exact none stands
  have opened : ∀ token ∈ before ++ List.replicate count (.symbol .openParen), ¬ IsSelect token := by
    refine List.forall_mem_append.2 ⟨first, ?_⟩
    intro token member named
    exact (apart_of_isAnyOf named).1 (List.eq_of_mem_replicate member)
  have parted : before ++ (enclosed count (select :: inner) ++ behind) =
      (before ++ List.replicate count (.symbol .openParen)) ++
        select :: (inner ++ (List.replicate count (.symbol .closeParen) ++ behind)) := by
    simp [enclosed]
  rw [parted] at nested ⊢
  exact afterSelect?_of_inside named opened nested

/-! ## The list in its surroundings -/

theorem ofTokens?_of_afterSelect? (whole : WholeList list) (ends : ∀ token ∈ after.head?, EndsList token)
    (found : afterSelect? tokens = some (list ++ after)) : ofTokens? tokens = ofItems? (itemsAtStart list) := by
  simp only [ofTokens?, found, itemsAtStart_append whole ends]

theorem ofTokens?_of_outside (named : IsSelect select) (whole : WholeList list) (balanced : Balanced before)
    (first : ¬ StandsOutside 0 IsSelect before) (ends : ∀ token ∈ after.head?, EndsList token) :
    ofTokens? (before ++ select :: (list ++ after)) = ofItems? (itemsAtStart list) :=
  ofTokens?_of_afterSelect? whole ends (afterSelect?_of_outside named balanced first)

theorem ofTokens?_alone (named : IsSelect select) (whole : WholeList list) :
    ofTokens? (select :: list) = ofItems? (itemsAtStart list) := by
  have none : ∀ token ∈ ([] : List Token).head?, EndsList token := by simp
  have front : Balanced [] := by decide
  have found : afterSelect? (select :: list) = some (list ++ []) := by
    rw [List.append_nil]
    exact afterSelect?_of_outside named front not_standsOutside_nil
  exact ofTokens?_of_afterSelect? whole none found

/-- A whole list is the same in all surroundings where its `SELECT` is the one that is taken: behind balanced
tokens with no `SELECT` outside parentheses and before a token that ends it, and likewise in any number of
parentheses, behind balanced tokens with no `SELECT` and before tokens with none outside parentheses. -/
theorem list_of_context (named : IsSelect select) (whole : WholeList list) :
    (∀ before after, Balanced before → ¬ StandsOutside 0 IsSelect before →
      (∀ token ∈ after.head?, EndsList token) →
        ofTokens? (before ++ select :: (list ++ after)) = ofTokens? (select :: list)) ∧
    ∀ count before after behind, 0 < count → Balanced before → (∀ token ∈ before, ¬ IsSelect token) →
      Balanced after → (∀ token ∈ after.head?, IsClause token) → ¬ StandsOutside 0 IsSelect behind →
        ofTokens? (before ++ (enclosed count (select :: (list ++ after)) ++ behind)) =
          ofTokens? (select :: list) := by
  rw [ofTokens?_alone named whole]
  constructor
  · intro before after balanced first ends
    exact ofTokens?_of_outside named whole balanced first ends
  · intro count before after behind deep balanced first balancedAfter clause none
    have balancedInner : Balanced (select :: (list ++ after)) :=
      (whole.balanced.append balancedAfter).cons (apart_of_isAnyOf named)
    have found := afterSelect?_of_enclosed named deep balanced first balancedInner none
    rw [List.append_assoc] at found
    apply ofTokens?_of_afterSelect? whole ?_ found
    intro token member
    cases after with
    | cons first more => exact .inr (clause token member)
    | nil =>
      obtain ⟨more, rfl⟩ := Nat.exists_eq_succ_of_ne_zero (Nat.ne_of_gt deep)
      obtain rfl := Option.some.inj member
      exact .inl rfl

/-- A call with an alias. -/
private def call : SelectItem :=
  ⟨[plainWord "f", .symbol .openParen, plainWord "a", .symbol .comma, plainWord "b", .symbol .closeParen,
    .spacing .space, plainWord "c"]⟩

/-- A list of the call alone, without repetitions. -/
private def distinct : List Token :=
  plainWord "DISTINCT" :: .spacing .space :: call.tokens

private def subquery : List Token :=
  plainWord "WITH" :: plainWord "x" :: plainWord "AS" :: enclosed 1 [plainWord "SELECT", plainWord "d"]

private def union : List Token :=
  [plainWord "UNION", plainWord "SELECT", plainWord "d"]

/-- Neither a subquery before it nor a union after it changes a list, and neither do two parentheses. -/
theorem list_of_context_of_subquery :
    IsSelect (plainWord "SELECT") ∧ WholeList distinct ∧
      ofTokens? (subquery ++ plainWord "SELECT" :: (distinct ++ union)) = some (.single call) ∧
      ofTokens? ([plainWord "CREATE"] ++ (enclosed 2 (plainWord "SELECT" :: (distinct ++ union)) ++
        [plainWord "AS", plainWord "y"])) = some (.single call) := by
  have named : IsSelect (plainWord "SELECT") := by decide
  have whole : WholeList distinct := by decide +kernel
  have alone : ofTokens? (plainWord "SELECT" :: distinct) = some (.single call) := by decide +kernel
  obtain ⟨outside, inside⟩ := list_of_context named whole
  refine ⟨named, whole, ?_, ?_⟩
  · rw [← alone]
    exact outside _ _ (by decide +kernel) (by decide +kernel) (by decide +kernel)
  · rw [← alone]
    exact inside 2 _ _ _ (by decide) (by decide +kernel) (by decide +kernel) (by decide +kernel)
      (by decide +kernel) (by decide +kernel)

end ColumnLineage.ListContext
