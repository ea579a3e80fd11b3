import ColumnLineage.Proofs.ImplicitAlias
import ColumnLineage.Proofs.ListPositions

/-! The items of a select list by positions. An alias is split off by the positions of the last two significant
tokens, the expression is the run up to one of them, and a reference is told by the places its tokens have in turn.
An item has a significant token at either end, so none of these positions lies outside it and something stands
before an alias; what is read so is what the item says. -/

namespace ColumnLineage.Positions
open ImplicitAlias (referredWord?_split splitAlias?_of_last)
open SelectedItems (Trimmed item_of_tokens plainWord)
open Sql
open SelectList (ofTokens?)

variable {tokens front gap : List Token} {previous last : Token} {item : SelectItem} {start : Nat}

/-! ## Reading an item -/

/-- The position where the expression of an item ends, and its alias. -/
def splitAlias (item : SelectItem) : Checked (Option (Nat × Word)) := do
  let positions := significantFrom 0 item.tokens
  let count := positions.length
  if count < 2 then return none
  else
    let final ← get positions (← less count 1)
    match ← get item.tokens final with
    | .word last =>
      let before ← get positions (← less count 2)
      let previous ← get item.tokens before
      if 3 ≤ count && previous.isAnyOf ["AS"] then return some (before, last)
      else if last.canBeAlias && previous.canPrecedeAlias then return some (final, last)
      else return none
    | _ => return none

/-- The tokens of the expression of an item. -/
def expression (item : SelectItem) : Checked (List Token) := do
  slice item.tokens 0 ((← splitAlias item).elim item.tokens.length (·.1))

/-- The text of the expression of an item. -/
def expressionText (item : SelectItem) : Checked Text := do
  return Text.trim (Token.renderAll (← expression item))

/-- Whether a token is a word. -/
def isWord : Token → Bool
  | .word _ => true
  | _ => false

/-- Whether a token fits its place in a reference, which has words and periods in turn. -/
def fitsReference (placed : Token × Nat) : Bool :=
  if placed.2 % 2 = 0 then isWord placed.1 else placed.1 = .symbol .period

/-- Whether tokens are a reference. -/
def isReference (tokens : List Token) : Bool :=
  tokens.length % 2 = 1 && tokens.zipIdx.all fitsReference

/-- What an item reads from. -/
def leadingText (item : SelectItem) : Checked Text := do
  let significant := Token.significant (← expression item)
  match significant with
  | first :: _ =>
    if 3 ≤ significant.length && isReference significant then return first.render else expressionText item
  | [] => expressionText item

/-- The column that an item refers to. -/
def referredName? (item : SelectItem) : Option Text :=
  if isReference item.significant then
    match item.significant.getLast? with
    | some (.word word) => some word.value
    | _ => none
  else none

/-! ## What is read -/

theorem slice_zero {list : List α} {stop : Nat} (within : stop ≤ list.length) :
    slice list 0 stop = .ok (list.take stop) :=
  if_pos ⟨Nat.zero_le stop, within⟩

/-- An item is one token, or it has two last significant tokens with separators between them. -/
theorem trimmed_cases (trimmed : Trimmed tokens) :
    (∃ last, tokens = [last] ∧ last.isSpacing = false) ∨
      ∃ front previous gap last, tokens = front ++ previous :: (gap ++ [last]) ∧ previous.isSpacing = false ∧
        (∀ token ∈ gap, token.isSpacing = true) ∧ last.isSpacing = false := by
  obtain ⟨first, more, begins, solidFirst⟩ := trimmed.begins
  obtain ⟨others, last, rfl, solidLast⟩ := trimmed.ends
  have parted : others.rdropWhile Token.isSpacing ++ others.rtakeWhile Token.isSpacing = others :=
    List.rdropWhile_append_rtakeWhile
  rcases List.eq_nil_or_concat (others.rdropWhile Token.isSpacing) with none | ⟨front, previous, kept⟩
  · left
    cases others with
    | nil => exact ⟨last, rfl, solidLast⟩
    | cons head others =>
      obtain ⟨rfl, -⟩ := List.cons.inj begins
      have spacing := List.rdropWhile_eq_nil_iff.1 none head List.mem_cons_self
      rw [solidFirst] at spacing
      cases spacing
  · right
    have some : others.rdropWhile Token.isSpacing ≠ [] := by simp [kept]
    have solid := List.rdropWhile_last_not Token.isSpacing others some
    simp only [kept, List.concat_eq_append, List.getLast_append_singleton] at solid
    refine ⟨front, previous, others.rtakeWhile Token.isSpacing, last, ?_, by simpa using solid, ?_, solidLast⟩
    · conv => lhs; rw [← parted, kept]
      simp
    · exact fun token member => List.mem_rtakeWhile_imp (p := Token.isSpacing) member

theorem significantFrom_pos_iff (start : Nat) (tokens : List Token) :
    0 < (significantFrom start tokens).length ↔ tokens.any (!·.isSpacing) = true := by
  induction tokens generalizing start with
  | nil => simp [significantFrom]
  | cons token tokens ih =>
    rw [significantFrom, List.any_cons]
    cases spacing : token.isSpacing with
    | true => simpa using ih (start + 1)
    | false => simp

/-- The positions in an item with two last significant tokens end with those of the two. -/
theorem significantFrom_last (solidPrevious : previous.isSpacing = false)
    (spacing : ∀ token ∈ gap, token.isSpacing = true) (solidLast : last.isSpacing = false) :
    significantFrom 0 (front ++ previous :: (gap ++ [last])) =
      significantFrom 0 front ++ [front.length, front.length + 1 + gap.length] := by
  rw [significantFrom_append, significantFrom_cons solidPrevious, significantFrom_append,
    significantFrom_of_spacing spacing, significantFrom_cons solidLast, Nat.zero_add]
  rfl

/-- What the last two significant tokens make of an alias, and of the position where the expression ends. -/
def aliasOf (front gap : List Token) (previous : Token) : Token → Option (Nat × Word)
  | .word word =>
    if previous.isAnyOf ["AS"] && front.any (!·.isSpacing) then some (front.length, word)
    else if word.canBeAlias && previous.canPrecedeAlias then some (front.length + 1 + gap.length, word)
    else none
  | _ => none

/-- An alias is split off by the positions of the last two significant tokens. -/
theorem splitAlias_of_last (solidPrevious : previous.isSpacing = false)
    (spacing : ∀ token ∈ gap, token.isSpacing = true) (solidLast : last.isSpacing = false) :
    splitAlias ⟨front ++ previous :: (gap ++ [last])⟩ = .ok (aliasOf front gap previous last) := by
  have positions : significantFrom 0 (front ++ previous :: (gap ++ [last])) = _ :=
    significantFrom_last solidPrevious spacing solidLast
  have third := significantFrom_pos_iff 0 front
  generalize significantFrom 0 front = before at positions third
  have count : (before ++ [front.length, front.length + 1 + gap.length]).length = before.length + 2 :=
    List.length_append
  have several : ¬ before.length + 2 < 2 := by omega
  have lessOne : less (before.length + 2) 1 = .ok (before.length + 1) := less_of_le (by omega)
  have lessTwo : less (before.length + 2) 2 = .ok before.length := less_of_le (by omega)
  have final : get (before ++ [front.length, front.length + 1 + gap.length]) (before.length + 1) =
      .ok (front.length + 1 + gap.length) := by
    have found := get_append (before ++ [front.length]) [] (front.length + 1 + gap.length)
    rwa [List.length_append, List.append_assoc] at found
  have atPrevious : get (before ++ [front.length, front.length + 1 + gap.length]) before.length =
      .ok front.length := get_append before _ _
  have lastToken : get (front ++ previous :: (gap ++ [last])) (front.length + 1 + gap.length) = .ok last := by
    have found := get_append (front ++ previous :: gap) [] last
    rwa [List.length_append, List.length_cons, Nat.add_comm gap.length 1, ← Nat.add_assoc, List.append_assoc,
      List.cons_append] at found
  have previousToken : get (front ++ previous :: (gap ++ [last])) front.length = .ok previous :=
    get_append front _ _
  have third : decide (3 ≤ before.length + 2) = front.any (!·.isSpacing) := by
    rw [Bool.eq_iff_iff, decide_eq_true_iff, ← third]
    omega
  simp only [splitAlias, positions, count, if_neg several, lessOne, lessTwo, bind, Except.bind, final, atPrevious,
    lastToken, previousToken, third]
  cases last with
  | word word =>
    rw [aliasOf, Bool.and_comm]
    dsimp only
    split
    · rfl
    · split <;> rfl
  | _ => rfl

/-- The position and the alias are those of the item. -/
theorem splitAlias?_of_aliasOf (whole : item.tokens = front ++ previous :: (gap ++ [last]))
    (solid : previous.isSpacing = false) (spacing : ∀ token ∈ gap, token.isSpacing = true) :
    item.splitAlias? =
      (aliasOf front gap previous last).map fun (stop, last) => (item.tokens.take stop, last) := by
  cases last with
  | word word =>
    have longer : front.length + 1 + gap.length = (front ++ previous :: gap).length := by
      simp [Nat.add_comm, Nat.add_left_comm]
    have parted : item.tokens = (front ++ previous :: gap) ++ [.word word] := by simp [whole]
    have explicit : item.tokens.take front.length = front := by rw [whole, List.take_left]
    have implicit : item.tokens.take (front.length + 1 + gap.length) = front ++ previous :: gap := by
      rw [longer, parted, List.take_left]
    rw [splitAlias?_of_last whole spacing solid, aliasOf]
    split
    · exact congrArg (fun tokens => some (tokens, word)) explicit.symm
    · split
      · exact congrArg (fun tokens => some (tokens, word)) implicit.symm
      · rfl
  | _ =>
    rw [SelectItem.splitAlias?, whole]
    simp [aliasOf]

/-- Something stands before an alias. -/
theorem aliasOf_inside {stop : Nat} {word : Word} (split : aliasOf front gap previous last = some (stop, word)) :
    0 < stop ∧ stop < (front ++ previous :: (gap ++ [last])).length := by
  have length : (front ++ previous :: (gap ++ [last])).length = front.length + 1 + gap.length + 1 := by
    simp; omega
  rw [length]
  unfold aliasOf at split
  split at split
  · split at split
    · rename_i named
      obtain ⟨rfl, -⟩ := Prod.mk.inj (Option.some.inj split)
      obtain ⟨-, holds⟩ := Bool.and_eq_true_iff.1 named
      have some := List.length_pos_iff.2 (show front ≠ [] by rintro rfl; cases holds)
      omega
    · split at split
      · obtain ⟨rfl, -⟩ := Prod.mk.inj (Option.some.inj split)
        omega
      · cases split
  · cases split

/-- An alias is split off without a breach, where the item says it, and something stands before it. -/
theorem splitAlias_eq (trimmed : Trimmed item.tokens) :
    ∃ split, splitAlias item = .ok split ∧
      item.splitAlias? = split.map (fun (stop, last) => (item.tokens.take stop, last)) ∧
      ∀ stop last, split = some (stop, last) → 0 < stop ∧ stop < item.tokens.length := by
  obtain ⟨tokens⟩ := item
  rcases trimmed_cases trimmed with
    ⟨last, rfl, solid⟩ | ⟨front, previous, gap, last, rfl, solid, spacing, solidLast⟩
  · refine ⟨none, ?_, ?_, nofun⟩
    · simp [splitAlias, significantFrom, solid]
      rfl
    · cases last <;> rfl
  · exact ⟨_, splitAlias_of_last solid spacing solidLast, splitAlias?_of_aliasOf rfl solid spacing,
      fun stop last split => aliasOf_inside split⟩

/-! ## Expressions and references -/

/-- The expression of an item is a run that lies within it. -/
theorem expression_eq (trimmed : Trimmed item.tokens) : expression item = .ok item.expression := by
  obtain ⟨split, read, same, inside⟩ := splitAlias_eq trimmed
  rw [expression, read, SelectItem.expression, same]
  cases split with
  | none =>
    have all := slice_zero (Nat.le_refl item.tokens.length)
    rw [List.take_length] at all
    exact all
  | some found =>
    obtain ⟨stop, last⟩ := found
    exact slice_zero (Nat.le_of_lt (inside stop last rfl).2)

theorem expressionText_eq (trimmed : Trimmed item.tokens) : expressionText item = .ok item.expressionText := by
  rw [expressionText, expression_eq trimmed]
  rfl

theorem exists_of_isWord {token : Token} (word : isWord token = true) : ∃ w, token = .word w := by
  cases token with
  | word w => exact ⟨w, rfl⟩
  | _ => cases word

/-- Tokens that fit their places from an even one on are a reference. -/
theorem all_fitsReference_iff (tokens : List Token) (start : Nat) (even : start % 2 = 0) :
    (tokens.length % 2 = 1 ∧ (tokens.zipIdx start).all fitsReference = true) ↔
      (Token.referredWord? tokens).isSome = true := by
  fun_induction Token.referredWord? tokens generalizing start with
  | case1 word => simp [fitsReference, even, isWord]
  | case2 word rest ih =>
    have odd : (start + 1) % 2 = 1 := by omega
    rw [← ih (start + 2) (by omega)]
    simp [fitsReference, even, odd, isWord, Nat.add_assoc]
  | case3 tokens single dotted =>
    constructor
    · rintro ⟨length, fits⟩
      cases tokens with
      | nil => cases length
      | cons first others =>
        cases others with
        | nil =>
          obtain ⟨word, rfl⟩ : ∃ w, first = .word w := exists_of_isWord (by simpa [fitsReference, even] using fits)
          exact absurd rfl (single word)
        | cons second rest =>
          have odd : (start + 1) % 2 = 1 := by omega
          simp only [List.zipIdx_cons, List.all_cons, fitsReference, even, odd, Bool.and_eq_true] at fits
          obtain ⟨word, rfl⟩ := exists_of_isWord fits.1
          obtain rfl : second = .symbol .period := by simpa using fits.2.1
          exact absurd rfl (dotted word rest)
    · intro none
      cases none

theorem isReference_eq (tokens : List Token) : isReference tokens = (Token.referredWord? tokens).isSome := by
  rw [Bool.eq_iff_iff, ← all_fitsReference_iff tokens 0 rfl, isReference, Bool.and_eq_true, decide_eq_true_iff]

/-- The column that an item refers to is the last word of a reference. -/
theorem referredName?_eq (item : SelectItem) : referredName? item = item.referredName? := by
  rw [referredName?, isReference_eq, SelectItem.referredName?]
  cases reference : Token.referredWord? item.significant with
  | none => rfl
  | some word =>
    have last : item.significant.getLast? = some (.word word) := by
      rcases referredWord?_split reference with single | ⟨front, dotted⟩
      · rw [single]
        rfl
      · rw [dotted]
        simp
    rw [last]
    rfl

/-- A reference of more than one token has three at least. -/
theorem three_le_of_reference {first second : Token} {rest : List Token}
    (reference : (Token.referredWord? (first :: second :: rest)).isSome = true) :
    3 ≤ (first :: second :: rest).length := by
  obtain ⟨odd, -⟩ := (all_fitsReference_iff _ 0 rfl).2 reference
  simp only [List.length_cons] at odd ⊢
  omega

/-- What an item reads from is its first word, of a reference, or its expression. -/
theorem leadingText_eq (trimmed : Trimmed item.tokens) : leadingText item = .ok item.leadingText := by
  simp only [leadingText, expression_eq trimmed, expressionText_eq trimmed, SelectItem.leadingText, isReference_eq,
    bind, Except.bind]
  cases Token.significant item.expression with
  | nil => rfl
  | cons first more =>
    cases more with
    | nil => rfl
    | cons second rest =>
      by_cases reference : (Token.referredWord? (first :: second :: rest)).isSome = true
      · simp only [decide_eq_true (three_le_of_reference reference), reference, Bool.and_self, if_true]
        rfl
      · simp only [reference, Bool.and_false, Bool.false_eq_true, if_false]

/-! ## Every list -/

/-- An item is read by positions without a breach, and what is read is what the item says. Something stands before
its alias. -/
structure ReadsByPositions (item : SelectItem) : Prop where
  split : ∃ split, splitAlias item = .ok split ∧
    item.splitAlias? = split.map (fun (stop, last) => (item.tokens.take stop, last)) ∧
    ∀ stop last, split = some (stop, last) → 0 < stop ∧ stop < item.tokens.length
  expression : expressionText item = .ok item.expressionText
  leading : leadingText item = .ok item.leadingText
  referred : referredName? item = item.referredName?

/-- The select list of any tokens can be read by positions, however their parentheses stand: no step lies outside
the tokens or goes below zero, and the list is the same. So can each of its items. -/
theorem positions_stay_within (tokens : List Token) :
    list? tokens = .ok (ofTokens? tokens) ∧
    ∀ list, ofTokens? tokens = some list → ∀ item ∈ list.items, ReadsByPositions item := by
  refine ⟨list?_eq tokens, ?_⟩
  intro list found item member
  obtain ⟨-, trimmed⟩ := item_of_tokens found member
  exact ⟨splitAlias_eq trimmed, expressionText_eq trimmed, leadingText_eq trimmed, referredName?_eq item⟩

private def dottedAlias : SelectItem :=
  ⟨[plainWord "a", .symbol .period, plainWord "b", .spacing .space, plainWord "AS", .spacing .space,
    plainWord "c"]⟩

/-- Tokens with a parenthesis too many before the list and one that is never closed in it. -/
private def unmatched : List Token :=
  [.symbol .closeParen, plainWord "SELECT", .spacing .space, plainWord "ALL", .spacing .tab] ++
    dottedAlias.tokens ++ [.symbol .comma, .spacing .space, .symbol .openParen, .symbol .comma]

/-- Such a list is read by positions, and so is its first item. -/
theorem unmatched_stays_within :
    ∃ list, list? unmatched = .ok (some list) ∧ dottedAlias ∈ list.items ∧
      expressionText dottedAlias = .ok "a.b".toList ∧ leadingText dottedAlias = .ok "a".toList := by
  have found : ofTokens? unmatched =
      some (.several dottedAlias ⟨[.symbol .openParen, .symbol .comma]⟩ []) := by
    decide +kernel
  obtain ⟨same, reads⟩ := positions_stay_within unmatched
  have read := reads _ found dottedAlias List.mem_cons_self
  exact ⟨_, found ▸ same, List.mem_cons_self, read.expression, read.leading⟩

end ColumnLineage.Positions
