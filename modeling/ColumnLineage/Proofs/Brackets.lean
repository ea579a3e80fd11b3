import ColumnLineage.Proofs.Parentheses

/-! Three kinds of brackets: parentheses, square brackets and braces. Tokens are well bracketed if groups of all
three kinds nest in them. A stack of open brackets, innermost first, tells the same from left to right, and the
parentheses on it are the depth of a token. So a token outside parentheses stands in the open, where the stack
is empty, or it is enclosed by square brackets or braces alone. -/

namespace ColumnLineage.Brackets
open Parentheses
open Sql
open StatementSequence (depthAfter)

/-- The kinds of brackets. -/
inductive Bracket where
  | paren
  | square
  | brace
  deriving DecidableEq

namespace Bracket

/-- What opens a group. -/
def opening : Bracket → Token
  | paren => .symbol .openParen
  | square => .symbol .openBracket
  | brace => .symbol .openBrace

/-- What closes a group. -/
def closing : Bracket → Token
  | paren => .symbol .closeParen
  | square => .symbol .closeBracket
  | brace => .symbol .closeBrace

end Bracket

/-- A token that is no bracket. -/
def Plain (token : Token) : Prop :=
  ∀ bracket : Bracket, token ≠ bracket.opening ∧ token ≠ bracket.closing

/-- Tokens in which groups nest: every bracket is matched by one of its own kind. -/
inductive WellBracketed : List Token → Prop where
  | nil : WellBracketed []
  | plain {token : Token} {tokens : List Token} (plain : Plain token) (more : WellBracketed tokens) :
      WellBracketed (token :: tokens)
  | group {within tokens : List Token} (bracket : Bracket) (inner : WellBracketed within)
      (more : WellBracketed tokens) :
      WellBracketed (bracket.opening :: (within ++ bracket.closing :: tokens))

variable {bracket : Bracket} {stack next final : List Bracket} {place : List Bracket → Prop}
  {kind : Token → Prop} {tokens front back : List Token} {token : Token}

/-! ## Open brackets -/

/-- The stack after a bracket is closed, which must be the innermost one. -/
def close? (bracket : Bracket) : List Bracket → Option (List Bracket)
  | [] => none
  | top :: stack => if top = bracket then some stack else none

/-- The stack after a token. -/
def stackAfter? (stack : List Bracket) : Token → Option (List Bracket)
  | .symbol .openParen => some (.paren :: stack)
  | .symbol .openBracket => some (.square :: stack)
  | .symbol .openBrace => some (.brace :: stack)
  | .symbol .closeParen => close? .paren stack
  | .symbol .closeBracket => close? .square stack
  | .symbol .closeBrace => close? .brace stack
  | _ => some stack

/-- The brackets that are open after some tokens, if no bracket is closed that is not the innermost. -/
def openAfter? (stack : List Bracket) (tokens : List Token) : Option (List Bracket) :=
  tokens.foldlM stackAfter? stack

@[simp] theorem openAfter?_nil (stack : List Bracket) : openAfter? stack [] = some stack := rfl

theorem openAfter?_cons (stack : List Bracket) (token : Token) (tokens : List Token) :
    openAfter? stack (token :: tokens) = (stackAfter? stack token).bind (openAfter? · tokens) := rfl

theorem openAfter?_append (stack : List Bracket) (front back : List Token) :
    openAfter? stack (front ++ back) = (openAfter? stack front).bind (openAfter? · back) :=
  List.foldlM_append

@[simp] theorem stackAfter?_opening (stack : List Bracket) (bracket : Bracket) :
    stackAfter? stack bracket.opening = some (bracket :: stack) := by
  cases bracket <;> rfl

@[simp] theorem stackAfter?_closing (stack : List Bracket) (bracket : Bracket) :
    stackAfter? stack bracket.closing = close? bracket stack := by
  cases bracket <;> rfl

theorem close?_eq_some_iff : close? bracket stack = some next ↔ stack = bracket :: next := by
  cases stack with
  | nil => simp [close?]
  | cons top stack =>
    rw [close?, Option.ite_none_right_eq_some, Option.some_inj, List.cons.injEq]

theorem stackAfter?_plain (plain : Plain token) (stack : List Bracket) :
    stackAfter? stack token = some stack := by
  unfold stackAfter?
  split
  · exact absurd rfl (plain .paren).1
  · exact absurd rfl (plain .square).1
  · exact absurd rfl (plain .brace).1
  · exact absurd rfl (plain .paren).2
  · exact absurd rfl (plain .square).2
  · exact absurd rfl (plain .brace).2
  · rfl

theorem token_cases (token : Token) :
    Plain token ∨ (∃ bracket : Bracket, token = bracket.opening) ∨
      ∃ bracket : Bracket, token = bracket.closing := by
  by_cases opens : ∃ bracket : Bracket, token = bracket.opening
  · exact .inr (.inl opens)
  by_cases closes : ∃ bracket : Bracket, token = bracket.closing
  · exact .inr (.inr closes)
  exact .inl fun bracket => ⟨fun same => opens ⟨bracket, same⟩, fun same => closes ⟨bracket, same⟩⟩

/-! ## The stack tells what is well bracketed -/

theorem WellBracketed.append (first : WellBracketed front) (second : WellBracketed back) :
    WellBracketed (front ++ back) := by
  induction first with
  | nil => exact second
  | plain plain _ ih => exact .plain plain ih
  | group bracket inner _ _ ih =>
    rw [List.cons_append, List.append_assoc, List.cons_append]
    exact .group bracket inner ih

/-- Well bracketed tokens leave the stack as it was. -/
theorem WellBracketed.openAfter?_eq (nested : WellBracketed tokens) (stack : List Bracket) :
    openAfter? stack tokens = some stack := by
  induction nested generalizing stack with
  | nil => rfl
  | plain plain _ ih => rw [openAfter?_cons, stackAfter?_plain plain, Option.bind_some, ih]
  | group bracket _ _ inner more =>
    rw [openAfter?_cons, stackAfter?_opening, Option.bind_some, openAfter?_append, inner, Option.bind_some,
      openAfter?_cons, stackAfter?_closing, close?_eq_some_iff.2 rfl, Option.bind_some, more]

/-- Tokens that close the brackets of a stack, with well bracketed tokens before, between and after. -/
def Closes : List Bracket → List Token → Prop
  | [], tokens => WellBracketed tokens
  | bracket :: stack, tokens =>
    ∃ within rest, tokens = within ++ bracket.closing :: rest ∧ WellBracketed within ∧ Closes stack rest

theorem Closes.append (nested : WellBracketed front) (closes : Closes stack tokens) :
    Closes stack (front ++ tokens) := by
  cases stack with
  | nil => exact nested.append closes
  | cons bracket stack =>
    obtain ⟨within, rest, rfl, inner, more⟩ := closes
    exact ⟨front ++ within, rest, (List.append_assoc ..).symm, nested.append inner, more⟩

/-- Tokens after which no bracket of the stack is open close all of them. -/
theorem closes_of_openAfter? (emptied : openAfter? stack tokens = some []) : Closes stack tokens := by
  induction tokens generalizing stack with
  | nil =>
    obtain rfl := Option.some.inj emptied
    exact .nil
  | cons token tokens ih =>
    rw [openAfter?_cons] at emptied
    obtain ⟨next, step, rest⟩ := Option.bind_eq_some_iff.1 emptied
    have closes := ih rest
    -- an opening bracket makes a group with what closes it later, a closing one takes the top of the stack
    rcases token_cases token with plain | ⟨bracket, rfl⟩ | ⟨bracket, rfl⟩
    · rw [stackAfter?_plain plain] at step
      obtain rfl := Option.some.inj step
      exact Closes.append (.plain plain .nil) closes
    · rw [stackAfter?_opening] at step
      obtain rfl := Option.some.inj step
      obtain ⟨within, after, rfl, inner, more⟩ := closes
      have group : WellBracketed (bracket.opening :: (within ++ [bracket.closing])) := .group bracket inner .nil
      simpa using Closes.append group more
    · rw [stackAfter?_closing] at step
      obtain rfl := close?_eq_some_iff.1 step
      exact ⟨[], tokens, rfl, .nil, closes⟩

theorem wellBracketed_iff : WellBracketed tokens ↔ openAfter? [] tokens = some [] :=
  ⟨fun nested => nested.openAfter?_eq [], closes_of_openAfter?⟩

instance (tokens : List Token) : Decidable (WellBracketed tokens) :=
  decidable_of_iff _ wellBracketed_iff.symm

/-- Well bracketed tokens at the front of others make no difference to those. -/
theorem WellBracketed.append_iff (first : WellBracketed front) :
    WellBracketed (front ++ back) ↔ WellBracketed back := by
  rw [wellBracketed_iff, openAfter?_append, first.openAfter?_eq, Option.bind_some, wellBracketed_iff]

theorem wellBracketed_of_spacing (spacing : ∀ token ∈ tokens, token.isSpacing = true) :
    WellBracketed tokens := by
  induction tokens with
  | nil => exact .nil
  | cons token tokens ih =>
    obtain ⟨head, rest⟩ := List.forall_mem_cons.1 spacing
    refine .plain ?_ (ih rest)
    intro bracket
    cases bracket <;> constructor <;> rintro rfl <;> cases head

/-! ## Depth and stack -/

theorem depthAfter_stackAfter? (step : stackAfter? stack token = some next) :
    token.depthAfter (stack.count .paren) = next.count .paren := by
  rcases token_cases token with plain | ⟨bracket, rfl⟩ | ⟨bracket, rfl⟩
  · rw [stackAfter?_plain plain] at step
    obtain rfl := Option.some.inj step
    unfold Token.depthAfter
    split
    · exact absurd rfl (plain .paren).1
    · exact absurd rfl (plain .paren).2
    · rfl
  · rw [stackAfter?_opening] at step
    obtain rfl := Option.some.inj step
    cases bracket <;> simp [Bracket.opening, Token.depthAfter]
  · rw [stackAfter?_closing] at step
    obtain rfl := close?_eq_some_iff.1 step
    cases bracket <;> simp [Bracket.closing, Token.depthAfter]

/-- The depth of a token is the number of parentheses on the stack. -/
theorem depthAfter_openAfter? (reached : openAfter? stack tokens = some final) :
    depthAfter (stack.count .paren) tokens = final.count .paren := by
  induction tokens generalizing stack with
  | nil =>
    obtain rfl := Option.some.inj reached
    rfl
  | cons token tokens ih =>
    rw [openAfter?_cons] at reached
    obtain ⟨next, step, rest⟩ := Option.bind_eq_some_iff.1 reached
    rw [depthAfter_cons, depthAfter_stackAfter? step, ih rest]

/-- Well bracketed tokens leave the depth of parentheses at zero. -/
theorem WellBracketed.depthAfter_eq (nested : WellBracketed tokens) : depthAfter 0 tokens = 0 :=
  depthAfter_openAfter? (nested.openAfter?_eq [])

/-! ## Places of tokens -/

/-- A token of some kind stands where the open brackets are as told, in tokens that start with a stack. -/
def Stands (stack : List Bracket) (place : List Bracket → Prop) (kind : Token → Prop) (tokens : List Token) :
    Prop :=
  ∃ front token back reached, tokens = front ++ token :: back ∧ openAfter? stack front = some reached ∧
    place reached ∧ kind token

/-- A token of some kind stands outside all brackets. -/
abbrev StandsOpen (kind : Token → Prop) (tokens : List Token) : Prop :=
  Stands [] (· = []) kind tokens

/-- A token of some kind stands in square brackets or braces and outside all parentheses. -/
abbrev StandsEnclosed (kind : Token → Prop) (tokens : List Token) : Prop :=
  Stands [] (fun stack => stack ≠ [] ∧ .paren ∉ stack) kind tokens

theorem not_stands_nil : ¬ Stands stack place kind [] := by
  rintro ⟨front, token, back, reached, whole, -⟩
  simp at whole

theorem stands_cons :
    Stands stack place kind (token :: tokens) ↔
      place stack ∧ kind token ∨
        ∃ next, stackAfter? stack token = some next ∧ Stands next place kind tokens := by
  constructor
  · rintro ⟨_ | ⟨first, front⟩, found, back, reached, whole, opens, here, right⟩
    · obtain ⟨rfl, rfl⟩ := List.cons.inj whole
      obtain rfl := Option.some.inj opens
      exact .inl ⟨here, right⟩
    · obtain ⟨rfl, rfl⟩ := List.cons.inj whole
      rw [openAfter?_cons] at opens
      obtain ⟨next, step, rest⟩ := Option.bind_eq_some_iff.1 opens
      exact .inr ⟨next, step, front, found, back, reached, rfl, rest, here, right⟩
  · rintro (⟨here, right⟩ | ⟨next, step, front, found, back, reached, rfl, rest, here, right⟩)
    · exact ⟨[], token, tokens, stack, rfl, rfl, here, right⟩
    · refine ⟨token :: front, found, back, reached, rfl, ?_, here, right⟩
      rw [openAfter?_cons, step, Option.bind_some, rest]

instance decidableStands [DecidablePred place] [DecidablePred kind] : (stack : List Bracket) →
    (tokens : List Token) → Decidable (Stands stack place kind tokens)
  | _, [] => isFalse not_stands_nil
  | stack, token :: tokens =>
    match step : stackAfter? stack token with
    | none => decidable_of_iff (place stack ∧ kind token) (by simp [stands_cons, step])
    | some next =>
      have := decidableStands next tokens
      decidable_of_iff (place stack ∧ kind token ∨ Stands next place kind tokens) (by simp [stands_cons, step])

/-- What is before a place outside parentheses is well bracketed, or it leaves other brackets open. -/
theorem WellBracketed.front_cases (nested : WellBracketed (front ++ back)) (outside : depthAfter 0 front = 0) :
    WellBracketed front ∨
      ∃ reached, openAfter? [] front = some reached ∧ reached ≠ [] ∧ .paren ∉ reached := by
  have whole := nested.openAfter?_eq []
  rw [openAfter?_append] at whole
  obtain ⟨reached, opens, -⟩ := Option.bind_eq_some_iff.1 whole
  by_cases empty : reached = []
  · exact .inl (wellBracketed_iff.2 (empty ▸ opens))
  · have none : reached.count .paren = 0 := (depthAfter_openAfter? opens).symm.trans outside
    exact .inr ⟨reached, opens, empty, List.count_eq_zero.1 none⟩

/-- A token outside parentheses stands in the open or is enclosed by other brackets. -/
theorem standsOutside_iff (nested : WellBracketed tokens) :
    StandsOutside 0 kind tokens ↔ StandsOpen kind tokens ∨ StandsEnclosed kind tokens := by
  constructor
  · rintro ⟨front, token, back, rfl, outside, right⟩
    rcases nested.front_cases outside with before | ⟨reached, opens, here⟩
    · exact .inl ⟨front, token, back, [], rfl, before.openAfter?_eq [], rfl, right⟩
    · exact .inr ⟨front, token, back, reached, rfl, opens, here, right⟩
  · rintro (⟨front, token, back, reached, rfl, opens, rfl, right⟩ |
      ⟨front, token, back, reached, rfl, opens, ⟨-, apart⟩, right⟩)
    · exact ⟨front, token, back, rfl, depthAfter_openAfter? opens, right⟩
    · exact ⟨front, token, back, rfl, (depthAfter_openAfter? opens).trans (List.count_eq_zero.2 apart), right⟩

/-- No closing parenthesis of well bracketed tokens stands outside parentheses. -/
theorem WellBracketed.not_standsOutside_close (nested : WellBracketed tokens) :
    ¬ StandsOutside 0 (· = .symbol .closeParen) tokens := by
  rw [standsOutside_iff nested]
  have within {place : List Bracket → Prop} (apart : ∀ stack, place stack → .paren ∉ stack) :
      ¬ Stands [] place (· = .symbol .closeParen) tokens := by
    rintro ⟨front, token, back, reached, rfl, opens, here, rfl⟩
    have whole := nested.openAfter?_eq []
    rw [openAfter?_append, opens, Option.bind_some, openAfter?_cons] at whole
    obtain ⟨next, step, -⟩ := Option.bind_eq_some_iff.1 whole
    obtain rfl := close?_eq_some_iff.1 step
    exact apart _ here (by simp)
  rintro (opens | enclosed)
  · exact within (by rintro _ rfl; simp) opens
  · exact within (fun _ here => here.2) enclosed

end ColumnLineage.Brackets
