import ColumnLineage.Proofs.StatementSequence

/-! Tokens outside parentheses. The depth of a token is that after the tokens before it, and a closing
parenthesis too many does not lower it. Tokens that are cut where one of some kind first stands outside are
parted in one way only. Where no closing parenthesis stands outside, the depth is the number of parentheses
that are open. -/

namespace ColumnLineage.Parentheses
open Sql
open StatementSequence (depthAfter)

variable {depth : Nat} {kind : Token → Prop} {tokens front back : List Token} {token : Token}

/-! ## Depth -/

@[simp] theorem depthAfter_nil (depth : Nat) : depthAfter depth [] = depth := rfl

@[simp] theorem depthAfter_cons (depth : Nat) (token : Token) (tokens : List Token) :
    depthAfter depth (token :: tokens) = depthAfter (token.depthAfter depth) tokens := rfl

@[simp] theorem depthAfter_append (depth : Nat) (front back : List Token) :
    depthAfter depth (front ++ back) = depthAfter (depthAfter depth front) back :=
  List.foldl_append

/-- A token that is no parenthesis. -/
def Apart (token : Token) : Prop :=
  token ≠ .symbol .openParen ∧ token ≠ .symbol .closeParen

theorem Apart.depthAfter_eq (apart : Apart token) (depth : Nat) : token.depthAfter depth = depth := by
  unfold Token.depthAfter
  split
  · exact absurd rfl apart.1
  · exact absurd rfl apart.2
  · rfl

/-- Tokens without parentheses leave the depth as it is. -/
theorem depthAfter_of_apart (apart : ∀ token ∈ tokens, Apart token) : depthAfter depth tokens = depth := by
  induction tokens with
  | nil => rfl
  | cons token tokens ih =>
    obtain ⟨head, rest⟩ := List.forall_mem_cons.1 apart
    rw [depthAfter_cons, head.depthAfter_eq, ih rest]

theorem apart_of_isSpacing (spacing : token.isSpacing = true) : Apart token := by
  constructor
  · rintro rfl
    cases spacing
  · rintro rfl
    cases spacing

theorem apart_of_isAnyOf {keywords : List String} (named : token.isAnyOf keywords = true) : Apart token := by
  constructor
  · rintro rfl
    cases named
  · rintro rfl
    cases named

theorem depthAfter_of_spacing (spacing : ∀ token ∈ tokens, token.isSpacing = true) :
    depthAfter depth tokens = depth :=
  depthAfter_of_apart fun token member => apart_of_isSpacing (spacing token member)

/-- Opening parentheses add to the depth. -/
theorem depthAfter_opens (depth count : Nat) :
    depthAfter depth (List.replicate count (.symbol .openParen)) = depth + count := by
  induction count generalizing depth with
  | zero => rfl
  | succ count ih =>
    rw [List.replicate_succ, depthAfter_cons, Token.depthAfter, ih]
    omega

/-- Closing parentheses take from it, down to zero. -/
theorem depthAfter_closes (depth count : Nat) :
    depthAfter depth (List.replicate count (.symbol .closeParen)) = depth - count := by
  induction count generalizing depth with
  | zero => rfl
  | succ count ih =>
    rw [List.replicate_succ, depthAfter_cons, Token.depthAfter, ih]
    omega

/-! ## Tokens outside -/

/-- A token of some kind stands outside parentheses, in tokens that start at a depth. -/
def StandsOutside (depth : Nat) (kind : Token → Prop) (tokens : List Token) : Prop :=
  ∃ front token back, tokens = front ++ token :: back ∧ depthAfter depth front = 0 ∧ kind token

theorem not_standsOutside_nil : ¬ StandsOutside depth kind [] := by
  rintro ⟨front, token, back, whole, -⟩
  simp at whole

theorem standsOutside_cons :
    StandsOutside depth kind (token :: tokens) ↔
      depth = 0 ∧ kind token ∨ StandsOutside (token.depthAfter depth) kind tokens := by
  constructor
  · rintro ⟨_ | ⟨first, front⟩, found, back, whole, outside, right⟩
    · obtain ⟨rfl, rfl⟩ := List.cons.inj whole
      exact .inl ⟨outside, right⟩
    · obtain ⟨rfl, rfl⟩ := List.cons.inj whole
      exact .inr ⟨front, found, back, rfl, outside, right⟩
  · rintro (⟨outside, right⟩ | ⟨front, found, back, rfl, outside, right⟩)
    · exact ⟨[], token, tokens, rfl, outside, right⟩
    · exact ⟨token :: front, found, back, rfl, outside, right⟩

theorem standsOutside_append :
    StandsOutside depth kind (front ++ back) ↔
      StandsOutside depth kind front ∨ StandsOutside (depthAfter depth front) kind back := by
  induction front generalizing depth with
  | nil => simp [not_standsOutside_nil]
  | cons token front ih => simp [standsOutside_cons, ih, or_assoc]

theorem not_standsOutside_of_forall (apart : ∀ token ∈ tokens, ¬ kind token) :
    ¬ StandsOutside depth kind tokens := by
  rintro ⟨front, token, back, rfl, -, right⟩
  exact apart token (by simp) right

instance decidableStandsOutside [DecidablePred kind] : (depth : Nat) → (tokens : List Token) →
    Decidable (StandsOutside depth kind tokens)
  | _, [] => isFalse not_standsOutside_nil
  | depth, token :: tokens =>
    have := decidableStandsOutside (token.depthAfter depth) tokens
    decidable_of_iff _ standsOutside_cons.symm

theorem StandsOutside.mono {more : Token → Prop} (stands : StandsOutside depth kind tokens)
    (weaker : ∀ token, kind token → more token) : StandsOutside depth more tokens := by
  obtain ⟨front, token, back, whole, outside, right⟩ := stands
  exact ⟨front, token, back, whole, outside, weaker token right⟩

/-- Where tokens of some kind stand outside, there is a first one. -/
theorem exists_first (stands : StandsOutside depth kind tokens) :
    ∃ front token back, tokens = front ++ token :: back ∧ depthAfter depth front = 0 ∧ kind token ∧
      ¬ StandsOutside depth kind front := by
  induction tokens generalizing depth with
  | nil => exact absurd stands not_standsOutside_nil
  | cons token tokens ih =>
    by_cases here : depth = 0 ∧ kind token
    · exact ⟨[], token, tokens, rfl, here.1, here.2, not_standsOutside_nil⟩
    · obtain ⟨front, found, back, rfl, outside, right, first⟩ :=
        ih ((standsOutside_cons.1 stands).resolve_left here)
      refine ⟨token :: front, found, back, rfl, outside, right, ?_⟩
      rw [standsOutside_cons]
      exact not_or.2 ⟨here, first⟩

/-! ## Balance -/

/-- Every parenthesis is closed by one after it, and closes one before it. -/
structure Balanced (tokens : List Token) : Prop where
  opened : ∀ front, front <+: tokens →
    front.count (.symbol .closeParen) ≤ front.count (.symbol .openParen)
  closed : tokens.count (.symbol .closeParen) = tokens.count (.symbol .openParen)

private theorem depthAfter_add_count
    (inside : ¬ StandsOutside depth (· = .symbol .closeParen) tokens) :
    depthAfter depth tokens + tokens.count (.symbol .closeParen) =
      depth + tokens.count (.symbol .openParen) := by
  induction tokens generalizing depth with
  | nil => rfl
  | cons token tokens ih =>
    rw [standsOutside_cons, not_or] at inside
    have rest := ih inside.2
    by_cases close : token = .symbol .closeParen
    · subst close
      have positive : depth ≠ 0 := fun outside => inside.1 ⟨outside, rfl⟩
      simp [Token.depthAfter] at rest ⊢
      omega
    · by_cases opening : token = .symbol .openParen
      · subst opening
        simp [Token.depthAfter] at rest ⊢
        omega
      · have same : token.depthAfter depth = depth := Apart.depthAfter_eq ⟨opening, close⟩ depth
        rw [same] at rest
        simpa [close, opening, same] using rest

/-- Tokens that close all their parentheses and no others are balanced. -/
theorem balanced_of_closed (inside : ¬ StandsOutside 0 (· = .symbol .closeParen) tokens)
    (closed : depthAfter 0 tokens = 0) : Balanced tokens := by
  constructor
  · rintro front ⟨back, rfl⟩
    rw [standsOutside_append, not_or] at inside
    have count := depthAfter_add_count inside.1
    omega
  · have count := depthAfter_add_count inside
    omega

/-- Balanced tokens close no parenthesis that they did not open. -/
theorem Balanced.not_standsOutside_close (balanced : Balanced tokens) (depth : Nat) :
    ¬ StandsOutside depth (· = .symbol .closeParen) tokens := by
  intro stands
  obtain ⟨front, token, back, rfl, outside, rfl, first⟩ := exists_first stands
  have count := depthAfter_add_count first
  have before := balanced.opened (front ++ [.symbol .closeParen]) ⟨back, by simp⟩
  have excess : front.count (.symbol .closeParen) + 1 ≤ front.count (.symbol .openParen) := by
    simpa using before
  omega

/-- Balanced tokens leave the depth as it is. -/
theorem Balanced.depthAfter_eq (balanced : Balanced tokens) (depth : Nat) :
    depthAfter depth tokens = depth := by
  have count := depthAfter_add_count (balanced.not_standsOutside_close depth)
  have closed := balanced.closed
  omega

/-- Inside parentheses no token of balanced ones stands outside. -/
theorem Balanced.not_standsOutside (balanced : Balanced tokens) (nested : depth ≠ 0) :
    ¬ StandsOutside depth kind tokens := by
  rintro ⟨front, token, back, rfl, outside, -⟩
  have inside := balanced.not_standsOutside_close depth
  rw [standsOutside_append, not_or] at inside
  have count := depthAfter_add_count inside.1
  have opened := balanced.opened front (List.prefix_append _ _)
  omega

theorem balanced_iff : Balanced tokens ↔
    ¬ StandsOutside 0 (· = .symbol .closeParen) tokens ∧ depthAfter 0 tokens = 0 :=
  ⟨fun balanced => ⟨balanced.not_standsOutside_close 0, balanced.depthAfter_eq 0⟩,
    fun ⟨inside, closed⟩ => balanced_of_closed inside closed⟩

instance (tokens : List Token) : Decidable (Balanced tokens) :=
  decidable_of_iff _ balanced_iff.symm

theorem Balanced.cons (apart : Apart token) (balanced : Balanced tokens) : Balanced (token :: tokens) := by
  rw [balanced_iff, standsOutside_cons, depthAfter_cons, apart.depthAfter_eq]
  exact ⟨not_or.2 ⟨fun close => apart.2 close.2, balanced.not_standsOutside_close 0⟩,
    balanced.depthAfter_eq 0⟩

theorem Balanced.append (first : Balanced front) (second : Balanced back) : Balanced (front ++ back) := by
  rw [balanced_iff, standsOutside_append, depthAfter_append, first.depthAfter_eq]
  exact ⟨not_or.2 ⟨first.not_standsOutside_close 0, second.not_standsOutside_close 0⟩,
    second.depthAfter_eq 0⟩

end ColumnLineage.Parentheses
