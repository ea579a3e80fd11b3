import ColumnLineage.Proofs.Brackets
import ColumnLineage.Proofs.SelectListParts

/-! Items of a select list with three kinds of brackets. Only parentheses keep a comma from cutting the list
and a clause word from ending it, so the items of a well bracketed list are balanced in their parentheses. They
are well bracketed in all three kinds exactly if no such token stands in square brackets or braces outside
parentheses, and then they are what the commas outside all brackets part. -/

namespace ColumnLineage.BracketedItems
open Brackets
open Parentheses
open SelectListParts
open SelectedItems (plainWord)
open Sql
open SelectList (ofTokens?)
open StatementSequence (depthAfter)

/-- A word without quotes that ends a list. -/
abbrev IsClause (token : Token) : Prop :=
  token.isAnyOf clauseWords = true

/-- A token that cuts a list or ends it: a comma or a clause word. -/
abbrev Cuts (token : Token) : Prop :=
  IsComma token ∨ IsClause token

/-- Tokens with a `SELECT` whose list is well bracketed: the list reaches to the first clause word outside all
brackets, or to a closing parenthesis that was not opened in it. -/
structure Listed (tokens : List Token) where
  before : List Token
  select : Token
  skipped : List Token
  list : List Token
  after : List Token
  whole : tokens = before ++ select :: (skipped ++ (list ++ after))
  named : IsSelect select
  first : depthAfter 0 before = 0 ∧ ¬ StandsOutside 0 IsSelect before ∨
    ¬ StandsOutside 0 IsSelect tokens ∧ ∀ token ∈ before, ¬ IsSelect token
  skips : ∀ token ∈ skipped, IsSkipped token
  begins : ∀ token ∈ (list ++ after).head?, ¬ IsSkipped token
  nested : WellBracketed list
  inside : ¬ StandsOpen IsClause list
  ends : ∀ token ∈ after.head?, EndsList token

/-- The segments of some tokens between the commas outside all brackets. -/
inductive OpenSegments : List Token → List (List Token) → Prop where
  | last {segment : List Token} (whole : ¬ StandsOpen IsComma segment) : OpenSegments segment [segment]
  | comma {segment rest : List Token} {segments : List (List Token)} (whole : ¬ StandsOpen IsComma segment)
      (nested : WellBracketed segment) (more : OpenSegments rest segments) :
      OpenSegments (segment ++ .symbol .comma :: rest) (segment :: segments)

variable {tokens segment region : List Token} {segments : List (List Token)} {item : SelectItem}
  {items : List SelectItem} {selected : SelectList}

/-! ## Segments -/

/-- The comma of a cut that is at or after the end of a segment. -/
private theorem comma_place {segment rest front back : List Token}
    (whole : ¬ StandsOutside 0 IsComma segment) (outside : depthAfter 0 front = 0)
    (same : segment ++ .symbol .comma :: rest = front ++ .symbol .comma :: back) :
    front = segment ∨ ∃ later, front = segment ++ .symbol .comma :: later ∧
      rest = later ++ .symbol .comma :: back := by
  rcases List.append_eq_append_iff.1 same with ⟨more, rfl, split⟩ | ⟨more, rfl, split⟩
  · cases more with
    | nil => exact .inl (List.append_nil segment)
    | cons token later =>
      obtain ⟨rfl, rfl⟩ := List.cons.inj split
      exact .inr ⟨later, rfl, rfl⟩
  · cases more with
    | nil => exact .inl (List.append_nil front).symm
    | cons token later =>
      obtain ⟨rfl, -⟩ := List.cons.inj split
      exact absurd ⟨front, _, later, rfl, outside, rfl⟩ whole

private theorem wellBracketed_comma (first : WellBracketed segment) :
    WellBracketed (segment ++ .symbol .comma :: tokens) ↔ WellBracketed tokens := by
  have comma : WellBracketed [.symbol .comma] := .plain (by intro kind; cases kind <;> decide) .nil
  rw [first.append_iff]
  exact comma.append_iff

/-- All segments are well bracketed exactly if the region is, and what is before each comma that cuts it. -/
theorem segments_nested_iff (cut : Segments region segments) :
    (∀ segment ∈ segments, WellBracketed segment) ↔
      WellBracketed region ∧ ∀ front back, region = front ++ .symbol .comma :: back →
        depthAfter 0 front = 0 → WellBracketed front := by
  induction cut with
  | @last segment whole =>
    rw [List.forall_mem_singleton]
    refine ⟨fun nested => ⟨nested, ?_⟩, And.left⟩
    rintro front back rfl outside
    exact absurd ⟨front, _, back, rfl, outside, rfl⟩ whole
  | @comma segment rest segments whole closed more ih =>
    rw [List.forall_mem_cons, ih]
    constructor
    · rintro ⟨first, nested, parted⟩
      refine ⟨(wellBracketed_comma first).2 nested, ?_⟩
      intro front back same outside
      rcases comma_place whole outside same with rfl | ⟨later, rfl, split⟩
      · exact first
      · have later_outside : depthAfter 0 later = 0 := by
          rwa [depthAfter_append, closed] at outside
        exact (wellBracketed_comma first).2 (parted later back split later_outside)
    · rintro ⟨nested, parted⟩
      -- the comma after the first segment is a cut itself, and takes the segment off what is before a later one
      have first : WellBracketed segment := parted segment rest rfl closed
      refine ⟨first, (wellBracketed_comma first).1 nested, ?_⟩
      rintro front back rfl outside
      have before := parted (segment ++ .symbol .comma :: front) back (by simp) (by
        rw [depthAfter_append, closed]
        exact outside)
      exact (wellBracketed_comma first).1 before

/-- Well bracketed segments are parted by the commas outside all brackets. -/
theorem openSegments_of_segments (cut : Segments region segments)
    (nested : ∀ segment ∈ segments, WellBracketed segment) : OpenSegments region segments := by
  induction cut with
  | @last segment whole =>
    have apart := mt (standsOutside_iff (nested segment (by simp))).2 whole
    exact .last fun stands => apart (.inl stands)
  | @comma segment rest segments whole closed more ih =>
    obtain ⟨first, others⟩ := List.forall_mem_cons.1 nested
    have apart := mt (standsOutside_iff first).2 whole
    exact .comma (fun stands => apart (.inl stands)) first (ih others)

theorem segments_closed (cut : Segments region segments) (closed : depthAfter 0 region = 0) :
    ∀ segment ∈ segments, depthAfter 0 segment = 0 := by
  induction cut with
  | last => simpa using closed
  | comma _ outside _ ih =>
    rw [depthAfter_append, outside] at closed
    exact List.forall_mem_cons.2 ⟨outside, ih closed⟩

/-! ## Items -/

theorem exists_segment_of_mem (held : Items segments items) (member : item ∈ items) :
    ∃ segment ∈ segments, IsItem segment item := by
  induction held with
  | nil => cases member
  | empty _ _ ih =>
    obtain ⟨segment, among, isItem⟩ := ih member
    exact ⟨segment, List.mem_cons_of_mem _ among, isItem⟩
  | item isItem _ ih =>
    rcases List.mem_cons.1 member with rfl | member
    · exact ⟨_, List.mem_cons_self, isItem⟩
    · obtain ⟨segment, among, isItem⟩ := ih member
      exact ⟨segment, List.mem_cons_of_mem _ among, isItem⟩

/-- A segment is well bracketed exactly if its item is. -/
theorem isItem_nested_iff (held : IsItem segment item) :
    WellBracketed segment ↔ WellBracketed item.tokens := by
  obtain ⟨⟨front, back, rfl, atFront, atBack⟩, -⟩ := held
  rw [List.append_assoc, (wellBracketed_of_spacing atFront).append_iff]
  constructor
  · intro nested
    rw [wellBracketed_iff, openAfter?_append] at nested
    obtain ⟨stack, opens, rest⟩ := Option.bind_eq_some_iff.1 nested
    rw [(wellBracketed_of_spacing atBack).openAfter?_eq] at rest
    obtain rfl := Option.some.inj rest
    exact wellBracketed_iff.2 opens
  · intro nested
    exact nested.append (wellBracketed_of_spacing atBack)

theorem items_nested_iff (held : Items segments items) :
    (∀ item ∈ items, WellBracketed item.tokens) ↔ ∀ segment ∈ segments, WellBracketed segment := by
  induction held with
  | nil => simp
  | empty spacing _ ih =>
    rw [List.forall_mem_cons, ih]
    exact (and_iff_right (wellBracketed_of_spacing spacing)).symm
  | item isItem _ ih => rw [List.forall_mem_cons, List.forall_mem_cons, ih, isItem_nested_iff isItem]

/-! ## The list and its region -/

/-- A region that a well bracketed list can have: the whole list, or what is before a clause word of it. -/
structure Listed.Region (listed : Listed tokens) (region : List Token) : Prop where
  closed : depthAfter 0 region = 0
  reaches : region = listed.list ∨ ∃ clause back, listed.list = region ++ clause :: back ∧ IsClause clause

theorem Listed.exists_parts (listed : Listed tokens) :
    ∃ parts : Parts tokens, listed.Region parts.region := by
  have exists_of_region (region after : List Token) (whole : region ++ after = listed.list ++ listed.after)
      (inside : ¬ StandsOutside 0 EndsList region)
      (ends : ∀ token ∈ after.head?, EndsList token ∧ depthAfter 0 region = 0) :
      ∃ parts : Parts tokens, parts.region = region := by
    obtain ⟨segments, cut⟩ := exists_segments region
    obtain ⟨items, held⟩ := exists_items segments
    exact ⟨⟨listed.before, listed.select, listed.skipped, region, after, segments, items,
      whole ▸ listed.whole, listed.named, listed.first, listed.skips, whole ▸ listed.begins, inside, ends, cut,
      held⟩, rfl⟩
  by_cases stands : StandsOutside 0 EndsList listed.list
  -- other brackets can enclose a clause word that ends the region before the list ends
  · obtain ⟨region, last, back, whole, closed, ends, inside⟩ := exists_first stands
    obtain ⟨parts, rfl⟩ := exists_of_region region (last :: (back ++ listed.after)) (by rw [whole]; simp)
      inside (by simp [ends, closed])
    refine ⟨parts, closed, .inr ⟨last, back, whole, ?_⟩⟩
    rcases ends with close | clause
    · exact absurd ⟨_, last, back, whole, closed, close⟩ listed.nested.not_standsOutside_close
    · exact clause
  · have closed := listed.nested.depthAfter_eq
    obtain ⟨parts, same⟩ := exists_of_region listed.list listed.after rfl stands
      fun token member => ⟨listed.ends token member, closed⟩
    exact ⟨parts, same ▸ closed, .inl same⟩

/-- Where no comma and no clause word is enclosed, the region is the whole list and all its segments are well
bracketed. -/
theorem Listed.nested_of_not_enclosed (listed : Listed tokens) (parts : Parts tokens)
    (region : listed.Region parts.region) (apart : ¬ StandsEnclosed Cuts listed.list) :
    parts.region = listed.list ∧ ∀ segment ∈ parts.segments, WellBracketed segment := by
  have none {kind : Token → Prop} (cuts : ∀ token, kind token → Cuts token) :
      ¬ StandsEnclosed kind listed.list := by
    rintro ⟨front, token, back, stack, whole, opens, here, right⟩
    exact apart ⟨front, token, back, stack, whole, opens, here, cuts token right⟩
  have whole : parts.region = listed.list := by
    rcases region.reaches with whole | ⟨clause, back, split, ends⟩
    · exact whole
    · have outside : StandsOutside 0 IsClause listed.list := ⟨_, clause, back, split, region.closed, ends⟩
      rcases (standsOutside_iff listed.nested).1 outside with stands | stands
      · exact absurd stands listed.inside
      · exact absurd stands (none fun _ clause => .inr clause)
  refine ⟨whole, (segments_nested_iff parts.cut).2 ⟨whole ▸ listed.nested, ?_⟩⟩
  intro front back split outside
  rw [whole] at split
  have nested := listed.nested
  rw [split] at nested
  rcases nested.front_cases outside with before | ⟨stack, opens, here⟩
  · exact before
  · have enclosed : StandsEnclosed IsComma listed.list := ⟨front, _, back, stack, split, opens, here, rfl⟩
    exact absurd enclosed (none fun _ comma => .inl comma)

/-- Where all segments are well bracketed, no comma and no clause word is enclosed. -/
theorem Listed.not_enclosed_of_nested (listed : Listed tokens) (parts : Parts tokens)
    (region : listed.Region parts.region) (nested : ∀ segment ∈ parts.segments, WellBracketed segment) :
    ¬ StandsEnclosed Cuts listed.list := by
  obtain ⟨nestedRegion, parted⟩ := (segments_nested_iff parts.cut).1 nested
  have whole : parts.region = listed.list := by
    rcases region.reaches with whole | ⟨clause, back, split, ends⟩
    · exact whole
    · exact absurd ⟨_, clause, back, [], split, nestedRegion.openAfter?_eq [], rfl, ends⟩ listed.inside
  rintro ⟨front, token, back, stack, split, opens, ⟨some, apart⟩, cuts⟩
  have outside : depthAfter 0 front = 0 := (depthAfter_openAfter? opens).trans (List.count_eq_zero.2 apart)
  rcases cuts with rfl | clause
  · have before := (parted front back (whole.trans split) outside).openAfter?_eq []
    exact some (Option.some.inj (opens.symm.trans before))
  · exact parts.inside ⟨front, token, back, whole.trans split, outside, .inr clause⟩

theorem items_of_answers (answers : Answers items (some selected)) : selected.items = items := by
  cases answers <;> rfl

/-- The items of a well bracketed list. Each is balanced in its parentheses. All are well bracketed exactly if
no comma and no clause word of the list is enclosed by square brackets or braces outside parentheses, and then
they are the items between the commas outside all brackets. -/
theorem items_nested (listed : Listed tokens) (found : ofTokens? tokens = some selected) :
    (∀ item ∈ selected.items, Balanced item.tokens) ∧
    ((∀ item ∈ selected.items, WellBracketed item.tokens) ↔ ¬ StandsEnclosed Cuts listed.list) ∧
    (¬ StandsEnclosed Cuts listed.list →
      ∃ segments, OpenSegments listed.list segments ∧ Items segments selected.items) := by
  obtain ⟨parts, region⟩ := listed.exists_parts
  obtain ⟨answer, answers⟩ := exists_answer parts.items
  obtain rfl : answer = some selected := (ofTokens?_of_lists (.parts parts answers)).symm.trans found
  rw [items_of_answers answers, items_nested_iff parts.held]
  refine ⟨?_, ⟨?_, ?_⟩, ?_⟩
  · intro item member
    obtain ⟨segment, among, isItem⟩ := exists_segment_of_mem parts.held member
    have inside : ¬ StandsOutside 0 EndsList segment :=
      fun stands => parts.inside (parts.cut.standsOutside among stands)
    exact isItem.balanced inside (segments_closed parts.cut region.closed segment among)
  · exact listed.not_enclosed_of_nested parts region
  · intro apart
    exact (listed.nested_of_not_enclosed parts region apart).2
  · intro apart
    obtain ⟨whole, nested⟩ := listed.nested_of_not_enclosed parts region apart
    exact ⟨parts.segments, whole ▸ openSegments_of_segments parts.cut nested, parts.held⟩

/-- The tokens of a query of a list. -/
def query (list : List Token) : List Token :=
  plainWord "SELECT" :: ([.spacing .space] ++ (list ++ [plainWord "FROM", .spacing .space, plainWord "t"]))

/-- A query of a list that begins with a bracket or a name is parted at that list. -/
private def listedQuery (first : Token) (others : List Token) (begins : ¬ IsSkipped first)
    (nested : WellBracketed (first :: others)) (inside : ¬ StandsOpen IsClause (first :: others)) :
    Listed (query (first :: others)) where
  before := []
  select := plainWord "SELECT"
  skipped := [.spacing .space]
  list := first :: others
  after := [plainWord "FROM", .spacing .space, plainWord "t"]
  whole := rfl
  named := by decide
  first := .inl ⟨rfl, not_standsOutside_nil⟩
  skips := by decide
  begins := by simpa using begins
  nested := nested
  inside := inside
  ends := by simpa using .inr (by decide)

/-- A call of an array. -/
def arrayCall : SelectItem :=
  ⟨plainWord "f" :: [.symbol .openParen, .symbol .openBracket, plainWord "a", .symbol .comma, plainWord "b",
    .symbol .closeBracket, .symbol .closeParen, .spacing .space, plainWord "x"]⟩

/-- A subscript. -/
def subscript : SelectItem :=
  ⟨[plainWord "c", .symbol .openBracket, .number ['1'] false, .symbol .closeBracket, .spacing .space,
    plainWord "y"]⟩

/-- The list of both. -/
def callList : List Token :=
  arrayCall.tokens ++ .symbol .comma :: .spacing .space :: (subscript.tokens ++ [.spacing .space])

private def callListed : Listed (query callList) :=
  listedQuery _ _ (by decide) (by decide +kernel) (by decide +kernel)

/-- The comma of an array in a call cuts no list, and both items are well bracketed. -/
theorem items_nested_of_array_call :
    Statement.first "SELECT f([a,b]) x, c[1] y FROM t".toList = query callList ∧
      ofTokens? (query callList) = some (.several arrayCall subscript []) ∧
      ¬ StandsEnclosed Cuts callList ∧ ∀ item ∈ [arrayCall, subscript], WellBracketed item.tokens := by
  have found : ofTokens? (query callList) = some (.several arrayCall subscript []) := by decide +kernel
  have apart : ¬ StandsEnclosed Cuts callList := by decide +kernel
  exact ⟨by decide +kernel, found, apart, (items_nested callListed found).2.1.2 apart⟩

/-- What is left of an array before the comma that cuts it. -/
def arrayFront : SelectItem :=
  ⟨[.symbol .openBracket, plainWord "a"]⟩

/-- What is left of it after the comma. -/
def arrayBack : SelectItem :=
  ⟨[plainWord "b", .symbol .closeBracket, .spacing .space, plainWord "AS", .spacing .space, plainWord "c"]⟩

/-- A list of an array. -/
def arrayList : List Token :=
  arrayFront.tokens ++ .symbol .comma :: (arrayBack.tokens ++ [.spacing .space])

private def arrayListed : Listed (query arrayList) :=
  listedQuery _ _ (by decide) (by decide +kernel) (by decide +kernel)

/-- So the items of a well bracketed list need not be well bracketed. -/
theorem not_always_nested :
    ¬ ∀ (sql : Text) (_ : Listed (Statement.first sql)) (selected : SelectList),
      ofTokens? (Statement.first sql) = some selected →
        ∀ item ∈ selected.items, WellBracketed item.tokens := by
  intro always
  have read : Statement.first "SELECT [a,b] AS c FROM t".toList = query arrayList := by decide +kernel
  have found : ofTokens? (query arrayList) = some (.several arrayFront arrayBack []) := by decide +kernel
  have nested := always "SELECT [a,b] AS c FROM t".toList (read ▸ arrayListed) _ (read ▸ found) arrayFront
    (by simp [SelectList.items])
  exact absurd nested (by decide)

end ColumnLineage.BracketedItems
