import ColumnLineage.Description.Inference
import ColumnLineage.Proofs.JsonGrammar

/-! The body of a response against its format, a list of generated texts. Every element has to hold a text, also
behind the first one, whose text is the answer; what else the elements hold, and how it is laid out, does not
matter. -/

namespace ColumnLineage.GeneratedTexts
open Data DataFields Description InferenceClient Json JsonScalars JsonGrammar

/-- The name of the member that holds a generated text. -/
def memberName : Text := "generated_text".toList

/-- Data that hold a generated text: a record where one member has the name and is the text, whatever the others
are, or a list of the text alone. -/
inductive Holds (g : Text) : Data → Prop where
  | record (only : Once memberName (.text g) members) : Holds g (.record members)
  | list : Holds g (.list [.text g])

/-- A body with these generated texts: the whole of it is a list, and each of its items holds one. -/
def Response (texts : List Text) (body : Text) : Prop :=
  ∃ items, Document (.list items) body ∧ List.Forall₂ Holds texts items

/-! ## What data hold a text -/

private theorem generatedText?_record (members : List (Text × Data)) :
    generatedText? (.record members) = (member? members memberName).bind (required? text?) := by
  have fields : fields? ["generated_text".toList] (· = 1) (.record members) =
      (member? members memberName).map ([·]) :=
    fields?_record_singleton memberName _ members
  rw [generatedText?, fields]
  cases member? members memberName <;> rfl

/-- A generated text is taken from exactly the data that hold it. -/
theorem generatedText?_eq_some_iff : generatedText? d = some g ↔ Holds g d := by
  constructor
  · intro taken
    cases d with
    | record members =>
      rw [generatedText?_record, Option.bind_eq_some_iff] at taken
      obtain ⟨field, found, held⟩ := taken
      obtain ⟨d, rfl, text⟩ := required?_eq_some_iff.1 held
      cases text?_eq_some_iff.1 text
      exact .record (member?_eq_present_iff.1 found)
    | list items =>
      -- The one field is there only in a list of one item.
      cases items with
      | nil => cases taken
      | cons d items =>
        cases items with
        | nil => cases text?_eq_some_iff.1 taken; exact .list
        | cons e items => simp [generatedText?, fields?] at taken
    | _ => cases taken
  · rintro (only | _)
    · rw [generatedText?_record, member?_eq_present_iff.2 only]
      rfl
    · rfl

private theorem texts_eq_some_iff {body : Text} {texts : List Text} :
    (Json.read? body).bind (listOf? generatedText?) = some texts ↔ Response texts body := by
  simp only [Option.bind_eq_some_iff, read?_eq_some_iff, listOf?_eq_some_iff, generatedText?_eq_some_iff]
  constructor
  · rintro ⟨_, document, items, rfl, each⟩
    exact ⟨items, document, each.flip⟩
  · rintro ⟨items, document, each⟩
    exact ⟨_, document, items, rfl, each.flip⟩

theorem response_nil_iff : Response [] body ↔ Document (.list []) body := by
  simp [Response]

/-! ## How elements are laid out -/

/-- An element of a response as it stands in the body: a record with one member for the text and others before
and behind it, and the spaces around the record. -/
structure Element where
  before : Text
  front : List Member
  own : Member
  back : List Member
  after : Text
  spaces_before : Spaces before
  spaces_after : Spaces after

def Element.members (element : Element) : List Member :=
  element.front ++ element.own :: element.back

def Element.written (element : Element) : Text :=
  element.before ++ ('\x7b' :: (separated Member.written element.members ++ ['\x7d']) ++ element.after)

/-- An element with a generated text. The other members have any values in the grammar, and any names but that
of the text. -/
structure Carries (g : Text) (element : Element) : Prop where
  values : ∀ m ∈ element.members, m.value.Proper
  named : Joins element.own.parts memberName
  text : element.own.value.datum = .text g
  others : ∀ m ∈ element.front ++ element.back, ∃ name, Joins m.parts name ∧ name ≠ memberName

/-- Members with names of texts stand for the members of a record, of which none has a name that they have not. -/
private theorem exists_fields {members : List Member}
    (named : ∀ m ∈ members, ∃ name, Joins m.parts name ∧ name ≠ memberName) :
    ∃ fields, List.Forall₂ Member.Names members fields ∧ Without memberName fields := by
  induction members with
  | nil => exact ⟨[], .nil, List.forall_mem_nil _⟩
  | cons m members ih =>
    obtain ⟨⟨name, joined, other⟩, rest⟩ := List.forall_mem_cons.1 named
    obtain ⟨fields, each, without⟩ := ih rest
    exact ⟨(name, m.value.datum) :: fields, .cons ⟨joined, rfl⟩ each, List.forall_mem_cons.2 ⟨other, without⟩⟩

/-- An element with a text fills a slot with data that hold it. -/
theorem Carries.slot (carries : Carries g element) :
    ∃ slot : Slot, slot.written = element.written ∧ slot.Proper ∧ Holds g slot.datum := by
  obtain ⟨front, frontNamed, frontWithout⟩ :=
    exists_fields fun m inside => carries.others m (List.mem_append_left _ inside)
  obtain ⟨back, backNamed, backWithout⟩ :=
    exists_fields fun m inside => carries.others m (List.mem_append_right _ inside)
  have named : List.Forall₂ Member.Names element.members (front ++ (memberName, .text g) :: back) :=
    List.rel_append frontNamed (.cons ⟨carries.named, carries.text⟩ backNamed)
  have nonempty : element.members ≠ [] := by simp [Element.members]
  exact ⟨⟨element.before, _, _, element.after, element.spaces_before, element.spaces_after⟩, rfl,
    .record element.members nonempty carries.values named, .record ⟨front, back, rfl, frontWithout, backWithout⟩⟩

/-- A body as elements are laid out in it: a list of them with spaces around it. -/
def layOut (before : Text) (elements : List Element) (after : Text) : Text :=
  before ++ ('[' :: (separated Element.written elements ++ [']']) ++ after)

private theorem exists_slots (each : List.Forall₂ Carries texts elements) :
    ∃ slots : List Slot, slots.map Slot.written = elements.map Element.written ∧ (∀ slot ∈ slots, slot.Proper) ∧
      List.Forall₂ Holds texts (slots.map Slot.datum) := by
  induction each with
  | nil => exact ⟨[], rfl, List.forall_mem_nil _, .nil⟩
  | cons carries _ ih =>
    obtain ⟨slot, written, proper, holds⟩ := carries.slot
    obtain ⟨slots, others, allProper, allHold⟩ := ih
    exact ⟨slot :: slots, by rw [List.map_cons, written, others, List.map_cons],
      List.forall_mem_cons.2 ⟨proper, allProper⟩, .cons holds allHold⟩

/-- Elements that carry texts make a response with these texts, however they are laid out. -/
theorem response_of_elements (each : List.Forall₂ Carries texts elements) (nonempty : texts ≠ [])
    (spaces_before : Spaces before) (spaces_after : Spaces after) :
    Response texts (layOut before elements after) := by
  obtain ⟨slots, written, proper, holds⟩ := exists_slots each
  have some : slots ≠ [] := by
    rintro rfl
    cases holds
    exact nonempty rfl
  refine ⟨slots.map Slot.datum, ⟨⟨before, _, _, after, spaces_before, spaces_after⟩, ?_, rfl,
    .list slots some proper⟩, holds⟩
  have same : separated Slot.written slots = separated Element.written elements :=
    congrArg (Text.joinWith [',']) written
  rw [layOut, ← same]
  rfl

/-! ## The answer of a body -/

/-- The answer is taken from the texts of a response, and from nothing else. -/
theorem readBody_of_response {texts : List Text} (response : Response texts body) :
    readBody body = match texts with
      | [] => .error (.invalidResponse "empty response array".toList)
      | first :: _ => .ok (Text.trim first) := by
  rw [readBody, texts_eq_some_iff.2 response]
  cases texts <;> rfl

theorem readBody_of_no_response (none : ∀ texts, ¬ Response texts body) :
    ∃ reason, readBody body = .error (.invalidResponse reason) := by
  have nothing : (Json.read? body).bind (listOf? generatedText?) = .none :=
    Option.eq_none_iff_forall_ne_some.2 fun texts found => none texts (texts_eq_some_iff.1 found)
  exact ⟨_, by rw [readBody, nothing]⟩

theorem readBody_eq_ok_iff :
    readBody body = .ok t ↔ ∃ first others, Response (first :: others) body ∧ t = Text.trim first := by
  constructor
  · intro answered
    by_cases response : ∃ texts, Response texts body
    · obtain ⟨texts, response⟩ := response
      have taken := (readBody_of_response response).symm.trans answered
      cases texts with
      | nil => cases taken
      | cons first others => cases taken; exact ⟨first, others, response, rfl⟩
    · obtain ⟨reason, failed⟩ := readBody_of_no_response (not_exists.1 response)
      cases failed.symm.trans answered
  · rintro ⟨first, others, response, rfl⟩
    exact readBody_of_response response

/-- A body is accepted exactly in its format. The answer is the first of its generated texts without blanks at the
ends; an empty list and everything in another format are invalid responses. So the first of any texts is the
answer, whatever other members and spaces surround them. -/
theorem body_accepted_in_format (body : Text) :
    (∀ t, readBody body = .ok t ↔ ∃ first others, Response (first :: others) body ∧ t = Text.trim first) ∧
      (Document (.list []) body → readBody body = .error (.invalidResponse "empty response array".toList)) ∧
      ((∀ texts, ¬ Response texts body) → ∃ reason, readBody body = .error (.invalidResponse reason)) ∧
      ∀ first others elements before after, List.Forall₂ Carries (first :: others) elements →
        Spaces before → Spaces after → body = layOut before elements after →
        readBody body = .ok (Text.trim first) := by
  refine ⟨fun t => readBody_eq_ok_iff, ?_, readBody_of_no_response, ?_⟩
  · intro empty
    exact readBody_of_response (response_nil_iff.2 empty)
  · rintro first others elements before after each spaces_before spaces_after rfl
    exact readBody_of_response (response_of_elements each (List.cons_ne_nil _ _) spaces_before spaces_after)

/-- Half a pair of surrogates, which holds no text and can be passed over within a list. -/
private def halfPair : Slot :=
  ⟨[], .unreadable, "\"\\ud800\"".toList, [], .nil, .nil⟩

private theorem blank_spaces : Spaces [' '] := by
  decide

private def halfPairs : Slot :=
  ⟨[], .list [.unreadable], '[' :: (separated Slot.written [halfPair] ++ [']']), [' '], .nil, blank_spaces⟩

private theorem halfPairs_proper : halfPairs.Proper := by
  have unit : number? 16 ['d', '8', '0', '0'] = some 0xD800 := by decide
  have alone : ∀ s, ¬ Joins [StringPart.ofUnit 0xD800] s := textOfParts?_eq_none_iff.1 (by decide)
  have half : halfPair.Proper := .unpaired (.cons (.unit unit) .nil) alone
  exact .list [halfPair] (List.cons_ne_nil _ _) (List.forall_mem_singleton.2 half)

private theorem notes_plain : Plain "notes".toList := by
  decide

private theorem memberName_plain : Plain memberName := by
  decide

private def decorated : Element where
  before := [' ']
  front := [.plain "notes".toList notes_plain halfPairs]
  own := .plain memberName memberName_plain
    ⟨[' '], .text " Order total. ".toList, "\" Order total. \"".toList, [], blank_spaces, .nil⟩
  back := [.plain "notes".toList notes_plain halfPairs]
  after := []
  spaces_before := blank_spaces
  spaces_after := .nil

private theorem decorated_carries : Carries " Order total. ".toList decorated := by
  refine ⟨?_, joins_chars memberName, rfl, ?_⟩
  · refine List.forall_mem_cons.2 ⟨halfPairs_proper, List.forall_mem_cons.2 ⟨?_, ?_⟩⟩
    · have plain : Plain " Order total. ".toList := by decide
      exact .text plain.body (joins_chars " Order total. ".toList)
    · exact List.forall_mem_singleton.2 halfPairs_proper
  · refine List.forall_mem_cons.2 ⟨⟨_, joins_chars "notes".toList, by decide⟩, List.forall_mem_singleton.2 ?_⟩
    exact ⟨_, joins_chars "notes".toList, by decide⟩

private def secondShape : Text :=
  "[[\"a \"], \x7b\"n\": [1, \x7b\x7d], \"generated_text\": \"b\"\x7d]".toList

private def lateError : Text :=
  "[\x7b\"generated_text\": \"a\"\x7d, \x7b\x7d]".toList

theorem decorated_text_accepted :
    readBody (layOut [] [decorated] ['\n']) = .ok "Order total.".toList ∧
      readBody secondShape = .ok "a".toList ∧
      readBody "[ ]".toList = .error (.invalidResponse "empty response array".toList) ∧
      ∃ reason, readBody lateError = .error (.invalidResponse reason) := by
  refine ⟨?_, ?_, ?_, ?_⟩
  · exact (body_accepted_in_format _).2.2.2 _ [] [decorated] [] ['\n'] (.cons decorated_carries .nil)
      .nil (by decide) rfl
  · have response : Response ["a ".toList, "b".toList] secondShape := texts_eq_some_iff.1 (by decide +kernel)
    exact ((body_accepted_in_format _).1 _).2 ⟨_, _, response, by decide⟩
  · exact (body_accepted_in_format _).2.1 ⟨⟨[], _, _, [], .nil, .nil⟩, rfl, rfl, .emptyList blank_spaces⟩
  · refine (body_accepted_in_format _).2.2.1 fun texts response => ?_
    have nothing : (Json.read? lateError).bind (listOf? generatedText?) = none := by decide +kernel
    cases (texts_eq_some_iff.2 response).symm.trans nothing

end ColumnLineage.GeneratedTexts
