import ColumnLineage.Proofs.JsonGrammar
import ColumnLineage.Settings.Document

/-! Settings that a JSON document gives against its members. Each setting has a name and data of its own, so it is
told from the members with its name alone: absent, there once with a value it can take, or spoilt. One that is
spoilt spoils the whole document. -/

namespace ColumnLineage.SettingsOverride
open Data DataFields JsonScalars JsonGrammar Settings
open Decimal (Binary64)

/-! ## One setting -/

/-- The settings, told apart. -/
inductive Key where
  | apiUrl
  | apiKeyEnv
  | maxNewTokens
  | temperature
  | returnFullText
  | requestTimeout

namespace Key

/-- What a setting is. -/
def Value : Key → Type
  | apiUrl | apiKeyEnv => Text
  | maxNewTokens => Nat
  | temperature => Binary64
  | returnFullText => Bool
  | requestTimeout => Option Nat

/-- The name of a setting in a document. -/
def name : Key → Text
  | apiUrl => "api_url".toList
  | apiKeyEnv => "api_key_env".toList
  | maxNewTokens => "max_new_tokens".toList
  | temperature => "temperature".toList
  | returnFullText => "return_full_text".toList
  | requestTimeout => "request_timeout_secs".toList

/-- The data for each value of a setting. Numbers of tokens have thirty-two bits and seconds have sixty-four;
null is no time at all. -/
inductive Denotes : (k : Key) → Data → k.Value → Prop where
  | apiUrl (s : Text) : Denotes .apiUrl (.text s) s
  | apiKeyEnv (s : Text) : Denotes .apiKeyEnv (.text s) s
  | maxNewTokens (n : Nat) (fits : n < 0x100000000) : Denotes .maxNewTokens (.integer n) n
  | temperature (x : Binary64) : Denotes .temperature (.float x) x
  | wholeTemperature (n : Int) : Denotes .temperature (.integer n) (Binary64.ofInt n)
  | returnFullText (b : Bool) : Denotes .returnFullText (.bool b) b
  | noTimeout : Denotes .requestTimeout .null none
  | requestTimeout (n : Nat) (fits : n < 0x10000000000000000) : Denotes .requestTimeout (.integer n) (some n)

/-- The value of a setting. -/
def get : (k : Key) → Settings → k.Value
  | apiUrl, settings => settings.apiUrl
  | apiKeyEnv, settings => settings.apiKeyEnv
  | maxNewTokens, settings => settings.maxNewTokens
  | temperature, settings => settings.temperature
  | returnFullText, settings => settings.returnFullText
  | requestTimeout, settings => settings.requestTimeout

/-- What is read as the value of a setting. -/
def read? : (k : Key) → Data → Option k.Value
  | apiUrl | apiKeyEnv => text?
  | maxNewTokens => natBelow? 0x100000000
  | temperature => binary64?
  | returnFullText => bool?
  | requestTimeout => nullable? (natBelow? 0x10000000000000000)

end Key

/-- A value is read from exactly its own data. -/
theorem Key.read?_eq_some_iff {k : Key} {d : Data} {v : k.Value} : k.read? d = some v ↔ k.Denotes d v := by
  constructor
  · intro read
    cases k with
    | apiUrl => cases text?_eq_some_iff.1 read; exact .apiUrl v
    | apiKeyEnv => cases text?_eq_some_iff.1 read; exact .apiKeyEnv v
    | maxNewTokens =>
      obtain ⟨rfl, fits⟩ := natBelow?_eq_some_iff.1 read
      exact .maxNewTokens v fits
    | temperature =>
      cases d with
      | integer n => cases read; exact .wholeTemperature n
      | float x => cases read; exact .temperature v
      | _ => cases read
    | returnFullText =>
      cases d with
      | bool b => cases read; exact .returnFullText v
      | _ => cases read
    | requestTimeout =>
      obtain ⟨rfl, rfl⟩ | ⟨-, n, number, rfl⟩ := nullable?_eq_some_iff.1 read
      · exact .noTimeout
      · obtain ⟨rfl, fits⟩ := natBelow?_eq_some_iff.1 number
        exact .requestTimeout n fits
  · intro denotes
    cases denotes with
    | maxNewTokens n fits =>
      have read : natBelow? 0x100000000 (.integer n) = some n := natBelow?_eq_some_iff.2 ⟨rfl, fits⟩
      exact read
    | requestTimeout n fits =>
      have read : natBelow? 0x10000000000000000 (.integer n) = some n := natBelow?_eq_some_iff.2 ⟨rfl, fits⟩
      have timeout : nullable? (natBelow? 0x10000000000000000) (.integer n) = some (some n) :=
        nullable?_eq_some_iff.2 (.inr ⟨nofun, n, read, rfl⟩)
      exact timeout
    | _ => rfl

/-- A number of tokens is the integer that stands for it, never another one that it is reduced to. -/
theorem Key.Denotes.fits {m : Int} {n : Nat} (denotes : Key.Denotes .maxNewTokens (.integer m) n) :
    m = n ∧ n < 0x100000000 := by
  cases denotes with
  | maxNewTokens n fits => exact ⟨rfl, fits⟩

/-- What members say of a setting: nothing where it is absent, and its value where it is there once. -/
inductive Changed (members : List (Text × Data)) (k : Key) : Option k.Value → Prop where
  | nothing (without : Without k.name members) : Changed members k none
  | value (once : Once k.name d members) (denotes : k.Denotes d v) : Changed members k (some v)

/-- A setting that spoils its members: there several times, or with data that are no value of it. -/
inductive Spoilt (k : Key) (members : List (Text × Data)) : Prop where
  | repeated (several : Repeated k.name members)
  | refused (once : Once k.name d members) (other : ∀ v, ¬ k.Denotes d v)

/-- What is read of a setting from members. -/
def setting? (members : List (Text × Data)) (k : Key) : Option k.Value :=
  (member? members k.name).bind (default? (k.get initial) k.read?)

theorem setting?_eq_some_iff {members : List (Text × Data)} {k : Key} {v : k.Value} :
    setting? members k = some v ↔ ∃ change, Changed members k change ∧ change.getD (k.get initial) = v := by
  simp only [setting?, Option.bind_eq_some_iff]
  constructor
  · rintro ⟨field, found, read⟩
    cases field with
    | none =>
      cases read
      exact ⟨none, .nothing (member?_eq_absent_iff.1 found), rfl⟩
    | some d => exact ⟨some v, .value (member?_eq_present_iff.1 found) (Key.read?_eq_some_iff.1 read), rfl⟩
  · rintro ⟨_, without | ⟨once, denotes⟩, rfl⟩
    · exact ⟨none, member?_eq_absent_iff.2 without, rfl⟩
    · exact ⟨some _, member?_eq_present_iff.2 once, Key.read?_eq_some_iff.2 denotes⟩

theorem setting?_eq_none_iff {members : List (Text × Data)} {k : Key} :
    setting? members k = none ↔ Spoilt k members := by
  constructor
  · intro nothing
    rw [setting?] at nothing
    cases found : member? members k.name with
    | none => exact .repeated (member?_eq_none_iff.1 found)
    | some field =>
      rw [found, Option.bind_some] at nothing
      cases field with
      | none => cases nothing
      | some d =>
        refine .refused (member?_eq_present_iff.1 found) fun v denotes => ?_
        cases (Key.read?_eq_some_iff.2 denotes).symm.trans nothing
  · rintro (several | ⟨once, other⟩)
    · rw [setting?, member?_eq_none_iff.2 several, Option.bind_none]
    · rw [setting?, member?_eq_present_iff.2 once, Option.bind_some]
      exact Option.eq_none_iff_forall_ne_some.2 fun v read => other v (Key.read?_eq_some_iff.1 read)

/-! ## All settings -/

/-- A record gives settings where each of them is read from its members. -/
theorem ofData?_record_eq_some_iff {members : List (Text × Data)} {settings : Settings} :
    ofData? allowed (.record members) = some settings ↔ ∀ k : Key, setting? members k = some (k.get settings) := by
  rw [ofData?, Option.bind_eq_some_iff]
  constructor
  · rintro ⟨fields, found, read⟩ k
    have each := mapM_eq_some_iff.1 found
    simp only [names, List.map_cons, List.map_nil, List.forall₂_cons_left_iff, List.forall₂_nil_left_iff] at each
    obtain ⟨url, _, urlFound, ⟨key, _, keyFound, ⟨tokens, _, tokensFound, ⟨temperature, _, temperatureFound,
      ⟨full, _, fullFound, ⟨timeout, _, timeoutFound, rfl, rfl⟩, rfl⟩, rfl⟩, rfl⟩, rfl⟩, rfl⟩ := each
    simp only [ofFields?, Option.bind_eq_bind, Option.bind_eq_some_iff, Option.pure_def, Option.some.injEq] at read
    obtain ⟨_, urlRead, _, keyRead, _, tokensRead, _, temperatureRead, _, fullRead, _, timeoutRead, rfl⟩ := read
    apply Option.bind_eq_some_iff.2
    cases k with
    | apiUrl => exact ⟨url, urlFound, urlRead⟩
    | apiKeyEnv => exact ⟨key, keyFound, keyRead⟩
    | maxNewTokens => exact ⟨tokens, tokensFound, tokensRead⟩
    | temperature => exact ⟨temperature, temperatureFound, temperatureRead⟩
    | returnFullText => exact ⟨full, fullFound, fullRead⟩
    | requestTimeout => exact ⟨timeout, timeoutFound, timeoutRead⟩
  · intro each
    obtain ⟨url, urlFound, urlRead⟩ := Option.bind_eq_some_iff.1 (each .apiUrl)
    obtain ⟨key, keyFound, keyRead⟩ := Option.bind_eq_some_iff.1 (each .apiKeyEnv)
    obtain ⟨tokens, tokensFound, tokensRead⟩ := Option.bind_eq_some_iff.1 (each .maxNewTokens)
    obtain ⟨temperature, temperatureFound, temperatureRead⟩ := Option.bind_eq_some_iff.1 (each .temperature)
    obtain ⟨full, fullFound, fullRead⟩ := Option.bind_eq_some_iff.1 (each .returnFullText)
    obtain ⟨timeout, timeoutFound, timeoutRead⟩ := Option.bind_eq_some_iff.1 (each .requestTimeout)
    refine ⟨[url, key, tokens, temperature, full, timeout], mapM_eq_some_iff.2 ?_, ?_⟩
    · exact .cons urlFound (.cons keyFound (.cons tokensFound (.cons temperatureFound
        (.cons fullFound (.cons timeoutFound .nil)))))
    · simp only [ofFields?, Option.bind_eq_bind, Option.bind_eq_some_iff, Option.pure_def, Option.some.injEq]
      exact ⟨_, urlRead, _, keyRead, _, tokensRead, _, temperatureRead, _, fullRead, _, timeoutRead, rfl⟩

/-- A record gives no settings where one of them is spoilt. -/
theorem ofData?_record_of_spoilt (spoilt : Spoilt k members) : ofData? allowed (.record members) = none := by
  refine Option.eq_none_iff_forall_ne_some.2 fun settings given => ?_
  cases (setting?_eq_none_iff.2 spoilt).symm.trans (ofData?_record_eq_some_iff.1 given k)

theorem ofData?_record_perm {members others : List (Text × Data)} (perm : members.Perm others) :
    ofData? allowed (.record members) = ofData? allowed (.record others) := by
  have same (k : Key) : setting? members k = setting? others k := by
    rw [setting?, setting?, member?_perm perm]
  refine Option.ext fun settings => ?_
  simp only [ofData?_record_eq_some_iff, same]

/-! ## Changes of the initial settings -/

/-- New values of some settings. -/
def Changes : Type :=
  (k : Key) → Option k.Value

/-- Settings where the changed ones have their new values. -/
def override (settings : Settings) (changes : Changes) : Settings where
  apiUrl := (changes .apiUrl).getD settings.apiUrl
  apiKeyEnv := (changes .apiKeyEnv).getD settings.apiKeyEnv
  maxNewTokens := (changes .maxNewTokens).getD settings.maxNewTokens
  temperature := (changes .temperature).getD settings.temperature
  returnFullText := (changes .returnFullText).getD settings.returnFullText
  requestTimeout := (changes .requestTimeout).getD settings.requestTimeout

/-- Each setting is overridden by its own change and by no other one. -/
@[simp] theorem get_override (settings : Settings) (changes : Changes) (k : Key) :
    k.get (override settings changes) = (changes k).getD (k.get settings) := by
  cases k <;> rfl

/-- Members that say all of some changes and nothing of the other settings. -/
def Tells (members : List (Text × Data)) (changes : Changes) : Prop :=
  ∀ k, Changed members k (changes k)

/-- Members tell changes unless they spoil a setting. -/
theorem tells_or_spoilt (members : List (Text × Data)) :
    (∃ changes, Tells members changes) ∨ ∃ k, Spoilt k members := by
  by_cases spoilt : ∃ k, Spoilt k members
  · exact .inr spoilt
  · refine .inl (Classical.skolem.1 fun k => ?_)
    cases read : setting? members k with
    | none => exact absurd ⟨k, setting?_eq_none_iff.1 read⟩ spoilt
    | some v =>
      obtain ⟨change, changed, -⟩ := setting?_eq_some_iff.1 read
      exact ⟨change, changed⟩

/-- A record with changes gives the initial settings with these changes. -/
theorem ofData?_record_of_tells (tells : Tells members changes) :
    ofData? allowed (.record members) = some (override initial changes) := by
  refine ofData?_record_eq_some_iff.2 fun k => setting?_eq_some_iff.2 ?_
  exact ⟨changes k, tells k, (get_override initial changes k).symm⟩

/-! ## Whole documents -/

private theorem ofDocument?_record (allowed : Nat → Nat → Bool) (document : List (Text × Data)) :
    ofDocument? allowed (.record document) =
      (member? document sectionName).bind (default? initial (ofData? (allowed names.length))) := by
  rw [ofDocument?, fields?_record_singleton]
  cases member? document sectionName <;> rfl

/-- The settings of a JSON text are those of its document. -/
private theorem ofJson?_of_document (text : Document (.record document) s) :
    ofJson? s = (member? document sectionName).bind
      (default? initial (ofData? fun items => items ≤ names.length)) := by
  rw [ofJson?, read?_eq_some_iff.2 text, Option.bind_some, ofDocument?_record]

private theorem ofJson?_of_once (text : Document (.record document) s) (once : Once sectionName d document) :
    ofJson? s = ofData? (fun items => items ≤ names.length) d := by
  rw [ofJson?_of_document text, member?_eq_present_iff.2 once, Option.bind_some, default?]

/-- Settings replace exactly what a document says of them. Without their section they are the initial ones, and
with a section that is a record, each of them has the value that it has there, if it is there, whatever stands
around it and in whatever order. A setting that is there several times or with other data spoils the whole, and
so does such a section. -/
theorem document_overrides_settings (text : Document (.record document) s) :
    (Without sectionName document → ofJson? s = some initial) ∧
      (Repeated sectionName document → ofJson? s = none) ∧
      (∀ d, Once sectionName d document → (∀ members, d ≠ .record members) → (∀ items, d ≠ .list items) →
        ofJson? s = none) ∧
      ∀ members, Once sectionName (.record members) document →
        (∀ changes, Tells members changes → ofJson? s = some (override initial changes)) ∧
        (∀ k, Spoilt k members → ofJson? s = none) ∧
        ((∃ changes, Tells members changes) ∨ ∃ k, Spoilt k members) ∧
        ∀ t other others, Document (.record other) t → Once sectionName (.record others) other →
          members.Perm others → ofJson? t = ofJson? s := by
  refine ⟨?_, ?_, ?_, ?_⟩
  · intro without
    rw [ofJson?_of_document text, member?_eq_absent_iff.2 without]
    rfl
  · intro several
    rw [ofJson?_of_document text, member?_eq_none_iff.2 several, Option.bind_none]
  · intro d once noRecord noList
    rw [ofJson?_of_once text once]
    cases d with
    | record members => exact absurd rfl (noRecord members)
    | list items => exact absurd rfl (noList items)
    | _ => rfl
  · intro members once
    refine ⟨?_, ?_, tells_or_spoilt members, ?_⟩
    · intro changes tells
      rw [ofJson?_of_once text once, ofData?_record_of_tells tells]
    · intro k spoilt
      rw [ofJson?_of_once text once, ofData?_record_of_spoilt spoilt]
    · intro t other others otherText otherOnce perm
      rw [ofJson?_of_once text once, ofJson?_of_once otherText otherOnce, ofData?_record_perm perm]

/-- A member that is passed over, a number of tokens and no timeout. -/
private abbrev notes : Text × Data := ("notes".toList, .list [.integer 1])
private abbrev tokens : Text × Data := ("max_new_tokens".toList, .integer 64)
private abbrev timeout : Text × Data := ("request_timeout_secs".toList, .null)

private def changes : Changes
  | .maxNewTokens => some (64 : Nat)
  | .requestTimeout => some (none : Option Nat)
  | _ => none

private theorem tells_changes : Tells [notes, tokens, timeout] changes := by
  intro k
  cases k with
  | maxNewTokens =>
    have once : Once (Key.name .maxNewTokens) (.integer (64 : Nat)) [notes, tokens, timeout] :=
      ⟨[notes], [timeout], rfl, by decide, by decide⟩
    exact .value once (.maxNewTokens 64 (by decide))
  | requestTimeout =>
    have once : Once (Key.name .requestTimeout) .null [notes, tokens, timeout] :=
      ⟨[notes, tokens], [], rfl, by decide, by decide⟩
    exact .value once .noTimeout
  | _ => exact .nothing (by decide)

private theorem once_section (members : List (Text × Data)) :
    Once sectionName (.record members) [(sectionName, .record members)] :=
  ⟨[], [], rfl, List.forall_mem_nil _, List.forall_mem_nil _⟩

private def told : Text :=
  "\x7b\"service\": \x7b\"notes\": [1], \"max_new_tokens\": 64, \"request_timeout_secs\": null\x7d\x7d".toList

private def reordered : Text :=
  "\x7b\"service\": \x7b\"request_timeout_secs\": null, \"notes\": [1], \"max_new_tokens\": 64\x7d\x7d".toList

private def tooLarge : Text :=
  "\x7b\"service\": \x7b\"max_new_tokens\": 4294967296\x7d\x7d".toList

private theorem told_document : Document (.record [(sectionName, .record [notes, tokens, timeout])]) told :=
  read?_eq_some_iff.1 (by cbv)

private theorem reordered_document :
    Document (.record [(sectionName, .record [timeout, notes, tokens])]) reordered :=
  read?_eq_some_iff.1 (by cbv)

private theorem tooLarge_document :
    Document (.record [(sectionName, .record [("max_new_tokens".toList, .integer 4294967296)])]) tooLarge :=
  read?_eq_some_iff.1 (by cbv)

theorem section_overrides_settings :
    ofJson? "\x7b \x7d".toList = some initial ∧ ofJson? told = some { initial with maxNewTokens := 64 } ∧
      ofJson? reordered = ofJson? told ∧ ofJson? tooLarge = none := by
  refine ⟨?_, ?_, ?_, ?_⟩
  · have text : Document (.record []) "\x7b \x7d".toList := read?_eq_some_iff.1 (by cbv)
    exact (document_overrides_settings text).1 (List.forall_mem_nil _)
  · exact ((document_overrides_settings told_document).2.2.2 _ (once_section _)).1 changes tells_changes
  · have perm : ([notes, tokens] ++ [timeout]).Perm ([timeout] ++ [notes, tokens]) := List.perm_append_comm
    exact ((document_overrides_settings told_document).2.2.2 _ (once_section _)).2.2.2 _ _ _ reordered_document
      (once_section _) perm
  · have once : Once (Key.name .maxNewTokens) (.integer 4294967296)
        [("max_new_tokens".toList, .integer 4294967296)] :=
      ⟨[], [], rfl, List.forall_mem_nil _, List.forall_mem_nil _⟩
    have other (n : Nat) : ¬ Key.Denotes .maxNewTokens (.integer 4294967296) n := by
      intro denotes
      obtain ⟨same, fits⟩ := denotes.fits
      omega
    exact ((document_overrides_settings tooLarge_document).2.2.2 _ (once_section _)).2.1 .maxNewTokens
      (.refused once other)

end ColumnLineage.SettingsOverride
