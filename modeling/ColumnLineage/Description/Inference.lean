import ColumnLineage.Description.Authority
import ColumnLineage.Description.Service
import ColumnLineage.Json.Reading
import ColumnLineage.Json.Writing
import ColumnLineage.Settings.Basic

/-!
The client of a text generation server. Each prompt is one request, never repeated, and the server
answers the requests it gets one after another. Without a key, with an address that leads nowhere,
with a key that no header can hold or with no time to wait nothing is sent. Where the clock cannot
show the end of the wait, the whole run breaks off.
-/

namespace ColumnLineage.Description

open Decimal (Binary64)

/-- What a server does with one request: it answers, with all of a body or only some of it, or it
gives no answer. -/
inductive Response where
  | answer (status : Nat) (body : Bytes)
  | truncated (status : Nat)
  | dropped

/-- A request as the server gets it. -/
structure Request where
  method : String
  path : Text
  authorization : Text
  contentType : String
  body : Text
  deriving DecidableEq

/-- The exchange with a server: the server in reach, what is known of the names of hosts, the second
that the clock shows, the responses that the server still has and the requests it got, and whether
the run has broken off. -/
structure Exchange where
  server : Option Text
  names : Names
  clock : Nat
  pending : List Response
  sent : List Request
  brokenOff : Bool

/-- The exchange before the first request. Of names beyond ASCII it is known what can be told
without tables of characters. -/
def Exchange.start (server : Option Text) (clock : Nat) (responses : List Response) : Exchange :=
  ⟨server, .untabled, clock, responses, [], false⟩

/-- The first second that the clock cannot show. -/
def clockEnd : Nat := 0x8000000000000000

/-- A client with its settings and its key: `HuggingFaceClient`. -/
structure InferenceClient where
  settings : Settings
  apiKey : Option Text

namespace InferenceClient

/-- The data of a request: `HuggingFaceClient::request_body`. -/
def requestData (settings : Settings) (prompt : Text) : Data :=
  .record
    [("inputs".toList, .text prompt),
     ("parameters".toList, .record
       [("max_new_tokens".toList, .integer settings.maxNewTokens),
        ("temperature".toList, .float settings.temperature),
        ("return_full_text".toList, .bool settings.returnFullText)])]

/-- The request for a prompt at a path. -/
def request (settings : Settings) (key path prompt : Text) : Request :=
  { method := "POST"
    path := path
    authorization := "Bearer ".toList ++ key
    contentType := "application/json"
    body := Json.write (requestData settings prompt) }

/-- Whether a header can hold a text: no control character but the tab. -/
def fitsHeader (s : Text) : Bool :=
  s.all fun c => c = '\t' || (32 ≤ c.toNat && c.toNat ≠ 127)

/-- The generated text that data hold: `GeneratedText`. -/
def generatedText? (d : Data) : Option Text :=
  match d.fields? ["generated_text".toList] (· = 1) with
  | some [field] => Data.required? Data.text? field
  | _ => none

/-- The answer that the body of a response holds, as `HuggingFaceClient::parse_response` reads it:
the first of the generated texts, all of which have to be texts. -/
def readBody (body : Text) : Except GenerationError Text :=
  match (Json.read? body).bind (Data.listOf? generatedText?) with
  | none => .error (.invalidResponse "not a list of generated texts".toList)
  | some [] => .error (.invalidResponse "empty response array".toList)
  | some (first :: _) => .ok (Text.trim first)

/-- Whether a status ends an exchange. It has three digits, and below two hundred only the one for
another protocol ends anything: the rest announce a response that does not come. -/
def isFinal (status : Nat) : Bool :=
  status = 101 || (200 ≤ status && status ≤ 999)

/-- Whether a response with a status has no body: it changes the protocol, has no content or tells
that nothing changed. -/
def isBodiless (status : Nat) : Bool :=
  status = 101 || status = 204 || status = 304

/-- The answer that a status and all of a body give. -/
def readAnswer (status : Nat) (body : Bytes) : Except GenerationError Text :=
  let text := if isBodiless status then [] else body.decodeLenient
  if !isFinal status then .error (.network "no final response".toList)
  else if 200 ≤ status ∧ status ≤ 299 then readBody text
  else .error (.status status text)

/-- The answer that a response gives. One that has no body misses nothing of it. -/
def readResponse : Option Response → Except GenerationError Text
  | some (.answer status body) => readAnswer status body
  | some (.truncated status) =>
    if isBodiless status then readAnswer status []
    else .error (.network "incomplete response".toList)
  | some .dropped | none => .error (.network "no response".toList)

/-- The path of the requests to the server in reach, if the address of the settings leads to it, a
header can hold the key and there is time to wait. -/
def path? (settings : Settings) (key : Text) (server : Option Text) : Option Text :=
  if fitsHeader key && settings.requestTimeout ≠ some 0 then
    server.bind (Address.requestTo? · settings.apiUrl)
  else none

/-- Whether a request breaks the run off: it can be made, but the clock cannot show when the wait
for its response ends. -/
def breaksOff (settings : Settings) (key : Text) (names : Names) (clock : Nat) : Bool :=
  fitsHeader key && (Address.destination names settings.apiUrl).hasHost &&
    settings.requestTimeout.any fun seconds => clockEnd ≤ clock + seconds

/-- Sends one request for a prompt and reads the response to it: `HuggingFaceClient::generate`. -/
def generate (client : InferenceClient) (prompt : Text) (exchange : Exchange) :
    Except GenerationError Text × Exchange :=
  match client.apiKey with
  | none => (.error .missingCredential, exchange)
  | some key =>
    if breaksOff client.settings key exchange.names exchange.clock then
      (.error (.network "run broken off".toList), { exchange with brokenOff := true })
    else
      match path? client.settings key exchange.server with
      | none => (.error (.network "request not sent".toList), exchange)
      | some path =>
        (readResponse exchange.pending.head?,
          { exchange with
            pending := exchange.pending.tail
            sent := exchange.sent ++ [request client.settings key path prompt] })

/-- The client as a service, as `HuggingFaceClient` is a `DescriptionService`. -/
def service (client : InferenceClient) : Service Exchange where
  name := "HuggingFace"
  generate := client.generate

end InferenceClient

end ColumnLineage.Description
