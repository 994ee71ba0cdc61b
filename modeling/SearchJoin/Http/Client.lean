import SearchJoin.Backend.Session
import SearchJoin.Http.Message
import SearchJoin.Json.Parser

/-!
# A backend over HTTP

The client sends messages by an exchange, which brings a reply or cannot reach the backend, and
reads the replies.
-/

namespace SearchJoin.Http

/-- What a backend replies to a message. -/
structure Reply where
  /-- The status. -/
  status : Status
  /-- The body. -/
  body : String

/-- How messages are exchanged for replies; none when the backend cannot be reached. -/
abbrev Exchange := Message → Option Reply

/-! ## Reading replies -/

/-- The total of hits: a number, or an object that holds it as `value`. -/
def total? : Json → Option UInt64
  | .obj fields => (Json.fieldOnce? "value" fields).bind (Json.required? Json.uint64?)
  | json => json.uint64?

/-- The hits of a reply. Without a total the documents are counted. -/
def hits? (json : Json) : Option Hits := do
  let [total, documents] ← json.record? ["total", "hits"] | none
  let total ← Json.optional? total? total
  let documents ← Json.defaulted? [] (Json.list? Document.ofJson?) documents
  return ⟨total.getD (.ofNat documents.length), documents⟩

/-- The reply to a search. -/
def searchReply? (json : Json) : Option Hits := do
  let [hits] ← json.record? ["hits"] | none
  Json.required? hits? hits

/-- An entry of the reply to several searches. -/
structure Entry where
  /-- The hits. -/
  hits : Option Hits
  /-- Why the search failed. -/
  error : Option Value

/-- Reads an entry. -/
def Entry.ofJson? (json : Json) : Option Entry := do
  let [hits, error] ← json.record? ["hits", "error"] | none
  return {
    hits := ← Json.optional? hits? hits
    error := ← Json.optional? (fun error => some (.ofJson error)) error }

/-- What an entry says: an error counts more than hits. -/
def Entry.answer : Entry → Answer
  | ⟨_, some error⟩ => .failed error.json.compress
  | ⟨some hits, none⟩ => .hits hits
  | ⟨none, none⟩ => .failed "response has no hits"

/-- The reply to several searches. -/
def multiSearchReply? (json : Json) : Option (List Entry) := do
  let [responses] ← json.record? ["responses"] | none
  Json.required? (Json.list? Entry.ofJson?) responses

/-! ## Calls -/

/-- The body of a reply that is a success. -/
def send (exchange : Exchange) (message : Message) : Except Fault String :=
  match exchange message with
  | none => .error (.unreachable message.url)
  | some reply =>
    if reply.status.isSuccess then .ok reply.body
    else .error (.rejected reply.status reply.body)

/-- Sends a search. -/
def search (settings : TransportSettings) (exchange : Exchange) (request : Request) :
    Except Fault Hits := do
  let body ← send exchange (← searchMessage settings request)
  match (Json.receive? body).bind searchReply? with
  | some hits => return hits
  | none => throw .unreadableSearch

/-- The answers of entries, one for each of some requests. -/
def answers (requests : List Request) (entries : List Entry) : Except Fault (List Answer) :=
  if entries.length = requests.length then .ok (entries.map Entry.answer)
  else .error (.responseCount entries.length requests.length)

/-- Sends several searches together; no search needs no message. -/
def multiSearch (settings : TransportSettings) (exchange : Exchange) (requests : List Request) :
    Except Fault (List Answer) := do
  if requests.isEmpty then return []
  let body ← send exchange (← multiSearchMessage settings requests)
  match (Json.receive? body).bind multiSearchReply? with
  | some entries => answers requests entries
  | none => throw .unreadableMultiSearch

end SearchJoin.Http
