import SearchJoin.Http.Base64
import SearchJoin.Http.Fault
import SearchJoin.Query.Request
import SearchJoin.Settings.Basic

/-!
# Messages to a backend over HTTP

A search is a `POST` of its body. Searches that are sent together are a `POST` of lines: for each
search a line that names its index and a line that is its body.
-/

namespace SearchJoin.Http

/-- A `POST` request. -/
structure Message where
  /-- Where it goes. -/
  url : Url
  /-- The type of its body. -/
  contentType : String
  /-- What it is authorised by. -/
  authorization : Option String
  /-- The body. -/
  body : String

/-- The address of the backend, without slashes at its end. -/
def baseAddress (settings : TransportSettings) : List Char :=
  (settings.url.toList.reverse.dropWhile (· = '/')).reverse

/-- The address for searches of an index. -/
def searchAddress (settings : TransportSettings) (index : String) : List Char :=
  baseAddress settings ++ ['/'] ++ index.toList.dropWhile (· = '/') ++ "/_search".toList

/-- The address for searches that are sent together. -/
def multiSearchAddress (settings : TransportSettings) : List Char :=
  baseAddress settings ++ "/_msearch".toList

/-- What messages are authorised by: a key, or else a user with a password. -/
def authorization (settings : TransportSettings) : Option String :=
  match settings.apiKey, settings.username, settings.password with
  | some key, _, _ => some s!"ApiKey {key}"
  | none, some user, some password =>
    some ("Basic " ++ .ofList (Base64.encode s!"{user}:{password}".toUTF8.toList))
  | _, _, _ => none

/-- The character may stand in a header. -/
def isHeaderChar (c : Char) : Bool := (c.toNat ≥ 0x20 && c.toNat ≠ 0x7F) || c = '\t'

/-- A message to an address. -/
def message (settings : TransportSettings) (address : List Char) (contentType body : String) :
    Except Fault Message :=
  match Url.ofChars? address with
  | none => .error .unsendable
  | some url =>
    let authorization := authorization settings
    if !url.namesHost then .error (.foreign url)
    else if !(authorization.getD "").toList.all isHeaderChar then .error .unsendable
    else if url.isSendable then .ok { url, contentType, authorization, body }
    else .error (.foreign url)

/-- The message of a search. -/
def searchMessage (settings : TransportSettings) (request : Request) : Except Fault Message :=
  message settings (searchAddress settings request.index) "application/json" request.body.compress

/-- The two lines of a search that is sent with others. -/
def requestLines (request : Request) : String :=
  (Json.obj [("index", .str request.index)]).compress ++ "\n" ++ request.body.compress ++ "\n"

/-- The body of searches that are sent together. -/
def multiSearchBody (requests : List Request) : String := String.join (requests.map requestLines)

/-- The message of searches that are sent together. -/
def multiSearchMessage (settings : TransportSettings) (requests : List Request) :
    Except Fault Message :=
  message settings (multiSearchAddress settings) "application/x-ndjson" (multiSearchBody requests)

end SearchJoin.Http
