import SearchJoin.Error
import SearchJoin.Http.Status
import SearchJoin.Http.Url

/-!
# Faults of calls over HTTP

Why a call to a backend over HTTP fails.
-/

namespace SearchJoin.Http

/-- Why a call failed. -/
inductive Fault where
  /-- The address is no URL, or the authorisation cannot stand in a header. -/
  | unsendable
  /-- The address is a URL to which no messages can be sent. -/
  | foreign (url : Url)
  /-- The backend cannot be reached. -/
  | unreachable (url : Url)
  /-- The reply is an error. -/
  | rejected (status : Status) (body : String)
  /-- The reply to a search cannot be read. -/
  | unreadableSearch
  /-- The reply to several searches cannot be read. -/
  | unreadableMultiSearch
  /-- The reply does not have one entry for each search. -/
  | responseCount (responses requests : Nat)

namespace Fault

/-- The fault in words. -/
def message : Fault → String
  | .unsendable => "request failed: builder error"
  | .foreign url => s!"request failed: builder error for url ({url.text})"
  | .unreachable url => s!"request failed: error sending request for url ({url.text})"
  | .rejected status body => s!"backend error {status.text}: {body}"
  | .unreadableSearch => "failed to parse search response: error decoding response body"
  | .unreadableMultiSearch => "failed to parse multi search response: error decoding response body"
  | .responseCount responses requests =>
    s!"multi search returned {responses} responses for {requests} requests"

/-- The fault as an error of the library. -/
def toError (fault : Fault) : Error := .transport fault.message

end Fault

end SearchJoin.Http
