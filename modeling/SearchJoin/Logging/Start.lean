import SearchJoin.Error
import SearchJoin.Settings.Basic

/-!
# Starting the log

The log can be started once, in a format that is known.
-/

namespace SearchJoin.Logging

/-- Why the log cannot be started. -/
inductive StartFault where
  /-- The format is not known. -/
  | unknownFormat (format : String)
  /-- The log has been started before. -/
  | startedBefore

/-- The fault in words. -/
def StartFault.message : StartFault → String
  | .unknownFormat format => s!"unknown log format '{format}'"
  | .startedBefore => "failed to install tracing subscriber: " ++
      "a global default trace dispatcher has already been set"

/-- The fault as an error of the library. -/
def StartFault.toError (fault : StartFault) : Error := .config fault.message

/-- Starts the log. -/
def start (startedBefore : Bool) (settings : LoggingSettings) : Except StartFault Unit :=
  if settings.format ≠ "text" ∧ settings.format ≠ "json" then
    .error (.unknownFormat settings.format)
  else if startedBefore then .error .startedBefore
  else .ok ()

end SearchJoin.Logging
