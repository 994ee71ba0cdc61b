import SearchJoin.Backend.Session

/-!
# Backends that answer from a script

The script has an answer for the first search, the second, and so on, and likewise for the calls
with several searches. Batches complete in the order of their numbers.
-/

namespace SearchJoin

/-- Answers that are known beforehand. -/
structure Script where
  /-- The answers to single searches. -/
  searches : List (Except Error Hits) := []
  /-- The answers to calls with several searches. -/
  multiSearches : List Outcome := []

namespace Script

/-- What a call beyond the script is answered. -/
def exhausted : Error := .transport "no scripted response"

/-- The backend of a script. -/
def backend (script : Script) : Backend where
  search calls _ := script.searches[(calls.filterMap Call.search?).length]?.getD (.error exhausted)
  multiSearch calls batch _ :=
    script.multiSearches[(calls.filterMap Call.multiSearch?).length + batch]?.getD
      (.error exhausted)
  order _ := List.range
  order_schedule _ _ hpermits := .of_perm hpermits (.refl _)

end Script

end SearchJoin
