import SearchJoin.Text.Blank
import SearchJoin.Text.Digits

/-!
# Hints

A hint asks a join for something. It stands in a comment of the statement as `NAME` or
`NAME(parameter, …)`; `Hint.parse` reads it and `Hint.text` writes it.
-/

namespace SearchJoin

/-- One of the two tables of a join. -/
inductive Side where
  /-- The table that the statement names first. -/
  | first
  /-- The joined table. -/
  | second
  deriving DecidableEq

namespace Side

/-- The other side. -/
def other : Side → Side
  | .first => .second
  | .second => .first

/-- The name of the side. -/
def name : Side → String
  | .first => "first"
  | .second => "second"

end Side

/-- The kinds of hints. -/
inductive HintKind where
  /-- See `Hint.forceNestedLoop`. -/
  | forceNestedLoop
  /-- See `Hint.multiSearchSize`. -/
  | multiSearchSize
  /-- See `Hint.joinLimit`. -/
  | joinLimit
  /-- See `Hint.hashBuildSide`. -/
  | hashBuildSide
  deriving DecidableEq

/-- A wish for the execution of a join. -/
inductive Hint where
  /-- Use a nested loop even where keys could be hashed. -/
  | forceNestedLoop
  /-- Send at most this many sub-queries in one call. -/
  | multiSearchSize (size : UInt64)
  /-- Fetch at most these many rows of each table. -/
  | joinLimit (first second : UInt64)
  /-- Build the key set from this side. -/
  | hashBuildSide (side : Side)
  deriving DecidableEq

/-- What is wrong with the text of a hint. -/
inductive HintFault where
  /-- An opening parenthesis has no closing one at the end. -/
  | unbalanced (text : String)
  /-- No hint has this name. -/
  | unknownName (name : String)
  /-- The number of parameters is not the expected one. -/
  | parameterCount (name : String) (expected given : Nat)
  /-- A parameter is no positive count. -/
  | notPositive (name parameter : String)
  /-- A parameter names neither side. -/
  | notSide (parameter : String)
  /-- A fault in the words of a caller. -/
  | stated (words : String)

/-- The fault in words. -/
def HintFault.message : HintFault → String
  | .unbalanced text => s!"unbalanced parentheses in '{text}'"
  | .unknownName name => s!"unknown hint '{name}'"
  | .parameterCount name expected given => s!"{name} takes {expected} parameter(s), got {given}"
  | .notPositive name parameter => s!"{name} expects a positive integer, got '{parameter}'"
  | .notSide parameter => s!"HASH_BUILD_SIDE expects first or second, got '{parameter}'"
  | .stated words => words

namespace Hint

/-- The kind of a hint. -/
def kind : Hint → HintKind
  | .forceNestedLoop => .forceNestedLoop
  | .multiSearchSize _ => .multiSearchSize
  | .joinLimit _ _ => .joinLimit
  | .hashBuildSide _ => .hashBuildSide

/-- The text of a hint. -/
def text : Hint → String
  | .forceNestedLoop => "FORCE_NESTED_LOOP"
  | .multiSearchSize size => s!"NL_MULTISEARCH_SIZE({size})"
  | .joinLimit first second => s!"JOIN_LIMIT({first}, {second})"
  | .hashBuildSide side => s!"HASH_BUILD_SIDE({side.name})"

/-- The text of a hint without blanks and comment marks around it. -/
def stripComment (cs : List Char) : List Char :=
  let opened := Text.dropCopies ['/', '*'] (Text.dropCopies ['/', '*', '!'] (Text.trim cs))
  Text.trim (Text.dropCopiesEnd ['*', '/'] opened)

/-- The name and the parameters, blank parameters left out; none when an opening parenthesis has no
closing one at the end. -/
def parts? (cs : List Char) : Option (List Char × List (List Char)) :=
  match cs.dropWhile (· ≠ '(') with
  | [] => some (cs, [])
  | _ :: inside =>
    let reversed := inside.reverse
    match reversed.dropWhile (· ≠ ')') with
    | [] => none
    | _ :: list =>
      if (reversed.takeWhile (· ≠ ')')).all Text.isBlank then
        let parameters := (Text.split ',' list.reverse).map Text.trim
        some (Text.trim (cs.takeWhile (· ≠ '(')), parameters.filter (· ≠ []))
      else none

/-- A parameter that counts something: a positive word. -/
def count (name : String) (parameter : List Char) : Except HintFault UInt64 :=
  match Text.word? parameter with
  | some n => if n = 0 then .error (.notPositive name (.ofList parameter)) else .ok n
  | none => .error (.notPositive name (.ofList parameter))

/-- A parameter that names a side, in any case. -/
def side (parameter : List Char) : Except HintFault Side :=
  match String.ofList (Text.lower parameter) with
  | "first" => .ok .first
  | "second" => .ok .second
  | other => .error (.notSide other)

/-- The hint of a name, in any case, and parameters. -/
def ofParts (name : String) (parameters : List (List Char)) : Except HintFault Hint :=
  let wrongCount expected := Except.error (.parameterCount name expected parameters.length)
  match String.ofList (Text.upper name.toList) with
  | "FORCE_NESTED_LOOP" | "USE_NESTED_LOOPS" =>
    match parameters with
    | [] => .ok .forceNestedLoop
    | _ => wrongCount 0
  | "NL_MULTISEARCH_SIZE" =>
    match parameters with
    | [size] => do return .multiSearchSize (← count name size)
    | _ => wrongCount 1
  | "JOIN_LIMIT" =>
    match parameters with
    | [first, second] => do
      let first ← count name first
      let second ← count name second
      return .joinLimit first second
    | _ => wrongCount 2
  | "HASH_BUILD_SIDE" =>
    match parameters with
    | [side] => do return .hashBuildSide (← Hint.side side)
    | _ => wrongCount 1
  | _ => .error (.unknownName name)

/-- Reads a hint: `NAME` or `NAME(parameter, …)` in any case, in a comment or not. -/
def parse (text : String) : Except HintFault Hint :=
  match parts? (stripComment text.toList) with
  | some (name, parameters) => ofParts (.ofList name) parameters
  | none => .error (.unbalanced text)

end Hint

end SearchJoin
