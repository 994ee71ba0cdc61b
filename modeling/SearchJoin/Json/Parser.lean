import SearchJoin.Json.Token

/-!
# Reading JSON text

A text is read token by token. The arrays and objects that are open stand on a stack, the innermost
one on top, so reading needs no bound on their number; `receive?` sets one.
-/

namespace SearchJoin.Json

/-- An array or object that is open; what it holds stands last first. -/
inductive Frame where
  /-- An array. -/
  | arr (items : List Json)
  /-- An object that awaits a name or its end. -/
  | obj (fields : List (String × Json))
  /-- An object that awaits the value under a name. -/
  | field (fields : List (String × Json)) (name : String)

/-- What has to follow. -/
inductive Awaited where
  /-- A value. -/
  | value
  /-- A value, or the end of an array that is still empty. -/
  | firstItem
  /-- A name. -/
  | name
  /-- A name, or the end of an object that is still empty. -/
  | firstName
  /-- The colon after a name. -/
  | colon
  /-- A comma, or the end of the innermost array or object. -/
  | after

/-- Where reading stands. -/
inductive ParseState where
  /-- Inside the text. -/
  | inside (stack : List Frame) (awaited : Awaited)
  /-- After the value. -/
  | complete (value : Json)

namespace ParseState

/-- Before the first token. -/
def start : ParseState := .inside [] .value

/-- A value is complete and goes into the innermost array or object. -/
def deliver? (value : Json) : List Frame → Option ParseState
  | [] => some (.complete value)
  | .arr items :: stack => some (.inside (.arr (value :: items) :: stack) .after)
  | .field fields name :: stack => some (.inside (.obj ((name, value) :: fields) :: stack) .after)
  | .obj _ :: _ => none

/-- Reads a token where a value may start. -/
def value? (stack : List Frame) : Token → Option ParseState
  | .word value => deliver? value stack
  | .num value => deliver? (.num value) stack
  | .str value => deliver? (.str value) stack
  | .openArr => some (.inside (.arr [] :: stack) .firstItem)
  | .openObj => some (.inside (.obj [] :: stack) .firstName)
  | _ => none

/-- Reads a token where a name has to stand. -/
def name? : List Frame → Token → Option ParseState
  | .obj fields :: stack, .str name => some (.inside (.field fields name :: stack) .colon)
  | _, _ => none

/-- Reads a token that ends the innermost array or object. -/
def close? : List Frame → Token → Option ParseState
  | .arr items :: stack, .closeArr => deliver? (.arr items.reverse) stack
  | .obj fields :: stack, .closeObj => deliver? (.obj fields.reverse) stack
  | _, _ => none

/-- Reads a comma. -/
def comma? : List Frame → Option ParseState
  | .arr items :: stack => some (.inside (.arr items :: stack) .value)
  | .obj fields :: stack => some (.inside (.obj fields :: stack) .name)
  | _ => none

/-- Reads one token. -/
def step? : ParseState → Token → Option ParseState
  | .complete _, _ => none
  | .inside stack .value, token => value? stack token
  | .inside stack .firstItem, .closeArr => close? stack .closeArr
  | .inside stack .firstItem, token => value? stack token
  | .inside stack .firstName, .closeObj => close? stack .closeObj
  | .inside stack .firstName, token => name? stack token
  | .inside stack .name, token => name? stack token
  | .inside stack .colon, .colon => some (.inside stack .value)
  | .inside _ .colon, _ => none
  | .inside stack .after, .comma => comma? stack
  | .inside stack .after, token => close? stack token

/-- Reads all tokens. -/
def run? (state : ParseState) : List Token → Option ParseState
  | [] => some state
  | token :: tokens => (state.step? token).bind fun next => next.run? tokens

end ParseState

/-- The tree of a JSON text, in the order of the text. -/
def ofChars? (cs : List Char) : Option Json :=
  (Token.scan? cs).bind fun tokens =>
    match ParseState.start.run? tokens with
    | some (.complete value) => some value
    | _ => none

/-- How many arrays and objects may stand inside each other in a text that comes from outside. -/
def depthLimit : Nat := 127

/-- The tree of a JSON text that comes from outside. -/
def receive? (text : String) : Option Json :=
  (ofChars? text.toList).bind fun tree => if tree.depth ≤ depthLimit then some tree else none

end SearchJoin.Json
