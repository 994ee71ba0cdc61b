/-!
# Matching a text with a `LIKE` pattern

A pattern is read as a list of tokens. Matching goes through the tokens and keeps the remainders of
the text that are left when the tokens so far have taken a piece from its front.
-/

namespace SearchJoin.Like

/-- A token of a pattern. -/
inductive Token where
  /-- Any characters. -/
  | anyRun
  /-- Any one character. -/
  | anyOne
  /-- One character. -/
  | literal (c : Char)
  deriving DecidableEq

/-- The tokens of a pattern: `%` is any characters and `_` is any one character, a backslash makes
the next character literal, and a backslash at the end is one. -/
def tokens : List Char → List Token
  | [] => []
  | '\\' :: c :: cs => .literal c :: tokens cs
  | ['\\'] => [.literal '\\']
  | '%' :: cs => .anyRun :: tokens cs
  | '_' :: cs => .anyOne :: tokens cs
  | c :: cs => .literal c :: tokens cs

/-- All remainders of a text, the longest first. -/
def remainders : List Char → List (List Char)
  | [] => [[]]
  | c :: cs => (c :: cs) :: remainders cs

/-- The remainder after a character that the token takes. -/
def takeOne? (takes : Char → Bool) : List Char → Option (List Char)
  | [] => none
  | c :: cs => if takes c then some cs else none

/-- What is left when a token takes a piece from the front of each remainder. Remainders stand the
longest first, and any characters can be taken from it to reach all shorter ones. -/
def advance (rests : List (List Char)) : Token → List (List Char)
  | .literal c => rests.filterMap (takeOne? fun d => d = c)
  | .anyOne => rests.filterMap (takeOne? fun _ => true)
  | .anyRun => match rests with
    | [] => []
    | longest :: _ => remainders longest

/-- The text matches the pattern. -/
def isMatch (text pattern : List Char) : Bool :=
  ((tokens pattern).foldl advance [text]).contains []

end SearchJoin.Like
