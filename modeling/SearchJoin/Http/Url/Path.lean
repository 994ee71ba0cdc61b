import SearchJoin.Http.Percent
import SearchJoin.Text.Blank

/-!
# Paths of URLs

A path is made of segments, each behind a slash. The segments `.` and `..` are resolved when a path
is read, and characters that may not stand in it are percent-encoded.
-/

namespace SearchJoin.Http.Path

/-- What is encoded in a path. -/
def encodedSet : List Char := [' ', '"', '#', '<', '>', '?', '\x60', '\x7b', '\x7d']

/-- The character is a slash, or a backslash where these count as slashes. -/
def isSlash (backslashes : Bool) (c : Char) : Bool := c = '/' || (backslashes && c = '\\')

/-- The pieces of a path between slashes. -/
def pieces (backslashes : Bool) (cs : List Char) : List (List Char) :=
  Text.split '/' (cs.map fun c => if isSlash backslashes c then '/' else c)

/-- A piece with its encoded points as points. -/
def plainPoints : List Char → List Char
  | '%' :: '2' :: 'e' :: cs => '.' :: plainPoints cs
  | '%' :: '2' :: 'E' :: cs => '.' :: plainPoints cs
  | c :: cs => c :: plainPoints cs
  | [] => []

/-- The segment names a drive: it is a letter and a colon or a bar. -/
def isDrive : List Char → Bool
  | [letter, mark] => letter.isAlpha && (mark = ':' || mark = '|')
  | _ => false

/-- The segments, the last one first, without the last one. A drive is not left. -/
def parent : List (List Char) → List (List Char)
  | [] => []
  | segment :: path => if isDrive segment then segment :: path else path

/-- The segments of a path, the last one first, after the pieces that are left: `.` stays and `..`
goes back, and either makes an empty segment at the end. -/
def segments (path : List (List Char)) : List (List Char) → List (List Char)
  | [] => path
  | piece :: rest =>
    let after := match plainPoints piece with
      | ['.'] => path
      | ['.', '.'] => parent path
      | _ => Percent.encode encodedSet piece :: path
    let isDot := plainPoints piece = ['.'] ∨ plainPoints piece = ['.', '.']
    segments (if rest = [] ∧ isDot then [] :: after else after) rest

/-- The text without one slash in front. -/
def dropSlash (backslashes : Bool) : List Char → List Char
  | [] => []
  | c :: cs => if isSlash backslashes c then cs else c :: cs

/-- The path that a text denotes, with a slash in front. -/
def read (backslashes : Bool) (cs : List Char) : List Char :=
  (segments [] (pieces backslashes (dropSlash backslashes cs))).reverse.flatMap fun segment =>
    '/' :: segment

end SearchJoin.Http.Path
