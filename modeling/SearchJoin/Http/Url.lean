import SearchJoin.Http.Url.Address
import SearchJoin.Http.Url.Path
import SearchJoin.Text.Reader

/-!
# URLs

A URL is read by the rules of the URL standard and is written in one form: its host is in lower
case, characters that may not stand in a part are percent-encoded, and its path is resolved. The
special schemes, those that the standard knows, have a host and let a backslash stand for a slash.

User information in front of a host is read and left out. Names of hosts are ASCII; other names are
not read.
-/

namespace SearchJoin.Http

/-- The scheme of a URL, in lower case. -/
structure Scheme where
  /-- The name. -/
  name : String
  deriving DecidableEq

namespace Scheme

/-- The port that a URL of the scheme has when it names none. -/
def defaultPort? (scheme : Scheme) : Option Nat :=
  [("http", 80), ("https", 443), ("ws", 80), ("wss", 443), ("ftp", 21)].lookup scheme.name

/-- The scheme of files. -/
def isFile (scheme : Scheme) : Bool := scheme.name == "file"

/-- The standard knows the scheme. -/
def isSpecial (scheme : Scheme) : Bool := scheme.isFile || scheme.defaultPort?.isSome

/-- Messages can be sent by the scheme. -/
def isWeb (scheme : Scheme) : Bool := scheme.name == "http" || scheme.name == "https"

/-- Characters of a scheme's name. -/
def isNameChar (c : Char) : Bool := c.isAlphanum || c = '+' || c = '-' || c = '.'

/-- The scheme of a name, which starts with a letter. -/
def ofChars? (cs : List Char) : Option Scheme :=
  if cs.head?.any Char.isAlpha && cs.all isNameChar then some ⟨.ofList (Text.lower cs)⟩ else none

end Scheme

/-- A URL; its parts are percent-encoded. -/
structure Url where
  /-- The scheme. -/
  scheme : Scheme
  /-- The host, which may be empty. There is none where no host is named behind two slashes. -/
  host : Option (List Char)
  /-- The port, unless it is the scheme's own. -/
  port : Option Nat
  /-- The path. -/
  path : List Char
  /-- The query. -/
  query : Option (List Char) := none
  /-- The fragment. -/
  fragment : Option (List Char) := none

namespace Url

/-! ## Hosts -/

/-- Characters that no host holds. -/
def forbiddenInHost : List Char :=
  [' ', '#', '/', ':', '<', '>', '?', '@', '[', '\\', ']', '^', '|']

/-- A host of a special scheme in its one form: a name in lower case or an address. -/
def domain? (cs : List Char) : Option (List Char) := do
  let name := Text.lower (← Percent.decode? cs)
  guard (name ≠ [] ∧ name.all fun c => !Percent.isOutside c && !('%' :: forbiddenInHost).contains c)
  if IPv4.endsInNumber name then IPv4.normal? name else return name

/-- A host of a scheme that is not special. -/
def opaqueHost? (cs : List Char) : Option (List Char) :=
  if cs.any fun c => c = '\x00' || forbiddenInHost.contains c then none
  else some (Percent.encode [] cs)

/-- A host in its one form. An IPv6 address stands in brackets. -/
def host? (scheme : Scheme) (cs : List Char) : Option (List Char) :=
  match cs with
  | '[' :: inner =>
    if inner.getLast? = some ']' then
      (IPv6.read? inner.dropLast).map fun groups => ['['] ++ IPv6.text groups ++ [']']
    else none
  | _ => if scheme.isSpecial then domain? cs else opaqueHost? cs

/-- A port behind a colon, unless it is the scheme's own. Nothing behind the colon is no port. -/
def port? (scheme : Scheme) : List Char → Option (Option Nat)
  | [] => some none
  | [':'] => some none
  | ':' :: digits => (Text.natural? digits).bind fun n =>
    if n < 65536 then some (if scheme.defaultPort? = some n then none else some n) else none
  | _ => none

/-- A text cut behind a host, at a colon or behind closing brackets. -/
def cutHost (cs : List Char) : List Char × List Char :=
  let n := match cs with
    | '[' :: _ => (cs.takeWhile (· ≠ ']')).length + 1
    | _ => (cs.takeWhile (· ≠ ':')).length
  (cs.take n, cs.drop n)

/-- A host and a port. Only a scheme that is not special can do without a host, where nothing stands
in place of it. -/
def authority? (scheme : Scheme) (cs : List Char) : Option (List Char × Option Nat) := do
  if cs = [] ∧ !scheme.isSpecial then return ([], none)
  let (host, behind) := cutHost (cs.reverse.takeWhile (· ≠ '@')).reverse
  guard (host ≠ [])
  return (← host? scheme host, ← port? scheme behind)

/-! ## Reading -/

/-- The text without control characters and spaces around it, and without tabs and line breaks. -/
def clean (cs : List Char) : List Char :=
  let isEdge (c : Char) : Bool := c.toNat ≤ 0x20
  let inner := ((cs.dropWhile isEdge).reverse.dropWhile isEdge).reverse
  inner.filter fun c => c ≠ '\t' && c ≠ '\n' && c ≠ '\r'

/-- The text before a mark, and the text behind it if there is one. -/
def cut (mark : Char) (cs : List Char) : List Char × Option (List Char) :=
  match cs.dropWhile (· ≠ mark) with
  | [] => (cs, none)
  | _ :: rest => (cs.takeWhile (· ≠ mark), some rest)

/-- What is encoded in a query. -/
def querySet (scheme : Scheme) : List Char :=
  [' ', '"', '#', '<', '>'] ++ if scheme.isSpecial then ['\''] else []

/-- What is encoded in a fragment. -/
def fragmentSet : List Char := [' ', '"', '<', '>', '\x60']

/-- The URL of a scheme, of what follows two slashes. -/
def ofHost? (scheme : Scheme) (cs : List Char) : Option Url := do
  let isSlash := Path.isSlash scheme.isSpecial
  let (host, port) ← authority? scheme (cs.takeWhile fun c => !isSlash c)
  let rest := cs.dropWhile fun c => !isSlash c
  let path := if rest = [] ∧ !scheme.isSpecial then [] else Path.read scheme.isSpecial rest
  return { scheme, host := some host, port, path }

/-- The URL of a file. It has no host when that is the machine itself, or when a drive stands in
place of it. -/
def ofFile? (scheme : Scheme) (cs : List Char) : Option Url := do
  let isSlash := Path.isSlash true
  let named := if (cs.take 2).length = 2 ∧ (cs.take 2).all isSlash then cs.drop 2 else []
  let host := named.takeWhile fun c => !isSlash c
  let path (rest : List Char) : List Char := '/' :: (Path.read true rest).dropWhile (· = '/')
  if named = [] ∨ host = [] ∨ Path.isDrive host then
    return { scheme, host := some [], port := none, path := path cs }
  else
    let name ← host? scheme host
    return {
      scheme
      host := some (if name = "localhost".toList then [] else name)
      port := none
      path := path (named.drop host.length) }

/-- The URL of a scheme and of what follows its colon, without a query and a fragment. -/
def ofScheme? (scheme : Scheme) (cs : List Char) : Option Url :=
  if scheme.isFile then ofFile? scheme cs
  else if scheme.isSpecial then ofHost? scheme (cs.dropWhile (Path.isSlash true))
  else match cs with
    | '/' :: '/' :: cs => ofHost? scheme cs
    | '/' :: _ => some { scheme, host := none, port := none, path := Path.read false cs }
    | _ => some { scheme, host := none, port := none, path := Percent.encode [] cs }

/-- Reads a URL. -/
def ofChars? (text : List Char) : Option Url := do
  let (before, fragment) := cut '#' (clean text)
  let (before, query) := cut '?' before
  let (name, some rest) := cut ':' before | none
  let scheme ← Scheme.ofChars? name
  let url ← ofScheme? scheme rest
  return { url with
    query := query.map (Percent.encode (querySet scheme))
    fragment := fragment.map (Percent.encode fragmentSet) }

/-! ## Writing -/

/-- What stands between the colon behind the scheme and the path. A path that starts with two
slashes is set off when no host stands in front of it. -/
def location (url : Url) : List Char :=
  match url.host with
  | some host => ['/', '/'] ++ host ++
    (url.port.map fun port => ':' :: Text.decimalDigits port).getD []
  | none => if url.path.take 2 = ['/', '/'] then ['/', '.'] else []

/-- The URL as text. -/
def text (url : Url) : String :=
  .ofList (url.scheme.name.toList ++ [':'] ++ url.location ++ url.path ++
    (url.query.map fun query => '?' :: query).getD [] ++
    (url.fragment.map fun fragment => '#' :: fragment).getD [])

/-! ## Sending -/

/-- The URL names a host. -/
def namesHost (url : Url) : Bool := url.host.any fun host => !host.isEmpty

/-- Characters that the name of a host may hold, but not that of one that messages are sent to. -/
def unsendableInHost : List Char := ['"', '\x60', '\x7b', '\x7d']

/-- Messages can be sent to the URL: its scheme and its host allow it, and it is not too long. -/
def isSendable (url : Url) : Bool :=
  url.scheme.isWeb && url.host.any (fun host => !host.any unsendableInHost.contains) &&
    url.text.utf8ByteSize ≤ 65534

end Url

end SearchJoin.Http
