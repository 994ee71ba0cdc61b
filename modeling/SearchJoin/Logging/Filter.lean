import SearchJoin.Text.Blank
import SearchJoin.Text.Digits

/-!
# Filters of the log

A filter is a list of directives such as `warn` or `store::cache[load]=debug`. A directive says from
which level on records are logged, and may ask for a target, a span and a field. More specific
directives come first.
-/

namespace SearchJoin.Logging

/-- How severe a record has to be. -/
inductive Level where
  /-- Nothing is logged. -/
  | off
  /-- Errors. -/
  | error
  /-- Also warnings. -/
  | warn
  /-- Also information. -/
  | info
  /-- Also what helps to find faults. -/
  | debug
  /-- All. -/
  | trace
  deriving DecidableEq

namespace Level

/-- The name of a level. -/
def name : Level → String
  | .off => "off"
  | .error => "error"
  | .warn => "warn"
  | .info => "info"
  | .debug => "debug"
  | .trace => "trace"

/-- All levels, by their numbers. -/
def all : List Level := [.off, .error, .warn, .info, .debug, .trace]

/-- The level of a number, or of a name in either case. -/
def ofText? (cs : List Char) : Option Level :=
  match (Text.word? cs).bind fun n => all[n.toNat]? with
  | some level => some level
  | none => all.find? fun level => level.name.toList = Text.lower cs

end Level

/-- A field that a record has to have. -/
structure FieldFilter where
  /-- The name of the field. -/
  name : String
  /-- What the value has to match. -/
  value : Option String

/-- A directive of a filter. -/
structure Directive where
  /-- The target that records have to have. -/
  target : Option String := none
  /-- The span that records have to stand in. -/
  span : Option String := none
  /-- The field that records have to have. -/
  field : Option FieldFilter := none
  /-- The least severe level that is logged. -/
  level : Level := .trace

namespace Directive

/-! ## Reading -/

/-- The rest of a directive: the characters in which marks are looked for, and the characters that
its parts are made of. They differ when blanks stand around the directive. -/
abbrev Rest := List Char × List Char

/-- The part before the first of some marks, and the rest from that mark on. -/
def cut (isMark : Char → Bool) (rest : Rest) : String × Rest :=
  let n := (rest.1.takeWhile fun c => !isMark c).length
  (.ofList (rest.2.take n), rest.1.drop n, rest.2.drop n)

/-- The rest after a mark. -/
def after (rest : Rest) : Rest := (rest.1.drop 1, rest.2.drop 1)

/-- Reads the level behind `=`; nothing stands for all levels. -/
def level? (rest : Rest) (directive : Directive) : Option Directive :=
  if rest.2 = [] then some directive
  else (Level.ofText? rest.2).map fun level => { directive with level }

/-- Reads what follows the bracket behind a span: nothing, or a level. -/
def afterSpan? (rest : Rest) (directive : Directive) : Option Directive :=
  match rest.1.head? with
  | none => some directive
  | some '=' => level? (after rest) directive
  | some _ => none

/-- A field with a value at will behind `=`. -/
def fieldOf (text : String) : FieldFilter :=
  match Text.split '=' text.toList with
  | name :: value :: _ => ⟨.ofList name, some (.ofList value)⟩
  | _ => ⟨text, none⟩

/-- Reads a span behind its opening bracket: a name, a field in braces, or both. -/
def span? (rest : Rest) (directive : Directive) : Option Directive := do
  let (name, rest) := cut (fun c => c = ']' || c = '\x7b') rest
  if (← rest.1.head?) = ']' then afterSpan? (after rest) { directive with span := some name }
  else
    let (field, rest) := cut (· = '\x7d') (after rest)
    let closed := after rest
    guard (rest.1 ≠ [] ∧ field ≠ "" ∧ closed.1.head? = some ']')
    let span := if name = "" then none else some name
    afterSpan? (after closed) { directive with span, field := some (fieldOf field) }

/-- Characters that a directive may start with. All that are not ASCII count as letters. -/
def isStart (c : Char) : Bool :=
  c.isAlphanum || c = '-' || c = ':' || c = '_' || c.toNat ≥ 0x80

/-- Reads a directive. A word alone is a level, or else a target of which all is logged. -/
def read? (cs : List Char) : Option Directive := do
  let rest : Rest := (Text.trim cs, cs)
  let first ← rest.1.head?
  if first = '[' then span? (after rest) {}
  else
    guard (isStart first)
    let (target, behind) := cut (fun c => c = '=' || c = '[') rest
    match behind.1.head? with
    | some '=' => level? (after behind) { target := some target }
    | some _ => span? (after behind) { target := some target }
    | none => match Level.ofText? cs with
      | some level => return { level }
      | none => return { target := some (.ofList cs) }

/-! ## Writing -/

/-- The text of a field. -/
def fieldText (field : FieldFilter) : String :=
  field.name ++ ((field.value.map fun value => "=" ++ value).getD "")

/-- The text of a directive. -/
def text (directive : Directive) : String :=
  let field := (directive.field.map fun field => "\x7b" ++ fieldText field ++ "\x7d").getD ""
  let span :=
    if directive.span.isSome || directive.field.isSome then
      "[" ++ directive.span.getD "" ++ field ++ "]"
    else ""
  let subject := directive.target.getD "" ++ span
  let isGlobal := directive.target.isNone && span.isEmpty
  if isGlobal then directive.level.name else subject ++ "=" ++ directive.level.name

/-! ## Order -/

/-- The order of fields: one with a value is greater, then the names count, then the values. -/
def fieldOrder (a b : FieldFilter) : Ordering :=
  (compare a.value.isSome b.value.isSome).then
    ((compare a.name b.name).then (compare (a.value.getD "") (b.value.getD "")))

/-- The order of fields that may be missing. -/
def optionalFieldOrder : Option FieldFilter → Option FieldFilter → Ordering
  | none, none => .eq
  | none, some _ => .lt
  | some _, none => .gt
  | some a, some b => fieldOrder a b

/-- How specific directives are: a longer target counts most, then a span, then a field; between
directives that are equally specific their texts decide. -/
def order (a b : Directive) : Ordering :=
  let size (d : Directive) : Option Nat := d.target.map String.utf8ByteSize
  (compare (size a) (size b)).then
    ((compare a.span.isSome b.span.isSome).then
      ((compare a.field.isSome b.field.isSome).then
        ((compare a.target b.target).then
          ((compare a.span b.span).then (optionalFieldOrder a.field b.field)))))

/-- Adds a directive to others, of which the more specific ones come first. It takes the place of
one that differs in its level only. -/
def insert (directive : Directive) : List Directive → List Directive
  | [] => [directive]
  | other :: rest => match order directive other with
    | .gt => directive :: other :: rest
    | .eq => directive :: rest
    | .lt => other :: insert directive rest

end Directive

/-! ## Filters -/

/-- A filter. -/
structure Filter where
  /-- The directives that hold for a place in the program. -/
  static : List Directive
  /-- The directives that depend on a span or a field. -/
  dynamic : List Directive

namespace Filter

/-- A directive that depends on no span and on no field's value. -/
def isStatic (directive : Directive) : Bool :=
  directive.span.isNone && !(directive.field.any fun field => field.value.isSome)

/-- A directive that depends on a span or a field. -/
def isDynamic (directive : Directive) : Bool := directive.span.isSome || directive.field.isSome

/-- The filter of directives; the later of two that differ in their levels only counts. A directive
that asks for a field without a value is of both kinds. -/
def ofDirectives (directives : List Directive) : Filter :=
  let (dynamic, plain) := directives.partition isDynamic
  let insertAll (directives : List Directive) : List Directive :=
    directives.foldl (fun others directive => directive.insert others) []
  ⟨insertAll (plain ++ dynamic.filter isStatic), insertAll dynamic⟩

/-- The directives between commas. -/
def pieces (text : String) : List (List Char) :=
  (Text.split ',' text.toList).filter fun piece => piece ≠ []

/-- Reads a filter, of which every directive has to be readable. -/
def read? (text : String) : Option Filter :=
  ((pieces text).mapM Directive.read?).map ofDirectives

/-- Reads a filter and leaves out what is no directive. When no directive is left, errors are
logged. -/
def ofText (text : String) : Filter :=
  match (pieces text).filterMap Directive.read? with
  | [] => ofDirectives [{ level := .error }]
  | directives => ofDirectives directives

/-- The filter of a level in the settings; a readable filter of the environment counts more. -/
def choose (environment : Option String) (level : String) : Filter :=
  (environment.bind read?).getD (ofText level)

/-- The text of a filter. -/
def text (filter : Filter) : String :=
  ",".intercalate ((filter.static ++ filter.dynamic).map Directive.text)

end Filter

end SearchJoin.Logging
