import SearchJoin.SortedMap
import SearchJoin.Statement.Hint
import SearchJoin.Statement.Predicate

/-!
# Tables and statements

A statement selects from one table or joins two. In a join the alias of a table and a point qualify
the table's fields.
-/

namespace SearchJoin

/-- The type that a table declares for a field. -/
inductive FieldType where
  /-- Strings that are compared as a whole. -/
  | keyword
  /-- Strings that are analysed. -/
  | text
  /-- Integers. -/
  | long
  /-- Floating-point numbers. -/
  | double
  /-- Truth values. -/
  | boolean
  /-- Dates, stored as strings or as numbers. -/
  | date
  /-- Shapes and points. -/
  | geo
  deriving DecidableEq

namespace FieldType

/-- All field types. -/
def all : List FieldType := [.keyword, .text, .long, .double, .boolean, .date, .geo]

/-- The name of the type. -/
def name : FieldType → String
  | .keyword => "keyword"
  | .text => "text"
  | .long => "long"
  | .double => "double"
  | .boolean => "boolean"
  | .date => "date"
  | .geo => "geo"

/-- The types whose values can be equal share a family. -/
def family : FieldType → String
  | .keyword | .text => "string"
  | .long | .double => "numeric"
  | .boolean => "boolean"
  | .date => "date"
  | .geo => "geo"

/-- Values of a type can be equal to a date: dates are stored as strings or as numbers. -/
def storesDate : FieldType → Bool
  | .date | .keyword | .text | .long | .double => true
  | .boolean | .geo => false

/-- Values of the two types can be equal. -/
def compatible : FieldType → FieldType → Bool
  | .date, other => other.storesDate
  | other, .date => other.storesDate
  | a, b => a.family == b.family && a ≠ .geo

end FieldType

/-- A table of a statement. -/
structure Table where
  /-- The alias, which qualifies the table's fields. -/
  qualifier : String
  /-- The index that holds the table. -/
  index : String
  /-- The fields that are wanted; none stands for all. -/
  fields : List String
  /-- The predicate on this table alone. -/
  filter : Option Predicate
  /-- The declared types of fields. -/
  mapping : SortedMap FieldType

/-- A field without the table's alias and point; none when another table owns it. -/
def Table.ownName? (table : Table) (field : String) : Option String :=
  let mark := table.qualifier.toList ++ ['.']
  if mark.isPrefixOf field.toList then some (.ofList (field.toList.drop mark.length)) else none

/-- The direction of a sort. -/
inductive SortOrder where
  /-- The least value first. -/
  | ascending
  /-- The greatest value first. -/
  | descending
  deriving DecidableEq

/-- The name of the direction. -/
def SortOrder.name : SortOrder → String
  | .ascending => "asc"
  | .descending => "desc"

/-- A field to sort by. -/
structure OrderBy where
  /-- The field, or `_score` for the relevance. -/
  field : String
  /-- The direction. -/
  order : SortOrder
  deriving DecidableEq

/-- A statement over one table. -/
structure Select where
  /-- The table. -/
  table : Table
  /-- How many rows to skip. -/
  offset : Option UInt64
  /-- How many rows to return at most. -/
  limit : Option UInt64
  /-- What to sort by. -/
  orderBy : List OrderBy

/-- The rows are ranked by relevance. -/
def Select.ordersByScore (select : Select) : Bool :=
  select.orderBy.any fun order => order.field == "_score"

/-- A join of two tables. -/
structure Join where
  /-- The table that the statement names first. -/
  first : Table
  /-- The joined table. -/
  second : Table
  /-- The conditions of the `ON` clause, which compare a field of one table with one of the
  other. -/
  conditions : List Condition
  /-- The predicate over both tables. -/
  filter : Option Predicate
  /-- The hints. -/
  hints : List Hint
  /-- How many rows to return at most. -/
  limit : Option UInt64

namespace Join

/-- The table of a side. -/
def table (join : Join) : Side → Table
  | .first => join.first
  | .second => join.second

/-- The side that a qualified field belongs to, and its name there. The first table is asked
first. -/
def resolve? (join : Join) (field : String) : Option (Side × String) :=
  match join.first.ownName? field with
  | some name => some (.first, name)
  | none => (join.second.ownName? field).map fun name => (.second, name)

end Join

end SearchJoin
