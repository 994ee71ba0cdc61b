import SearchJoin.Settings.Check
import SearchJoin.Toml.Document

/-!
# Settings in TOML

A table for each group of settings, under the same names as in JSON. Keys that name no setting do
not count, and what is missing has its default. A group may also be an array of its values in their
order.
-/

namespace SearchJoin

/-! ## Reading -/

namespace Toml.Value

/-- The fields of a group of settings, by name or by position. A date is a group without fields. -/
def fields? (names : List String) : Value → Option (List (Option Value))
  | .table entries => some (names.map fun name => entries.lookup name)
  | .array items => some ((List.range names.length).map (items[·]?))
  | .datetime _ => some (names.map fun _ => none)
  | _ => none

/-- An unsigned word, written as an integer. -/
def word? : Value → Option UInt64
  | .integer n => if 0 ≤ n ∧ n < 0x10000000000000000 then some (.ofNat n.toNat) else none
  | _ => none

/-- A string. -/
def string? : Value → Option String
  | .string text => some text
  | _ => none

/-- The value of a field, or what it is when it is missing. -/
def fieldOr? {α : Type} (absent : α) (decode : Value → Option α) : Option Value → Option α
  | none => some absent
  | some value => decode value

end Toml.Value

open Toml.Value in
/-- Reads the settings of joins. -/
def JoinSettings.ofToml? (value : Toml.Value) : Option JoinSettings := do
  let [size, limit, batches] ← value.fields?
    ["multi_search_max_size", "default_table_limit", "max_concurrent_batches"] | none
  let defaults : JoinSettings := {}
  return {
    multiSearchMaxSize := ← fieldOr? defaults.multiSearchMaxSize word? size
    defaultTableLimit := ← fieldOr? defaults.defaultTableLimit word? limit
    maxConcurrentBatches := ← fieldOr? defaults.maxConcurrentBatches word? batches }

open Toml.Value in
/-- Reads the settings of the connection to the backend. -/
def TransportSettings.ofToml? (value : Toml.Value) : Option TransportSettings := do
  let [url, username, password, apiKey, timeoutMs] ←
    value.fields? ["url", "username", "password", "api_key", "timeout_ms"] | none
  let defaults : TransportSettings := {}
  return {
    url := ← fieldOr? defaults.url string? url
    username := ← fieldOr? none (fun value => value.string?.map some) username
    password := ← fieldOr? none (fun value => value.string?.map some) password
    apiKey := ← fieldOr? none (fun value => value.string?.map some) apiKey
    timeoutMs := ← fieldOr? defaults.timeoutMs word? timeoutMs }

open Toml.Value in
/-- Reads the settings of logging. -/
def LoggingSettings.ofToml? (value : Toml.Value) : Option LoggingSettings := do
  let [level, format] ← value.fields? ["level", "format"] | none
  let defaults : LoggingSettings := {}
  return {
    level := ← fieldOr? defaults.level string? level
    format := ← fieldOr? defaults.format string? format }

namespace Settings

open Toml.Value in
/-- Reads settings from a table. -/
def ofTable? (table : Toml.Table) : Option Settings := do
  return {
    join := ← fieldOr? {} JoinSettings.ofToml? (table.lookup "join")
    transport := ← fieldOr? {} TransportSettings.ofToml? (table.lookup "transport")
    logging := ← fieldOr? {} LoggingSettings.ofToml? (table.lookup "logging") }

/-- The settings that a table holds. -/
def ofTable (table : Toml.Table) : Except SettingsError Settings :=
  match ofTable? table with
  | some settings => .ok settings
  | none => .error (.unreadable .wrongKind)

/-- The table that a text holds. -/
def tableOf (text : String) : Except SettingsError Toml.Table :=
  match Toml.read? text with
  | some table => .ok table
  | none => .error (.unreadable .notToml)

/-- Reads settings from a text; they are not checked. -/
def ofToml (text : String) : Except SettingsError Settings := do ofTable (← tableOf text)

/-! ## Writing -/

/-- A line that sets a word; TOML has no integers beyond those of a signed word. -/
def wordLine? (key : String) (n : UInt64) : Option String :=
  if n.toNat < 0x8000000000000000 then some s!"{key} = {n}\n" else none

/-- A line that sets a string. -/
def stringLine (key text : String) : String :=
  s!"{key} = " ++ .ofList (Toml.Quoted.write text.toList) ++ "\n"

/-- A line that sets a string, if there is one. -/
def optionalLine (key : String) (text : Option String) : String :=
  (text.map (stringLine key)).getD ""

/-- Writes settings; none when an integer is too large. -/
def toToml? (settings : Settings) : Option String := do
  let ⟨join, transport, logging⟩ := settings
  return String.join ["[join]\n", ← wordLine? "multi_search_max_size" join.multiSearchMaxSize,
    ← wordLine? "default_table_limit" join.defaultTableLimit,
    ← wordLine? "max_concurrent_batches" join.maxConcurrentBatches,
    "\n[transport]\n", stringLine "url" transport.url,
    optionalLine "username" transport.username, optionalLine "password" transport.password,
    optionalLine "api_key" transport.apiKey, ← wordLine? "timeout_ms" transport.timeoutMs,
    "\n[logging]\n", stringLine "level" logging.level, stringLine "format" logging.format]

/-- Writes settings. -/
def toToml (settings : Settings) : Except SettingsError String :=
  match settings.toToml? with
  | some text => .ok text
  | none => .error (.unreadable .tooLarge)

end Settings

end SearchJoin
