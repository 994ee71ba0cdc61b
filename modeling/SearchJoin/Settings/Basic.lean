import SearchJoin.Json.Record

/-!
# Settings

The settings of joins, of the connection to the backend and of logging, with their defaults.
-/

namespace SearchJoin

/-- The settings of joins. -/
structure JoinSettings where
  /-- How many sub-queries of a nested loop go into one call. -/
  multiSearchMaxSize : UInt64 := 100
  /-- How many rows of a table are fetched when the statement sets no limit. -/
  defaultTableLimit : UInt64 := 200
  /-- How many calls of a nested loop are in flight at once. -/
  maxConcurrentBatches : UInt64 := 4
  deriving DecidableEq

/-- The settings of the connection to the backend. -/
structure TransportSettings where
  /-- The address of the backend. -/
  url : String := "http://localhost:9200"
  /-- The user. -/
  username : Option String := none
  /-- The user's password. -/
  password : Option String := none
  /-- A key, which counts more than user and password. -/
  apiKey : Option String := none
  /-- How many milliseconds a call may take. -/
  timeoutMs : UInt64 := 30000
  deriving DecidableEq

/-- The settings of logging. -/
structure LoggingSettings where
  /-- The least severe level that is logged. -/
  level : String := "info"
  /-- The format of the log. -/
  format : String := "text"
  deriving DecidableEq

/-- All settings. -/
structure Settings where
  /-- The settings of joins. -/
  join : JoinSettings := {}
  /-- The settings of the connection to the backend. -/
  transport : TransportSettings := {}
  /-- The settings of logging. -/
  logging : LoggingSettings := {}
  deriving DecidableEq

namespace JoinSettings

/-- The settings in JSON. -/
def toJson (settings : JoinSettings) : Json :=
  .obj [("default_table_limit", .ofUInt64 settings.defaultTableLimit),
    ("max_concurrent_batches", .ofUInt64 settings.maxConcurrentBatches),
    ("multi_search_max_size", .ofUInt64 settings.multiSearchMaxSize)]

/-- Reads settings; what is missing has its default. -/
def ofJson? (json : Json) : Option JoinSettings := do
  let [size, limit, batches] ← json.record?
    ["multi_search_max_size", "default_table_limit", "max_concurrent_batches"] | none
  let defaults : JoinSettings := {}
  return {
    multiSearchMaxSize := ← Json.defaulted? defaults.multiSearchMaxSize Json.uint64? size
    defaultTableLimit := ← Json.defaulted? defaults.defaultTableLimit Json.uint64? limit
    maxConcurrentBatches :=
      ← Json.defaulted? defaults.maxConcurrentBatches Json.uint64? batches }

end JoinSettings

namespace TransportSettings

/-- The settings in JSON. -/
def toJson (settings : TransportSettings) : Json :=
  .obj [("api_key", .ofOption .str settings.apiKey), ("password", .ofOption .str settings.password),
    ("timeout_ms", .ofUInt64 settings.timeoutMs), ("url", .str settings.url),
    ("username", .ofOption .str settings.username)]

/-- Reads settings; what is missing has its default. -/
def ofJson? (json : Json) : Option TransportSettings := do
  let [url, username, password, apiKey, timeoutMs] ←
    json.record? ["url", "username", "password", "api_key", "timeout_ms"] | none
  let defaults : TransportSettings := {}
  return {
    url := ← Json.defaulted? defaults.url Json.string? url
    username := ← Json.optional? Json.string? username
    password := ← Json.optional? Json.string? password
    apiKey := ← Json.optional? Json.string? apiKey
    timeoutMs := ← Json.defaulted? defaults.timeoutMs Json.uint64? timeoutMs }

end TransportSettings

namespace LoggingSettings

/-- The settings in JSON. -/
def toJson (settings : LoggingSettings) : Json :=
  .obj [("format", .str settings.format), ("level", .str settings.level)]

/-- Reads settings; what is missing has its default. -/
def ofJson? (json : Json) : Option LoggingSettings := do
  let [level, format] ← json.record? ["level", "format"] | none
  let defaults : LoggingSettings := {}
  return {
    level := ← Json.defaulted? defaults.level Json.string? level
    format := ← Json.defaulted? defaults.format Json.string? format }

end LoggingSettings

namespace Settings

/-- The settings in JSON. -/
def toJson (settings : Settings) : Json :=
  .obj [("join", settings.join.toJson), ("logging", settings.logging.toJson),
    ("transport", settings.transport.toJson)]

/-- Reads settings; what is missing has its default. -/
def ofJson? (json : Json) : Option Settings := do
  let [join, transport, logging] ← json.record? ["join", "transport", "logging"] | none
  return {
    join := ← Json.defaulted? {} JoinSettings.ofJson? join
    transport := ← Json.defaulted? {} TransportSettings.ofJson? transport
    logging := ← Json.defaulted? {} LoggingSettings.ofJson? logging }

end Settings

end SearchJoin
