import SearchJoin.Error
import SearchJoin.Settings.Basic

/-!
# Checking settings

Settings can be used when every value is within its bounds. The first value that is not is
reported, with the key it stands under.
-/

namespace SearchJoin

/-- Why a value is out of bounds. -/
inductive SettingFault where
  /-- A size is zero. -/
  | noSize
  /-- A time is zero. -/
  | noTime
  /-- A number is not in a range. -/
  | outOfRange (value : UInt64) (least greatest : Nat)
  /-- An address has neither of the two schemes. -/
  | notWeb (address : String)
  /-- A word is none of the words to choose from. -/
  | notOneOf (word : String) (choices : List String)
  /-- A fault in the words of a caller. -/
  | stated (words : String)

/-- The fault in words. -/
def SettingFault.message : SettingFault → String
  | .noSize => "value must be >= 1"
  | .noTime => "value must be > 0"
  | .outOfRange value least greatest => s!"value {value} is out of range [{least}, {greatest}]"
  | .notWeb address => s!"value '{address}' must start with http:// or https://"
  | .notOneOf word choices =>
    let quoted := ", ".intercalate (choices.map fun choice => "\"" ++ choice ++ "\"")
    s!"value '{word}' is invalid, expected one of: [{quoted}]"
  | .stated words => words

/-- Why settings cannot be read or written. -/
inductive SettingsFormatFault where
  /-- The text is no TOML document. -/
  | notToml
  /-- A value is not of the kind that its setting needs. -/
  | wrongKind
  /-- An integer is too large to be written. -/
  | tooLarge
  /-- A fault in the words of a caller. -/
  | stated (words : String)

/-- The fault in words. -/
def SettingsFormatFault.message : SettingsFormatFault → String
  | .notToml => "the text is not a TOML document"
  | .wrongKind => "a value is not of the kind that its setting needs"
  | .tooLarge => "an integer is too large to be written"
  | .stated words => words

/-- Why settings cannot be used. -/
inductive SettingsError where
  /-- They cannot be read or written. -/
  | unreadable (fault : SettingsFormatFault)
  /-- The value under a key is out of bounds. -/
  | invalidValue (key : String) (fault : SettingFault)

namespace SettingsError

/-- The error in words. -/
def message : SettingsError → String
  | .unreadable fault => s!"Failed to parse configuration: {fault.message}"
  | .invalidValue key fault => s!"Invalid configuration value for '{key}': {fault.message}"

/-- The error as an error of the library. -/
def toError (error : SettingsError) : Error := .config error.message

end SettingsError

namespace Settings

/-- The levels of logging. -/
def levels : List String := ["error", "warn", "info", "debug", "trace"]

/-- The formats of the log. -/
def formats : List String := ["text", "json"]

/-- The fault of a size. -/
def sizeFault? (size : UInt64) : Option SettingFault := if size = 0 then some .noSize else none

/-- The fault of a number of calls in flight. -/
def batchesFault? (batches : UInt64) : Option SettingFault :=
  if 1 ≤ batches.toNat ∧ batches.toNat ≤ 64 then none else some (.outOfRange batches 1 64)

/-- The fault of an address. -/
def addressFault? (address : String) : Option SettingFault :=
  let starts (scheme : String) : Bool := scheme.toList.isPrefixOf address.toList
  if starts "http://" ∨ starts "https://" then none else some (.notWeb address)

/-- The fault of a time. -/
def timeFault? (time : UInt64) : Option SettingFault := if time = 0 then some .noTime else none

/-- The fault of a word that is chosen from some. -/
def choiceFault? (choices : List String) (word : String) : Option SettingFault :=
  if word ∈ choices then none else some (.notOneOf word choices)

/-- The keys of all values that have bounds, with the fault of each. -/
def faults (settings : Settings) : List (String × Option SettingFault) :=
  [("join.multi_search_max_size", sizeFault? settings.join.multiSearchMaxSize),
    ("join.default_table_limit", sizeFault? settings.join.defaultTableLimit),
    ("join.max_concurrent_batches", batchesFault? settings.join.maxConcurrentBatches),
    ("transport.url", addressFault? settings.transport.url),
    ("transport.timeout_ms", timeFault? settings.transport.timeoutMs),
    ("logging.level", choiceFault? levels settings.logging.level),
    ("logging.format", choiceFault? formats settings.logging.format)]

/-- The settings can be used; else the error of the first value that is out of bounds. -/
def check (settings : Settings) : Except SettingsError Unit :=
  let first := settings.faults.findSome? fun (key, fault) =>
    fault.map fun fault => (key, fault)
  match first with
  | none => .ok ()
  | some (key, fault) => .error (.invalidValue key fault)

end Settings

end SearchJoin
