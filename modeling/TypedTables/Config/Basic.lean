import TypedTables.Formats.Basic

/-!
# Configuration

The limits and names that tables are checked against, and the written pattern of each type of value.
-/

namespace TypedTables

open Text

/-- What the checks of columns and rows consult. -/
structure Config where
  minSize : Nat
  maxSize : Nat
  /-- Names that no column may have, in any case. -/
  reservedNames : List String
  /-- The pattern that the raw text of a value must contain. -/
  formats : Formats String
  deriving DecidableEq

/-- Why a configuration cannot be used. -/
inductive ConfigError where
  | invalidSizeRange (min max : Nat)
  | invalidPattern (type : ColumnType)
  | unreadable
  deriving DecidableEq

def ConfigError.message : ConfigError → String
  | invalidSizeRange min max => s!"invalid size range [{min}, {max}]"
  | invalidPattern type => s!"invalid {type} pattern"
  | unreadable => "invalid configuration"

namespace Config

/-- Decimals without a sign, whole numbers without a sign, the two truth values, times on a clock
of 24 hours, and dates with the year first. -/
def defaultFormats : Formats String where
  number := "^\\d+(\\.\\d+)?$"
  integer := "^\\d+$"
  boolean := "^(true|false)$"
  time := "^([01]?\\d|2[0-3]):[0-5]\\d(:[0-5]\\d)?$"
  date := "^\\d\x7b4\x7d[-/]\\d\x7b1,2\x7d[-/]\\d\x7b1,2\x7d$"

/-- The configuration of someone who has no wishes. The words of queries are reserved. -/
def default : Config where
  minSize := 1
  maxSize := 65535
  reservedNames :=
    ["and", "or", "not", "true", "false", "null", "asc", "desc", "first", "last", "count", "keys",
      "order", "where", "limit", "method"]
  formats := defaultFormats

instance : Inhabited Config := ⟨default⟩

/-- Sizes start at one, and some size is allowed. -/
def requireSizes (config : Config) : Except ConfigError Unit :=
  if config.minSize = 0 ∨ config.maxSize < config.minSize then
    .error (.invalidSizeRange config.minSize config.maxSize)
  else .ok ()

def isReserved (config : Config) (name : String) : Bool :=
  config.reservedNames.any (sameIgnoringCase · name)

end Config

end TypedTables
