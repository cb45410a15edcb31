import TypedTables.Config.Basic
import TypedTables.Pattern.Reader

/-!
# Format patterns

The patterns of a configuration, read once: what a raw text must look like before it is taken for a
value of a type.
-/

namespace TypedTables.Formats

def readPattern (type : ColumnType) (text : String) : Except ConfigError Pattern :=
  match Pattern.read? text with
  | some p => .ok p
  | none => .error (.invalidPattern type)

/-- Reads all patterns; the first that is none is reported. -/
def readPatterns (written : Formats String) : Except ConfigError (Formats Pattern) :=
  written.mapM readPattern

def accepts (formats : Formats Pattern) (type : ColumnType) (text : String) : Bool :=
  (formats.get? type).all (·.isFoundIn text.toList)

end TypedTables.Formats
