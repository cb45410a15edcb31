import TypedTables.Config.Basic
import TypedTables.Json.Document

/-!
# Reading configurations

A configuration is a JSON object with a field for each setting that differs from the default, or a
list of the settings in order, of which the last may be left out. Fields that name no setting do
not count. In a text a setting may be given once only; fields that do not count need not denote
anything.
-/

namespace TypedTables

open Json

/-! ## From values -/

def setting? {α : Type} (read? : Json → Option α) (default : α) : Option Json → Option α
  | none => some default
  | some j => read? j

/-- The settings of an object by name, or of a list by position, if it is not longer than there are
settings. -/
def settings? (names : List String) : Json → Option (String → Option Json)
  | obj fields => some (field? · fields)
  | arr items =>
    if items.length ≤ names.length then some fun name => items[names.idxOf name]? else none
  | _ => none

namespace Formats

def settingNames : List String := types.map ColumnType.name

def ofJson? (j : Json) : Option (Formats String) := do
  let given ← settings? settingNames j
  Config.defaultFormats.mapM fun type text => setting? toText? text (given type.name)

end Formats

namespace Config

def settingNames : List String := ["min_size", "max_size", "reserved_names", "type_patterns"]

def readNames? : Json → Option (List String)
  | arr items => texts? items
  | _ => none

def ofJson? (j : Json) : Option Config := do
  let given ← settings? settingNames j
  let minSize ← setting? toUnsigned? default.minSize (given "min_size")
  let maxSize ← setting? toUnsigned? default.maxSize (given "max_size")
  let reservedNames ← setting? readNames? default.reservedNames (given "reserved_names")
  let formats ← setting? Formats.ofJson? default.formats (given "type_patterns")
  return { minSize, maxSize, reservedNames, formats }

end Config

/-! ## From texts -/

/-- The entries with these names. `none` if one of them is there twice, or if the name of any entry
is no text. -/
def selectEntries? (names : List String) (entries : List (Option String × Document)) :
    Option (List (String × Document)) := do
  let named ← entries.mapM fun (name, d) => name.map fun n => (n, d)
  let selected := named.filter fun (n, _) => names.contains n
  if (selected.map Prod.fst).eraseDups.length = selected.length then some selected else none

/-- The value of a document of which only the settings count, each with a reading of its own. -/
def settingsToJson? (names : List String) (read? : String → Document → Option Json) :
    Document → Option Json
  | .fields entries => do
    let selected ← selectEntries? names entries
    let fields ← selected.mapM fun (n, d) => (read? n d).map fun j => (n, j)
    return obj fields
  | .list items =>
    if names.length < items.length then none
    else ((names.zip items).mapM fun (n, d) => read? n d).map arr
  | _ => none

namespace Config

def settingToJson? (name : String) (d : Document) : Option Json :=
  if name == "type_patterns" then
    settingsToJson? Formats.settingNames (fun _ => Document.toJson?) d
  else d.toJson?

def ofText (text : String) : Except ConfigError Config :=
  let config? := do
    let d ← Document.read? text.toList
    let j ← settingsToJson? settingNames settingToJson? d
    ofJson? j
  match config? with
  | none => .error .unreadable
  | some config => do
    config.requireSizes
    return config

end Config

end TypedTables
