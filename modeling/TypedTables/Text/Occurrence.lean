/-!
# Texts within texts
-/

namespace TypedTables.Text

def occursIn (part : List Char) : List Char → Bool
  | [] => part.isEmpty
  | c :: s => part.isPrefixOf (c :: s) || occursIn part s

end TypedTables.Text
