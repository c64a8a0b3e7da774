import Highlight.Definition
import Highlight.Regex.Literal

/-! Patterns for lists of words, from which the bundled languages are made. -/

namespace Highlight.Bundled

/-- A pattern for any one of several words, which are parted by blanks. -/
def anyOf (words : String) : String :=
  "|".intercalate ((words.splitOn " ").map fun word => String.ofList (Regex.escape word.toList))

/-- A pattern for any one of several words, standing by itself. -/
def wholeWord (words : String) : String := "\\b(?:" ++ anyOf words ++ ")\\b"

/-- A token name with one rule, a pattern on its own. -/
def bare (name pattern : String) : String × RulesDefinition := (name, .one (.bare pattern))

/-- A token name with one rule. -/
def one (name : String) (details : RuleDetails) : String × RulesDefinition := (name, .one (.detailed details))

/-- A token name with several rules. -/
def many (name : String) (rules : List RuleDetails) : String × RulesDefinition :=
  (name, .many (rules.map .detailed))

end Highlight.Bundled
