import Highlight.Bundled.Words

/-! What languages with the syntax of C have in common. -/

namespace Highlight.Bundled.CLike

def language : String := "clike"

/-- The reserved words. -/
def keywords : String :=
  "if else while do for return in instanceof function new try throw catch finally null break " ++
  "continue"

/-- A string in single or double quotes, with escapes. -/
def string : RuleDetails :=
  { pattern := "([\"'])(?:\\\\(?:\\r\\n|[\\s\\S])|(?!\\1)[^\\\\\\r\\n])*\\1", greedy := true }

def definition : Definition :=
  { entries := [
      many "comment" [
        { pattern := "(^|[^\\\\])/\\*[\\s\\S]*?(?:\\*/|$)", lookbehind := true },
        { pattern := "(^|[^\\\\:])//.*", lookbehind := true, greedy := true }],
      one "string" string,
      one "class-name" {
        pattern :=
          "(\\b(?:class|interface|extends|implements|trait|instanceof|new)\\s+|\\bcatch\\s+\\()[\\w.\\\\]+"
        flags := "i"
        lookbehind := true
        inside := some (.inline { entries := [bare "punctuation" "[.\\\\]"] }) },
      bare "keyword" (wholeWord keywords),
      bare "boolean" (wholeWord "true false"),
      bare "function" "\\w+(?=\\()",
      one "number" {
        pattern := "\\b0x[\\da-f]+\\b|(?:\\b\\d+\\.?\\d*|\\B\\.\\d+)(?:e[+-]?\\d+)?"
        flags := "i" },
      bare "operator" "[<>]=?|[!=]=?=?|--?|\\+\\+?|&&?|\\|\\|?|[?*/~^%]",
      bare "punctuation" "[\x7b\x7d\\[\\];(),.:]"] }

end Highlight.Bundled.CLike
