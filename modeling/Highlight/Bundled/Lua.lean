import Highlight.Bundled.Words

/-! Lua. -/

namespace Highlight.Bundled.Lua

def language : String := "lua"

/-- The reserved words. -/
def keywords : String :=
  "and break do else elseif end for function goto if in local not or repeat return then until " ++
  "while"

/-- Quoted strings and strings in long brackets. -/
def string : RuleDetails :=
  { pattern := "([\"'])(?:(?!\\1)[^\\\\\\r\\n]|\\\\z(?:\\r\\n|\\s)|\\\\(?:\\r\\n|[\\s\\S]))*\\1" ++
      "|\\[(=*)\\[[\\s\\S]*?\\]\\2\\]"
    greedy := true }

/-- The line that names an interpreter, long comments and line comments. -/
def comment : RuleDetails :=
  { pattern := "^#!.+|--(?:\\[(=*)\\[[\\s\\S]*?\\]\\1\\]|.*)", flags := "m" }

/-- A name that is called. -/
def function : String := "(?!\\d)\\w+(?=\\s*(?:[(\x7b'\"]))"

/-- Two dots, unless they are part of three. -/
def concatenation : RuleDetails := { pattern := "(^|[^.])\\.\\.(?!\\.)", lookbehind := true }

def punctuation : String := "[\\[\\]()\x7b\x7d,;]|\\.+|:+"

def definition : Definition :=
  { entries := [
      one "comment" comment,
      bare "special" "\\bself\\b",
      bare "builtin" (wholeWord "false true nil"),
      bare "keyword" (wholeWord keywords),
      bare "function" function,
      one "string" string,
      one "number" {
        pattern := "\\b0x[a-f\\d]+\\.?[a-f\\d]*(?:p[+-]?\\d+)?\\b|\\b\\d+(?:\\.\\B|\\.?\\d*(?:e[+-]?\\d+)?\\b)|" ++
          "\\B\\.\\d+(?:e[+-]?\\d+)?\\b"
        flags := "i" },
      many "operator" [{ pattern := "[-+*%^&|#]|//?|<[<=]?|>[>=]?|[=~]=?" }, concatenation],
      bare "punctuation" punctuation] }

end Highlight.Bundled.Lua
