import Highlight.Bundled.Lua

/-! Nelua: the syntax of Lua with preprocessor blocks, type annotations and further keywords. The
    preprocessor blocks hold Lua between their delimiters. -/

namespace Highlight.Bundled.Nelua

def language : String := "nelua"

/-- The reserved words. -/
def keywords : String :=
  "and break do else elseif end for function goto if in local not or repeat return then until " ++
  "while switch case continue fallthrough global defer"

/-- Lua between delimiters. -/
def delimited (delimiter : String) : InsideDefinition :=
  .inline { entries := [bare "macro" delimiter], rest := some Lua.language }

/-- Blocks and lines for the preprocessor. -/
def preprocessor : List RuleDetails := [
  { pattern := "##\\[(=*)\\[[\\s\\S]*?\\]\\1\\]"
    flags := "m"
    inside := some (.inline {
      entries := [
        bare "macro" "##\\[=*\\[",
        one "macro_end" { pattern := "\\]=*\\]", aliasName := some "macro" }]
      rest := some Lua.language }) },
  { pattern := "##.*", inside := some (delimited "##") },
  { pattern := "#\\|[\\s\\S]*?\\|#"
    flags := "m"
    lookbehind := true
    inside := some (delimited "#\\||\\|#") },
  { pattern := "#\\[[\\s\\S]*?\\]#"
    flags := "m"
    lookbehind := true
    inside := some (delimited "#\\[|\\]#") }]

def definition : Definition :=
  { entries := [
      many "preprocessor" preprocessor,
      one "comment" Lua.comment,
      bare "special" "\\bself\\b",
      bare "builtin" (wholeWord "false true nil nilptr"),
      bare "keyword" (wholeWord keywords),
      many "type" [
        { pattern := "(@)\\w+", lookbehind := true },
        { pattern := "(:)\\s+\\w+", lookbehind := true }],
      bare "function" Lua.function,
      one "annotation" { pattern := "<\\w+\\s*(,\\s*\\w+\\s*)*>", inside := some (.named Lua.language) },
      one "string" Lua.string,
      one "number" {
        pattern := "\\b0x[a-f\\d]+\\.?[a-f\\d]*(?:p[+-]?\\d+)?(_\\w+)?\\b|" ++
          "\\b\\d+(?:\\.\\B|\\.?\\d*(?:e[+-]?\\d+)?(_\\w+)?\\b)|" ++
          "\\B\\.\\d+(?:e[+-]?\\d+)?(_\\w+)?\\b"
        flags := "i" },
      many "operator" [{ pattern := "[-@$+*%^&|#?]|//?|<[<=]?|>[>=]?|[=~]=?" }, Lua.concatenation],
      bare "punctuation" Lua.punctuation] }

end Highlight.Bundled.Nelua
