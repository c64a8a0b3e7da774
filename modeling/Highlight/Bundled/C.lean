import Highlight.Bundled.CLike
import Highlight.Registry

/-! C, made from the common grammar: comments, types and operators of its own, rules for the preprocessor
    before those for strings, and no boolean words. -/

namespace Highlight.Bundled.C

def language : String := "c"

/-- The reserved words. -/
def keywords : String :=
  "__attribute__ _Alignas _Alignof _Atomic _Bool _Complex _Generic _Imaginary _Noreturn " ++
  "_Static_assert _Thread_local asm typeof inline auto break case char const continue default " ++
  "do double else enum extern float for goto if int long register return short signed sizeof " ++
  "static struct switch typedef union unsigned void volatile while"

/-- The names that stand for constants. -/
def constants : String :=
  "__FILE__ __LINE__ __DATE__ __TIME__ __TIMESTAMP__ __func__ EOF NULL SEEK_CUR SEEK_END " ++
  "SEEK_SET stdin stdout stderr"

def comment : RuleDetails :=
  { pattern := "//(?:[^\\r\\n\\\\]|\\\\(?:\\r\\n?|\\n|(?![\\r\\n])))*|/\\*[\\s\\S]*?(?:\\*/|$)", greedy := true }

/-- What differs from the common grammar. -/
def overrides : Definition :=
  { entries := [
      one "comment" comment,
      one "class-name" {
        pattern := "(\\b(?:enum|struct)\\s+(?:__attribute__\\s*\\(\\([\\s\\S]*?\\)\\)\\s*)?)\\w+"
        lookbehind := true },
      bare "keyword" (wholeWord keywords),
      one "function" { pattern := "[a-z_]\\w*(?=\\s*\\()", flags := "i" },
      bare "operator" ">>=?|<<=?|->|([-+&|:])\\1|[?:~]|[-+*/%&|^!=<>]=?",
      one "number" {
        pattern := "(?:\\b0x(?:[\\da-f]+\\.?[\\da-f]*|\\.[\\da-f]+)(?:p[+-]?\\d+)?|" ++
          "(?:\\b\\d+\\.?\\d*|\\B\\.\\d+)(?:e[+-]?\\d+)?)[ful]*"
        flags := "i" }] }

/-- The inside of a line for the preprocessor. -/
def directive : Definition :=
  { entries := [
      many "string" [
        { pattern := "^(#\\s*include\\s*)<[^>]+>", lookbehind := true },
        CLike.string],
      one "comment" comment,
      one "directive" { pattern := "^(#\\s*)[a-z]+", lookbehind := true, aliasName := some "keyword" },
      bare "directive-hash" "^#",
      bare "punctuation" "##|\\\\(?=[\\r\\n])",
      one "expression" { pattern := "\\S[\\s\\S]*", inside := some (.named language) }] }

/-- Lines for the preprocessor, and the constants it knows. -/
def preprocessor : Definition :=
  { entries := [
      one "macro" {
        pattern := "(^\\s*)#\\s*[a-z]+(?:[^\\r\\n\\\\/]|/(?!\\*)|/\\*(?:[^*]|\\*(?!/))*\\*/|\\\\(?:\\r\\n|[\\s\\S]))*"
        flags := "im"
        lookbehind := true
        greedy := true
        aliasName := some "property"
        inside := some (.inline directive) },
      bare "constant" (wholeWord constants)] }

/-- Adds C to a registry that has the common grammar. -/
def register (r : Registry) : Except GrammarError Registry := do
  let r ← r.extend language CLike.language (← overrides.compile Pattern.defaultFailures)
  let r ← r.insert language "string" .before (← preprocessor.compile Pattern.defaultFailures)
  return (← r.removeToken language "boolean").2

end Highlight.Bundled.C
