import Highlight.Bundled.Bash
import Highlight.Bundled.C
import Highlight.Bundled.CLike
import Highlight.Bundled.Lua
import Highlight.Bundled.Nelua

/-! The languages that come with the library. -/

namespace Highlight.Bundled

/-- Adds every bundled language to a registry. -/
def register (r : Registry) : Except GrammarError Registry := do
  let r := r.define Lua.language (← Lua.definition.compile Pattern.defaultFailures)
  let r := r.define Nelua.language (← Nelua.definition.compile Pattern.defaultFailures)
  let r := r.define CLike.language (← CLike.definition.compile Pattern.defaultFailures)
  let r ← C.register r
  Bash.register r

/-- The registry of the bundled languages, unless one of them does not compile. -/
def registry? : Except GrammarError Registry := register .empty

/-- The registry of the bundled languages. -/
def registry : Registry :=
  match registry? with
  | .ok r => r
  | .error _ => .empty

/-- A letter between "A" and "Z" in lower case, any other character as it is. -/
def lowerLetter (c : Char) : Char := if 'A' ≤ c && c ≤ 'Z' then c.toLower else c

/-- The language for files with an extension, which is given without its dot. -/
def languageOfExtension? (extension : String) : Option String :=
  match String.ofList (extension.toList.map lowerLetter) with
  | "lua" => some Lua.language
  | "nelua" => some Nelua.language
  | "c" | "h" => some C.language
  | "sh" | "bash" => some Bash.language
  | _ => none

/-- Splits a text with a bundled language. -/
def highlight (text language : String) : Except GrammarError (List Token) := registry.tokenize text language

end Highlight.Bundled
