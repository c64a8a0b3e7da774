/-! Texts as patterns: the characters with a meaning in a pattern, and how to write them so that they
    stand for themselves. -/

namespace Highlight.Regex

/-- The characters that have a meaning somewhere in a pattern. -/
def isSpecial (c : Char) : Bool := "\\.+*?()|[]\x7b\x7d^$#&-~".toList.contains c

/-- The pattern that matches a text and nothing else. -/
def escape (text : List Char) : List Char := text.flatMap fun c => if isSpecial c then ['\\', c] else [c]

end Highlight.Regex
