import Highlight.Pattern
import Highlight.Text.Quoted

/-! What can go wrong before a text is split: a pattern does not compile, a grammar file is no grammar,
    or a name stands for nothing. -/

namespace Highlight

/-- The value that a grammar file has where another kind of value belongs. -/
inductive Found where
  | null
  | boolean (value : Bool)
  | integer (value : Int)
  | decimal (digits : String)
  | text (value : String)
  | sequence
  | mapping
  deriving DecidableEq, Repr

def Found.describe : Found → String
  | null => "null"
  | boolean value => "boolean \x60" ++ (if value then "true" else "false") ++ "\x60"
  | integer value => "integer \x60" ++ toString value ++ "\x60"
  | decimal digits => "floating point \x60" ++ digits ++ "\x60"
  | text value => "string " ++ Text.quoted value
  | sequence => "sequence"
  | mapping => "map"

/-- Why a grammar file holds no grammar: it cannot be read at all, or a value in it is none that belongs
    there. -/
inductive DefinitionError where
  | unreadable
  | notGrammar (found : Found)
  | restNotName (found : Found)
  | repeatedRest
  | notRules
  deriving DecidableEq, Repr, Inhabited

namespace DefinitionError

/-- Whether the file could be read, and only what it holds is wrong. -/
def isShape : DefinitionError → Bool
  | unreadable => false
  | _ => true

def message : DefinitionError → String
  | unreadable => "the document is malformed"
  | notGrammar found => "invalid type: " ++ found.describe ++ ", expected a grammar mapping of token names to rules"
  | restNotName found => "invalid type: " ++ found.describe ++ ", expected a string"
  | repeatedRest => "duplicate field \x60rest\x60"
  | notRules => "data did not match any variant of untagged enum RuleSpecs"

end DefinitionError

/-- What goes wrong with grammars and their names. -/
inductive GrammarError where
  | unknownGrammar (name : String)
  | unknownToken (grammar token : String)
  | malformedPattern (pattern : String) (cause : PatternError)
  | invalidDefinition (cause : DefinitionError)
  deriving DecidableEq, Repr, Inhabited

def GrammarError.message : GrammarError → String
  | unknownGrammar name => "Grammar '" ++ name ++ "' is not registered"
  | unknownToken grammar token => "Grammar '" ++ grammar ++ "' has no token named '" ++ token ++ "'"
  | malformedPattern pattern cause => "Malformed pattern /" ++ pattern ++ "/: " ++ cause.message
  | invalidDefinition cause => "Invalid grammar definition: " ++ cause.message

end Highlight
