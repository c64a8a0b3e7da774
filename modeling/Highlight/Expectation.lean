import Highlight.Text.Quoted
import Highlight.Token

/-! Expectations on tokens, for tests of grammars. The first one that does not hold is reported with the
    path of the token it is about. -/

namespace Highlight

mutual
/-- What is expected of a list of tokens. -/
inductive Expectation where
  | count (count : Nat)
  | text (text : String)
  | kinds (kinds : List String)
  | item (index : Nat) (expected : List TokenExpectation)

/-- What is expected of one token. -/
inductive TokenExpectation where
  | kind (kind : String)
  | name (name : String)
  | plain (text : String)
  | text (text : String)
  | span (span : Span)
  | leaf
  | children (expected : List Expectation)
end

instance : Inhabited Expectation := ⟨.count 0⟩
instance : Inhabited TokenExpectation := ⟨.leaf⟩

/-- In what way an expectation does not hold. -/
inductive Mismatch where
  | count (expected : Nat) (found : List Token)
  | noItem (index : Nat) (found : List Token)
  | text
  | kinds
  | kind (expected : String) (found : Token)
  | name (expected : String)
  | notPlain (found : Token)
  | span
  | notLeaf (found : Token)
  | notNested (found : Token)

/-- An expectation that does not hold, and the path of what it is about. -/
structure Failure where
  path : String
  mismatch : Mismatch

namespace Expectation

/-- The kinds and texts of a list of tokens. -/
def summary (tokens : List Token) : String :=
  ", ".intercalate (tokens.map fun t => t.kind?.getD "text" ++ ":" ++ Text.quoted t.text)

end Expectation

namespace Mismatch

def message : Mismatch → String
  | .count expected found =>
    "Expected " ++ toString expected ++ " tokens, found " ++ toString found.length ++ ": [" ++
      Expectation.summary found ++ "]"
  | .noItem index found =>
    "Token index " ++ toString index ++ " out of bounds (" ++ toString found.length ++ " tokens: [" ++
      Expectation.summary found ++ "])"
  | .text => "text mismatch"
  | .kinds => "kinds mismatch"
  | .kind expected found =>
    "Expected kind '" ++ expected ++ "', found " ++ Text.quotedOption found.kind? ++ " (" ++
      Text.quoted found.text ++ ")"
  | .name expected => "Expected rule name '" ++ expected ++ "'"
  | .notPlain found => "Expected plain text, found " ++ Text.quotedOption found.kind?
  | .span => "span mismatch"
  | .notLeaf found => "Expected text content, found nested tokens: [" ++ Expectation.summary found.children ++ "]"
  | .notNested found => "Expected nested tokens, found text " ++ Text.quoted found.text

end Mismatch

def Failure.message (f : Failure) : String := f.path ++ ": " ++ f.mismatch.message

namespace Expectation

/-- Fails at a path unless a condition holds. -/
def require (path : String) (holds : Bool) (mismatch : Mismatch) : Except Failure Unit :=
  if holds then .ok () else .error ⟨path, mismatch⟩

mutual
/-- Checks a list of tokens at a path. -/
def check (path : String) (tokens : List Token) : Expectation → Except Failure Unit
  | .count n => require path (tokens.length == n) (.count n tokens)
  | .text s => require path (flatten tokens == s) .text
  | .kinds ks => require path (tokens.filterMap (·.kind?) == ks) .kinds
  | .item index expected =>
    match tokens[index]? with
    | some t => checkToken (path ++ "[" ++ toString index ++ "]") t expected
    | none => .error ⟨path, .noItem index tokens⟩

/-- Checks one token at a path. -/
def checkToken (path : String) (t : Token) : List TokenExpectation → Except Failure Unit
  | [] => .ok ()
  | e :: es => do
    checkTokenOne path t e
    checkToken path t es

def checkTokenOne (path : String) (t : Token) : TokenExpectation → Except Failure Unit
  | .kind k => require path (t.kind? == some k) (.kind k t)
  | .name n => require path (t.name == some n) (.name n)
  | .plain s => do
    require path (!t.isClassified) (.notPlain t)
    require path (t.text == s) .text
  | .text s => require path (t.text == s) .text
  | .span s => require path (t.span == s) .span
  | .leaf => require path t.text?.isSome (.notLeaf t)
  | .children expected => do
    require path t.text?.isNone (.notNested t)
    checkAll (path ++ ".children") t.children expected

def checkAll (path : String) (tokens : List Token) : List Expectation → Except Failure Unit
  | [] => .ok ()
  | e :: es => do
    check path tokens e
    checkAll path tokens es
end

/-- Checks a list of tokens. -/
def run (expected : List Expectation) (tokens : List Token) : Except Failure Unit :=
  checkAll "tokens" tokens expected

end Expectation
end Highlight
