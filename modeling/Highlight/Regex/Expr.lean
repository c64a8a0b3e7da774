import Highlight.Regex.CharSet

/-! Regular expressions as trees. -/

namespace Highlight.Regex

/-- A condition on a place of the text, which takes no text. -/
inductive Assertion where
  | textStart
  | textEnd
  | lineStart
  | lineEnd
  | wordBoundary
  | notWordBoundary
  | wordStart
  | wordEnd
  deriving DecidableEq, Repr

/-- Conditions on words need the full engine; those on ends of text and line do not. -/
def Assertion.isOnWords : Assertion → Bool
  | wordBoundary | notWordBoundary | wordStart | wordEnd => true
  | _ => false

/-- The way a lookaround looks. -/
inductive Direction where
  | ahead
  | behind
  deriving DecidableEq, Repr

/-- A regular expression. Capture groups carry their number, counted from one in the order of their
    opening parentheses. -/
inductive Expr where
  | empty
  | any (newline : Bool)
  | assertion (assertion : Assertion)
  | literal (char : Char) (ignoreCase : Bool)
  | set (set : CharSet)
  | concat (parts : List Expr)
  | alt (branches : List Expr)
  | group (index : Nat) (body : Expr)
  | look (direction : Direction) (negative : Bool) (body : Expr)
  | repeated (body : Expr) (least : Nat) (most : Option Nat) (greedy : Bool)
  | backref (group : Nat)
  | atomic (body : Expr)
  | keepOut
  | searchStart
  | groupMatched (group : Nat)
  | conditional (condition ifTrue ifFalse : Expr)
  deriving Repr, Inhabited

namespace Expr

def isEmpty : Expr → Bool
  | empty => true
  | _ => false

/-- A quantifier needs something that can take text: it may not follow a lookaround, an assertion or
    nothing at all. -/
def isRepeatable : Expr → Bool
  | empty | assertion _ | look .. => false
  | _ => true

/-- The expression for a list of parts. -/
def ofParts : List Expr → Expr
  | [] => empty
  | [e] => e
  | es => concat es

/-! ### Size and difficulty -/

/-- What is known of the matches of an expression beforehand: the least number of characters they
    take, whether all take that number, and whether only the full engine finds them. -/
structure Shape where
  least : Nat
  fixed : Bool
  hard : Bool
  deriving DecidableEq, Repr

namespace Shape

/-- Takes nothing, by an easy check. -/
def nothing : Shape := ⟨0, true, false⟩

/-- Takes one character. -/
def one : Shape := ⟨1, true, false⟩

/-- One shape after another. -/
def concat (shapes : List Shape) : Shape :=
  ⟨shapes.foldr (fun shape n => shape.least + n) 0, shapes.all (·.fixed), shapes.any (·.hard)⟩

/-- Any one of several shapes. -/
def alt : List Shape → Shape
  | [] => nothing
  | first :: rest => rest.foldl (fun s t =>
      ⟨min s.least t.least, s.fixed && t.fixed && s.least == t.least, s.hard || t.hard⟩) first

end Shape

mutual
/-- The shape of an expression, where `refs` are the groups that some backreference names: such a group
    must be open to backtracking. -/
def shape (refs : List Nat) : Expr → Shape
  | empty => .nothing
  | any _ => .one
  | assertion a => ⟨0, true, a.isOnWords⟩
  | literal .. => .one
  | set _ => .one
  | concat parts => .concat (shapes refs parts)
  | alt branches => .alt (shapes refs branches)
  | group index body =>
    let s := shape refs body
    { s with hard := s.hard || refs.contains index }
  | look .. => ⟨0, true, true⟩
  | repeated body least most _ =>
    let s := shape refs body
    ⟨s.least * least, s.fixed && most == some least, s.hard⟩
  | backref _ => ⟨0, false, true⟩
  | atomic body => { shape refs body with hard := true }
  | keepOut => ⟨0, true, true⟩
  | searchStart => ⟨0, true, true⟩
  | groupMatched _ => ⟨0, true, true⟩
  | conditional condition ifTrue ifFalse =>
    let c := shape refs condition
    let t := shape refs ifTrue
    let f := shape refs ifFalse
    ⟨c.least + min t.least f.least, c.fixed && t.fixed && f.fixed && c.least + t.least == f.least, true⟩

def shapes (refs : List Nat) : List Expr → List Shape
  | [] => []
  | e :: es => shape refs e :: shapes refs es
end

mutual
/-- The text that an expression stands for, when it is one literal text with regard to case. -/
def text? : Expr → Option (List Char)
  | literal c false => some [c]
  | concat parts => texts? parts
  | _ => none

def texts? : List Expr → Option (List Char)
  | [] => some []
  | e :: es =>
    match text? e, texts? es with
    | some a, some b => some (a ++ b)
    | _, _ => none
end

end Expr
end Highlight.Regex
