import Highlight.Regex.Parser
import Highlight.Regex.Tree

/-! Preparing an expression for the engine that matches it. Expressions without hard parts go to the
    engine for plain expressions as a whole, and so do the easy parts of the others where that keeps the
    order of matches. -/

namespace Highlight.Regex

/-! ### Plain expressions -/

namespace Plain

/-- The size above which a plain expression is refused, in states of its sets (`CharSet.weight`). This comes near the
    limit of the `regex` library, which refuses an automaton of more than 10 MiB and counts all states, also those of
    empty parts and of the check for the start: `(?:a?){200000}` is accepted here, and refused there. -/
def maxSize : Nat := 327680

/-- What is counted while a plain expression is built: the numbers given away and the size so far. -/
structure Count where
  nextId : Nat
  size : Nat

abbrev Build := StateT Count (Except CompileError)

/-- Gives away two numbers. -/
def fresh : Build Nat := modifyGet fun s => (s.nextId, { s with nextId := s.nextId + 2 })

/-- Counts the room that a set takes, about as much as that library does; nothing else is counted. -/
def charge (set : CharSet) : Build Unit := do
  let s ← get
  let size := s.size + set.weight
  if size > maxSize then throw .tooLarge
  StateT.set { s with size }

def oneOf (set : CharSet) : Build Plain := do
  charge set
  return .one set

/-- One after another. -/
def ofList : List Plain → Plain
  | [] => .empty
  | [e] => e
  | e :: es => .seq e (ofList es)

/-- The first that matches. -/
def choice : List Plain → Build Plain
  | [] => return .empty
  | [e] => return e
  | e :: es => do return .alt (← fresh) e (← choice es)

/-- Builds `n` copies, each with numbers of its own. -/
def copies (build : Build Plain) : Nat → Build (List Plain)
  | 0 => return []
  | n + 1 => do return (← build) :: (← copies build n)

/-- What may or may not match. -/
def optional (greedy : Bool) (e : Plain) : Build Plain := do
  let id ← fresh
  return if greedy then .alt id e .empty else .alt id .empty e

/-- Up to `n` copies, each tried only after the one before has matched. -/
def optionals (greedy : Bool) (build : Build Plain) : Nat → Build Plain
  | 0 => return .empty
  | n + 1 => do
    let first ← build
    let rest ← optionals greedy build n
    optional greedy (.seq first rest)

/-- A repetition of what `build` builds. -/
def repetition (build : Build Plain) (least : Nat) (most : Option Nat) (greedy : Bool) : Build Plain := do
  match least, most with
  | 0, some 0 => do
    let _ ← build
    return .empty
  | 0, none => optional greedy (.loop (← fresh) (← build) greedy)
  | n + 1, none => do
    let first ← copies build n
    return ofList (first ++ [.loop (← fresh) (← build) greedy])
  | least, some most => do
    if least > most || most ≥ UInt32.size then throw .invalidRepetition
    let first ← copies build least
    return ofList (first ++ [← optionals greedy build (most - least)])

mutual
/-- The plain form of an expression that has no hard parts. -/
def ofExpr : Expr → Build Plain
  | .any true => oneOf .all
  | .any false => oneOf .notNewline
  | .assertion a => return .assertion a
  | .literal c ignoreCase => oneOf ((CharSet.single c).foldIf ignoreCase)
  | .set s => oneOf s
  | .concat parts => do return ofList (← ofExprs parts)
  | .alt branches => do choice (← ofExprs branches)
  | .group index body => do return .group index (← ofExpr body)
  | .repeated body least most greedy => repetition (ofExpr body) least most greedy
  | .empty | .look .. | .backref _ | .atomic _ | .keepOut | .searchStart | .groupMatched _ | .conditional .. =>
    return .empty

def ofExprs : List Expr → Build (List Plain)
  | [] => return []
  | e :: es => do return (← ofExpr e) :: (← ofExprs es)
end

/-- Builds one plain expression on its own. -/
def build (e : Build Plain) : Except CompileError Plain := (·.1) <$> e.run ⟨0, 0⟩

end Plain

/-! ### Expressions with hard parts -/

namespace Expr

mutual
/-- The numbers of the groups in an expression. -/
def groups : Expr → List Nat
  | group index body => index :: groups body
  | concat parts => groupsOf parts
  | alt branches => groupsOf branches
  | look _ _ body | repeated body .. | atomic body => groups body
  | conditional c t f => groups c ++ groups t ++ groups f
  | _ => []

def groupsOf : List Expr → List Nat
  | [] => []
  | e :: es => groups e ++ groupsOf es
end

end Expr

namespace Tree

/-- Building gives away slots beside those of the groups. -/
abbrev Build := StateT Nat (Except CompileError)

def freshMark : Build Nat := modifyGet fun n => (n, n + 1)

/-- One after another. -/
def ofList : List Tree → Tree
  | [] => .empty
  | [t] => t
  | t :: ts => .seq t (ofList ts)

/-- The first that matches. -/
def choice : List Tree → Tree
  | [] => .empty
  | [t] => t
  | t :: ts => .alt t (choice ts)

/-- Leaves easy parts that follow each other to the engine for plain expressions, or compares with them
    if they are one text. -/
def ofEasy (parts : List Expr) : Build (List Tree) := do
  if parts.isEmpty then return []
  match Expr.texts? parts with
  | some cs => return [.text cs]
  | none =>
    let e ← Plain.build do return Plain.ofList (← Plain.ofExprs parts)
    let groups := Expr.groupsOf parts
    let first := groups.min?.getD 0
    return [.plain e first (first + groups.length)]

/-- A lookaround. One that looks behind needs a body of fixed length. -/
def lookaround (direction : Direction) (negative : Bool) (shape : Expr.Shape) (body : Tree) : Build Tree := do
  match direction with
  | .ahead => return .look negative 0 body
  | .behind => if shape.fixed then return .look negative shape.least body else throw .variableLookbehind

/-- Joins the prepared parts of a sequence: the easy parts of fixed length at its start, and those at its
    end, are left to the engine for plain expressions. `hard` says that what comes after the sequence may
    send the match back into it; without that, easy parts at the end need no fixed length. -/
def sequence (refs : List Nat) (hard : Bool) (parts : List Expr) (trees : List Tree) : Build Tree := do
  let shapes := Expr.shapes refs parts
  let first := (shapes.takeWhile fun s => s.fixed && !s.hard).length
  let last := ((shapes.drop first).reverse.takeWhile fun s => !s.hard && (!hard || s.fixed)).length
  let stop := parts.length - last
  let opening ← ofEasy (parts.take first)
  let closing ← ofEasy (parts.drop stop)
  return ofList (opening ++ (trees.take stop).drop first ++ closing)

mutual
/-- The prepared form of an expression. `hard` says that what comes after it may send the match back into
    it. -/
def ofExpr (refs : List Nat) : Bool → Expr → Build Tree
  | hard, e@(.concat parts) => do
    if !hard && !(e.shape refs).hard then return ofList (← ofEasy [e])
    sequence refs hard parts (← ofExprs refs true parts)
  | hard, e@(.alt branches) => do
    if !hard && !(e.shape refs).hard then return ofList (← ofEasy [e])
    return choice (← ofExprs refs hard branches)
  | hard, e@(.group index body) => do
    if !hard && !(e.shape refs).hard then return ofList (← ofEasy [e])
    return .group index (← ofExpr refs hard body)
  | hard, e@(.repeated body least most greedy) => do
    if !hard && !(e.shape refs).hard then return ofList (← ofEasy [e])
    if most == none && (body.shape refs).least == 0 then
      return .repeatedEmpty (← ofExpr refs hard body) least greedy (← freshMark)
    else return .repeated (← ofExpr refs hard body) least most greedy
  | _, .look .behind negative (.alt branches) => do
    let shapes := Expr.shapes refs branches
    let shape := Expr.Shape.alt shapes
    if shape.fixed then
      let body ← if shape.hard then choice <$> ofExprs refs false branches
        else ofList <$> ofEasy [.alt branches]
      lookaround .behind negative shape body
    else
      -- Branches of different lengths are looked for one by one.
      let bodies ← ofExprs refs false branches
      let looks ← (shapes.zip bodies).mapM fun (shape, body) => lookaround .behind negative shape body
      return if negative then ofList looks else choice looks
  | _, .look direction negative body => do
    lookaround direction negative (body.shape refs) (← ofExpr refs false body)
  | _, .atomic body => do return .atomic (← ofExpr refs false body)
  | hard, .conditional c t f => do
    return .conditional (← ofExpr refs hard c) (← ofExpr refs hard t) (← ofExpr refs hard f)
  | _, .backref n => return .backref n
  | _, .keepOut => return .keepOut
  | _, .searchStart => return .searchStart
  | _, .groupMatched n => return .groupMatched n
  | _, .empty => return .empty
  | _, .any newline => return .any newline
  | _, .assertion a => return .assertion a
  | _, e@(.literal ..) => do return ofList (← ofEasy [e])
  | _, e@(.set _) => do return ofList (← ofEasy [e])

def ofExprs (refs : List Nat) (hard : Bool) : List Expr → Build (List Tree)
  | [] => return []
  | e :: es => do return (← ofExpr refs hard e) :: (← ofExprs refs hard es)
end

end Tree

/-! ### Programs -/

/-- A pattern prepared for matching, with the number of its groups, the whole match among them. -/
inductive Program where
  | plain (e : Plain) (groups : Nat)
  | tree (e : Tree) (groups slots : Nat)
  deriving Repr, Inhabited

namespace Program

/-- Prepares an expression that was read. -/
def ofParsed (p : Parsed) : Except CompileError Program := do
  if (p.expr.shape p.refs).hard then
    let groups := p.groups + 1
    let (e, slots) ← (Tree.ofExpr p.refs true p.expr).run (2 * groups)
    return .tree e groups slots
  else
    let e ← Plain.build (Plain.ofExpr p.expr)
    return .plain e e.groupCount

/-- Reads a pattern and prepares it. -/
def compile (text : List Char) : Except CompileError Program := do ofParsed (← parse text)

end Program
end Highlight.Regex
