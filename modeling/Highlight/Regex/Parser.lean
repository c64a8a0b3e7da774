import Highlight.Regex.Bracket
import Highlight.Regex.Expr
import Highlight.Span

/-! Reading a pattern. A pattern is a list of branches, a branch a list of pieces, a piece an atom with an
    optional quantifier. Groups nest up to a fixed depth, and the parser for a depth is built from the
    one for the depth below. -/

namespace Highlight.Regex

/-- Why a pattern cannot be compiled. -/
inductive CompileError where
  | unexpectedEnd
  | unclosedGroup
  | unclosedClass
  | invalidClass
  | invalidRepetition
  | nothingToRepeat
  | trailingBackslash
  | invalidEscape
  | invalidCode
  | unknownProperty
  | invalidGroupName
  | invalidBackref
  | mixedBackrefs
  | unknownFlag
  | invalidCondition
  | tooDeep
  | tooLarge
  | variableLookbehind
  deriving DecidableEq, Repr

def CompileError.message : CompileError → String
  | unexpectedEnd => "the pattern ends before its end is reached"
  | unclosedGroup => "a group is not closed"
  | unclosedClass => "a class is not closed"
  | invalidClass => "a class is malformed"
  | invalidRepetition => "a repetition has its bounds in the wrong order"
  | nothingToRepeat => "a quantifier has nothing to repeat"
  | trailingBackslash => "a backslash ends the pattern"
  | invalidEscape => "an escape is unknown"
  | invalidCode => "an escape stands for no character"
  | unknownProperty => "a character property is unknown"
  | invalidGroupName => "the name of a group is malformed"
  | invalidBackref => "a backreference names no group before it"
  | mixedBackrefs => "backreferences by number are not allowed beside named groups"
  | unknownFlag => "a flag is unknown"
  | invalidCondition => "a conditional group has no branch"
  | tooDeep => "groups are nested too deeply"
  | tooLarge => "the pattern is too large"
  | variableLookbehind => "a lookbehind has no fixed length"

/-- The modes in which the rest of a pattern is read. -/
structure Flags where
  ignoreCase : Bool
  multiLine : Bool
  dotAll : Bool
  swapGreed : Bool
  verbose : Bool
  deriving DecidableEq, Repr, Inhabited

namespace Parser

/-- What the parser keeps: the text still to be read, the modes, the number of groups opened so far, the
    named ones among them, and the groups that backreferences name. Numbers from `bound` on are not
    taken for groups. -/
structure State where
  rest : List Char
  flags : Flags
  groups : Nat
  names : List (String × Nat)
  refs : List Nat
  numbered : Bool
  bound : Nat

end Parser

/-- Reading with the state above, unless the pattern turns out to be malformed. -/
abbrev Parser := StateT Parser.State (Except CompileError)

namespace Parser

/-! ### Characters -/

def rest : Parser (List Char) := return (← get).rest

def setRest (cs : List Char) : Parser Unit := modify fun s => { s with rest := cs }

def flags : Parser Flags := return (← get).flags

def setFlags (f : Flags) : Parser Unit := modify fun s => { s with flags := f }

/-- What is read between the pieces of a pattern: nothing, a comment up to the end of the line, or a
    comment in parentheses. -/
inductive Gap where
  | between
  | line
  | comment

/-- Skips comments in parentheses, and blanks and line comments too in verbose mode. Gives nothing if a
    comment is not closed. -/
def skipGap (verbose : Bool) : Gap → List Char → Option (List Char)
  | .between, '(' :: '?' :: '#' :: cs => skipGap verbose .comment cs
  | .between, c :: cs =>
    if verbose && c == '#' then skipGap verbose .line cs
    else if verbose && (c == ' ' || c == '\r' || c == '\n' || c == '\t') then skipGap verbose .between cs
    else some (c :: cs)
  | .line, c :: cs => if c == '\n' then skipGap verbose .between cs else skipGap verbose .line cs
  | .comment, '\\' :: _ :: cs => skipGap verbose .comment cs
  | .comment, c :: cs => if c == ')' then skipGap verbose .between cs else skipGap verbose .comment cs
  | .between, [] => some []
  | .line, [] => some []
  | .comment, [] => none

def gap : Parser Unit := do
  let s ← get
  match skipGap s.flags.verbose .between s.rest with
  | some cs => setRest cs
  | none => throw .unclosedGroup

/-- Reads a run of decimal digits as a number below 2^64. -/
def decimal? (cs : List Char) : Option (Nat × List Char) :=
  let digits := cs.takeWhile Char.isDigit
  let n := digits.foldl (fun n c => n * 10 + (c.toNat - '0'.toNat)) 0
  if digits.isEmpty || n ≥ UInt64.size then none else some (n, cs.drop digits.length)

def hexValue? (c : Char) : Option Nat :=
  if c.isDigit then some (c.toNat - '0'.toNat)
  else if 'a' ≤ c && c ≤ 'f' then some (c.toNat - 'a'.toNat + 10)
  else if 'A' ≤ c && c ≤ 'F' then some (c.toNat - 'A'.toNat + 10)
  else none

/-- Reads all of `cs` as a hexadecimal number. -/
def hexNumber? (cs : List Char) : Option Nat :=
  if cs.isEmpty then none else cs.foldlM (fun n c => (hexValue? c).map (n * 16 + ·)) 0

/-- The character with a code, if it is one. -/
def charOfCode? (n : Nat) : Option Char := if n.isValidChar then some (Char.ofNat n) else none

/-- Reads an identifier between delimiters. -/
def name? (opening closing cs : List Char) : Option (String × List Char) :=
  if opening.isPrefixOf cs then
    let cs := cs.drop opening.length
    let id := cs.takeWhile fun c => Unicode.isAlphanumeric c || c == '_'
    let cs := cs.drop id.length
    if !id.isEmpty && closing.isPrefixOf cs then some (String.ofList id, cs.drop closing.length) else none
  else none

/-! ### Backreferences -/

/-- Checks that a group was opened before it is referred to. -/
def openGroup (n : Nat) : Parser Nat := do
  if n ≤ (← get).groups then return n else throw .invalidBackref

/-- Reads the number of a group. -/
def numberedGroup : Parser Nat := do
  let s ← get
  match decimal? s.rest with
  | some (n, cs) =>
    if n < s.bound then
      set { s with rest := cs, numbered := true }
      openGroup n
    else throw .invalidBackref
  | none => throw .invalidBackref

/-- Reads a group by its name, its number or, where allowed, its distance back from here. -/
def namedGroup (opening closing : List Char) (relative : Bool) : Parser Nat := do
  let s ← get
  match name? opening closing s.rest with
  | some (name, cs) =>
    setRest cs
    match s.names.find? (·.1 == name) with
    | some (_, n) => return n
    | none =>
      match decimal? name.toList with
      | some (n, []) => openGroup n
      | _ => throw .invalidBackref
  | none =>
    match if relative then name? (opening ++ ['-']) closing s.rest else none with
    | some (name, cs) =>
      setRest cs
      match decimal? name.toList with
      | some (n, []) => if 1 ≤ n && n ≤ s.groups then return s.groups + 1 - n else throw .invalidBackref
      | _ => throw .invalidBackref
    | none => throw .invalidGroupName

/-! ### Escapes -/

/-- What an escape stands for. -/
inductive Escape where
  | expr (e : Expr)
  | backref (group : Nat)
  | char (c : Char) (ignoreCase : Bool)
  | set (set : CharSet)

/-- Reads a code of a fixed number of hexadecimal digits, or of up to eight in braces. -/
def codePoint (digits : Nat) : Parser Char := do
  let cs ← rest
  let fixed := cs.take digits
  let (n, cs) ←
    if fixed.length == digits && fixed.all fun c => (hexValue? c).isSome then
      pure ((hexNumber? fixed).getD 0, cs.drop digits)
    else
      match cs with
      | '\x7b' :: cs =>
        let inner := cs.takeWhile fun c => (hexValue? c).isSome
        match hexNumber? inner, cs.drop inner.length with
        | some n, '\x7d' :: cs => if inner.length ≤ 8 then pure (n, cs) else throw .invalidCode
        | _, _ => throw .invalidCode
      | _ => throw .invalidCode
  setRest cs
  match charOfCode? n with
  | some c => return c
  | none => throw .invalidCode

/-- The property that a name between braces stands for; it may be a kind and a value. -/
def propertyOfName? (name : List Char) : Option (Unicode.Property × Bool) :=
  let kind := name.takeWhile fun c => c != '=' && c != ':'
  let negated := kind.getLast? == some '!' && name.getD kind.length ' ' == '='
  if kind.length < name.length then
    let value := String.ofList (name.drop (kind.length + 1))
    let kind := if negated then kind.dropLast else kind
    (Unicode.Property.ofKind? (String.ofList kind) value).map (·, negated)
  else (Unicode.Property.ofName? (String.ofList name)).map (·, false)

/-- Reads the name of a property, of one letter or between braces. -/
def property (negated : Bool) : Parser CharSet := do
  let f ← flags
  let (name, cs) ← match ← rest with
    | '\x7b' :: cs =>
      let name := cs.takeWhile (· != '\x7d')
      if name.length < cs.length then pure (name, cs.drop (name.length + 1)) else throw .invalidEscape
    | '\\' :: _ => throw .unknownProperty
    | c :: cs => pure ([c], cs)
    | [] => throw .invalidEscape
  setRest cs
  match propertyOfName? name with
  | some (p, unequal) => return ((CharSet.property p).foldIf f.ignoreCase).complIf (negated != unequal)
  | none => throw .unknownProperty

/-- Word boundaries in braces are not supported. -/
def boundary (a : Assertion) : Parser Escape := do
  match ← rest with
  | '\x7b' :: _ => throw .invalidEscape
  | _ => return .expr (.assertion a)

/-- Reads an escape after its backslash. Inside a class, assertions and the like stand for their
    letters. -/
def escape (inClass : Bool) : Parser Escape := do
  let f ← flags
  match ← rest with
  | [] => throw .trailingBackslash
  | c :: cs =>
    if c.isDigit then return .backref (← numberedGroup)
    setRest cs
    let outside : Option (Parser Escape) :=
      match c with
      | 'k' => some do
        match cs with
        | '\'' :: _ => return .backref (← namedGroup ['\''] ['\''] true)
        | _ => return .backref (← namedGroup ['<'] ['>'] true)
      | 'A' => some (return .expr (.assertion .textStart))
      | 'z' => some (return .expr (.assertion .textEnd))
      | 'b' => some (boundary .wordBoundary)
      | 'B' => some (boundary .notWordBoundary)
      | '<' => some (return .expr (.assertion .wordStart))
      | '>' => some (return .expr (.assertion .wordEnd))
      | 'K' => some (return .expr .keepOut)
      | 'G' => some (return .expr .searchStart)
      | _ => none
    match if inClass then none else outside with
    | some read => read
    | none =>
      match c with
      | 'd' => return .set .digit
      | 'D' => return .set (.compl .digit)
      | 's' => return .set .space
      | 'S' => return .set (.compl .space)
      | 'w' => return .set .word
      | 'W' => return .set (.compl .word)
      | 'h' => return .set .hexDigit
      | 'H' => return .set (.compl .hexDigit)
      | 'x' => return .char (← codePoint 2) f.ignoreCase
      | 'u' => return .char (← codePoint 4) f.ignoreCase
      | 'U' => return .char (← codePoint 8) f.ignoreCase
      | 'p' => return .set (← property false)
      | 'P' => return .set (← property true)
      | 'a' => return .char '\x07' false
      | 'b' => return .char '\x08' false
      | 'f' => return .char '\x0c' false
      | 'n' => return .char '\n' false
      | 'r' => return .char '\r' false
      | 't' => return .char '\t' false
      | 'v' => return .char '\x0b' false
      | 'e' => return .char '\x1b' false
      | c =>
        if c.isAlpha && outside.isNone then throw .invalidEscape
        else return .char c false

/-! ### Classes -/

/-- Reads the items of a class up to the closing bracket, which is among them. `nest` counts the
    brackets that are open. -/
def classItems : Nat → Nat → Parser (List ClassItem)
  | 0, _ => throw .unclosedClass
  | fuel + 1, nest => do
    match ← rest with
    | [] => throw .unclosedClass
    | '\\' :: cs =>
      setRest cs
      let item ← match ← escape true with
        | .char c _ => pure (ClassItem.ofEscape c)
        | .set s => pure (.many s)
        | _ => throw .invalidClass
      return item :: (← classItems fuel nest)
    | '[' :: cs =>
      setRest cs
      return .raw '[' :: (← classItems fuel (nest + 1))
    | ']' :: cs =>
      setRest cs
      if nest ≤ 1 then return [.raw ']'] else return .raw ']' :: (← classItems fuel (nest - 1))
    | c :: cs =>
      setRest cs
      return .raw c :: (← classItems fuel nest)

/-- Reads a class after its opening bracket. -/
def bracketed : Parser Expr := do
  let f ← flags
  let (caret, cs) := match ← rest with
    | '^' :: cs => ([ClassItem.raw '^'], cs)
    | cs => ([], cs)
  let (bracket, cs) := match cs with
    | ']' :: cs => ([ClassItem.raw ']'], cs)
    | cs => ([], cs)
  setRest cs
  let items ← classItems (cs.length + 1) 1
  match Bracket.read? f.ignoreCase (caret ++ bracket ++ items) with
  | some (set, []) => return .set set
  | some (set, more) =>
    return .concat (.set set :: more.filterMap fun i => (Bracket.char? i).map fun c => .literal c f.ignoreCase)
  | none => throw .invalidClass

/-! ### Quantifiers -/

/-- Reads the bounds of a repetition in braces. What is no repetition is taken literally. -/
def bounds? (verbose : Bool) (cs : List Char) : Option (Nat × Option Nat × List Char) := do
  let skip := skipGap verbose .between
  let '\x7b' :: cs := cs | none
  let cs ← skip cs
  let (least, cs) ← match cs with
    | ',' :: _ => some (0, cs)
    | _ => decimal? cs
  let cs ← skip cs
  let (most, cs) ← match cs with
    | '\x7d' :: _ => some (some least, cs)
    | ',' :: cs =>
      (skip cs).map fun cs =>
        match decimal? cs with
        | some (n, cs) => (some n, cs)
        | none => (none, cs)
    | _ => none
  let cs ← skip cs
  let '\x7d' :: cs := cs | none
  return (least, most, cs)

/-- Reads the quantifier after an atom, if there is one. -/
def quantified (atom : Expr) : Parser Expr := do
  let s ← get
  let found : Option (Nat × Option Nat × List Char) :=
    match s.rest with
    | '?' :: cs => some (0, some 1, cs)
    | '*' :: cs => some (0, none, cs)
    | '+' :: cs => some (1, none, cs)
    | '\x7b' :: _ => bounds? s.flags.verbose s.rest
    | _ => none
  match found with
  | none => return atom
  | some (least, most, cs) =>
    if !atom.isRepeatable then throw .nothingToRepeat
    setRest cs
    gap
    let lazy ← match ← rest with
      | '?' :: cs => setRest cs; pure true
      | _ => pure false
    let e := Expr.repeated atom least most (lazy == s.flags.swapGreed)
    match ← rest with
    | '+' :: cs => setRest cs; return .atomic e
    | _ => return e

/-! ### Groups -/

/-- Reads the closing parenthesis of a group. -/
def closeGroup : Parser Unit := do
  gap
  match ← rest with
  | ')' :: cs => setRest cs
  | _ => throw .unclosedGroup

/-- Opens a capture group and gives its number. -/
def newGroup : Parser Nat := do
  modify fun s => { s with groups := s.groups + 1 }
  return (← get).groups

/-- Opens a capture group with a name. -/
def newNamedGroup (opening closing : List Char) : Parser Nat := do
  let index ← newGroup
  match name? opening closing (← rest) with
  | some (name, cs) =>
    setRest cs
    modify fun s => { s with names := (name, index) :: s.names }
    return index
  | none => throw .invalidGroupName

/-- Reads the flags of a group. With a body they hold up to the end of the group. Without one they hold on, also
    behind the end of a group around them that sets no flags: up to the end of the next group around them that has
    flags and a body, or up to the end of the pattern. -/
def flagGroup (inner : Parser Expr) : Parser Expr := do
  let old ← flags
  let start := (← rest).length
  go old start (start + 1) false
where
  go (old : Flags) (start : Nat) : Nat → Bool → Parser Expr
    | 0, _ => throw .unclosedGroup
    | fuel + 1, negated => do
      gap
      let f ← flags
      match ← rest with
      | [] => throw .unclosedGroup
      | c :: cs =>
        let taken := start - (cs.length + 1)
        setRest cs
        match c with
        | 'i' => setFlags { f with ignoreCase := !negated }; go old start fuel negated
        | 'm' => setFlags { f with multiLine := !negated }; go old start fuel negated
        | 's' => setFlags { f with dotAll := !negated }; go old start fuel negated
        | 'U' => setFlags { f with swapGreed := !negated }; go old start fuel negated
        | 'x' => setFlags { f with verbose := !negated }; go old start fuel negated
        | 'u' => if negated then throw .unknownFlag else go old start fuel negated
        | '-' => if negated then throw .unknownFlag else go old start fuel true
        | ')' => if taken == 0 || negated && taken == 1 then throw .unknownFlag else return .empty
        | ':' =>
          if negated && taken == 1 then throw .unknownFlag
          let body ← inner
          match ← rest with
          | ')' :: cs =>
            setRest cs
            setFlags old
            return body
          | _ => throw .unclosedGroup
        | _ => throw .unknownFlag

/-- Reads a conditional group after its second parenthesis: a condition, then a branch for when it holds
    and perhaps one for when it does not. -/
def conditional (inner : Parser Expr) : Parser Expr := do
  let condition ← match ← rest with
    | [] => throw .unclosedGroup
    | '\'' :: _ => pure (.groupMatched (← namedGroup ['\''] ['\''] true))
    | '<' :: _ => pure (.groupMatched (← namedGroup ['<'] ['>'] true))
    | c :: _ => if c.isDigit then pure (.groupMatched (← numberedGroup)) else inner
  let condition := match condition with
    | .backref n => .groupMatched n
    | e => e
  closeGroup
  let here := (← rest).length
  let body ← inner
  if (← rest).length == here then
    match condition with
    | .groupMatched _ =>
      closeGroup
      return condition
    | _ => throw .invalidCondition
  closeGroup
  let (ifTrue, ifFalse) := match body with
    | .alt (first :: rest) => (first, match rest with
      | [second] => second
      | rest => Expr.alt rest)
    | e => (e, .empty)
  if ifTrue.isEmpty && ifFalse.isEmpty then return condition
  else return .conditional condition ifTrue ifFalse

/-- Reads a group after its opening parenthesis. -/
def group (inner : Parser Expr) : Parser Expr := do
  gap
  let body (wrap : Expr → Expr) : Parser Expr := do
    let e ← inner
    closeGroup
    return wrap e
  match ← rest with
  | '?' :: '=' :: cs => setRest cs; body (.look .ahead false)
  | '?' :: '!' :: cs => setRest cs; body (.look .ahead true)
  | '?' :: '<' :: '=' :: cs => setRest cs; body (.look .behind false)
  | '?' :: '<' :: '!' :: cs => setRest cs; body (.look .behind true)
  | '?' :: '<' :: cs =>
    setRest ('<' :: cs)
    body (.group (← newNamedGroup ['<'] ['>']))
  | '?' :: '\'' :: cs =>
    setRest ('\'' :: cs)
    body (.group (← newNamedGroup ['\''] ['\'']))
  | '?' :: 'P' :: '<' :: cs =>
    setRest ('<' :: cs)
    body (.group (← newNamedGroup ['<'] ['>']))
  | '?' :: 'P' :: '=' :: cs =>
    setRest cs
    return .backref (← namedGroup [] [')'] false)
  | '?' :: '>' :: cs => setRest cs; body .atomic
  | '?' :: '(' :: cs => setRest cs; conditional inner
  | '?' :: cs => setRest cs; flagGroup inner
  | _ => body (.group (← newGroup))

/-! ### Pieces, branches and patterns -/

/-- Reads an atom, if one is next: quantifiers, bars and closing parentheses start none. -/
def atom (inner : Option (Parser Expr)) : Parser (Option Expr) := do
  gap
  let f ← flags
  match ← rest with
  | [] => return none
  | c :: cs =>
    let taken (e : Expr) : Parser (Option Expr) := do
      setRest cs
      return some e
    match c with
    | '.' => taken (.any f.dotAll)
    | '^' => taken (.assertion (if f.multiLine then .lineStart else .textStart))
    | '$' => taken (.assertion (if f.multiLine then .lineEnd else .textEnd))
    | '(' =>
      setRest cs
      match inner with
      | some inner => return some (← group inner)
      | none => throw .tooDeep
    | '\\' =>
      setRest cs
      match ← escape false with
      | .expr e => return some e
      | .backref n =>
        modify fun s => { s with refs := n :: s.refs }
        return some (.backref n)
      | .char c ignoreCase => return some (.literal c ignoreCase)
      | .set s => return some (.set s)
    | '+' | '*' | '?' | '|' | ')' => return none
    | '[' =>
      setRest cs
      return some (← bracketed)
    | c => taken (.literal c f.ignoreCase)

/-- Reads an atom with its quantifier, if there is one. -/
def piece (inner : Option (Parser Expr)) : Parser (Option Expr) := do
  let found ← atom inner
  gap
  match found with
  | some e => return some (← quantified e)
  | none =>
    match ← rest with
    | '?' :: _ | '*' :: _ | '+' :: _ => throw .nothingToRepeat
    | _ => return none

/-- Reads the pieces of a branch; pieces that stand for nothing are dropped. -/
def pieces (inner : Option (Parser Expr)) : Nat → Parser (List Expr)
  | 0 => return []
  | fuel + 1 => do
    match ← piece inner with
    | none => return []
    | some e =>
      let es ← pieces inner fuel
      return if e.isEmpty then es else e :: es

def branch (inner : Option (Parser Expr)) : Parser Expr := do
  return Expr.ofParts (← pieces inner ((← rest).length + 1))

/-- Reads the branches that follow bars. -/
def branches (inner : Option (Parser Expr)) : Nat → Parser (List Expr)
  | 0 => return []
  | fuel + 1 => do
    match ← rest with
    | '|' :: cs =>
      setRest cs
      let e ← branch inner
      gap
      return e :: (← branches inner fuel)
    | _ => return []

/-- Reads a list of branches. Backreferences by number beside named groups are refused here, where no
    bar was read. -/
def alternation (inner : Option (Parser Expr)) : Parser Expr := do
  let first ← branch inner
  gap
  match ← branches inner ((← rest).length + 1) with
  | [] =>
    let s ← get
    if s.numbered && !s.names.isEmpty then throw .mixedBackrefs
    return first
  | others => return .alt (first :: others)

/-- Reads a pattern that may nest groups less than `depth` deep. -/
def pattern : Nat → Parser Expr
  | 0 => throw .tooDeep
  | depth + 1 => alternation (if depth == 0 then none else some (pattern depth))

/-- The depth that groups may not reach. -/
def maxDepth : Nat := 64

end Parser

/-- A pattern that was read: the expression, the number of its groups and those that backreferences
    name. -/
structure Parsed where
  expr : Expr
  groups : Nat
  refs : List Nat
  deriving Repr

/-- Reads all of a pattern. -/
def parse (text : List Char) : Except CompileError Parsed := do
  let bytes := byteLength text
  let (expr, s) ← (Parser.pattern Parser.maxDepth).run
    { rest := text, flags := default, groups := 0, names := [], refs := [], numbered := false,
      bound := bytes / 2 }
  if s.rest.isEmpty then return ⟨expr, s.groups, s.refs⟩ else throw .unexpectedEnd

end Highlight.Regex
