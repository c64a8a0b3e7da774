import Highlight.Yaml.Token

/-! The nodes of a YAML document: what its tokens put together. -/

namespace Highlight.Yaml

/-- A scalar, a sequence or a mapping, each with the tag that is written before it, or a place where a node
    that has a name stands again. A scalar is plain if it is written without quotes and in line. -/
inductive Node where
  | scalar (text : String) (plain : Bool) (tag : Option String)
  | sequence (items : List Node) (tag : Option String)
  | mapping (members : List (Node × Node)) (tag : Option String)
  | reference (anchor : Nat)
  deriving Repr, Inhabited

namespace Node

/-- The scalar that stands where nothing is written. -/
def empty : Node := .scalar "" true none

mutual
/-- How many marks a node consists of: a scalar is one, and a collection has one at either end. -/
def marks : Node → Nat
  | .scalar .. => 1
  | .reference _ => 1
  | .sequence items _ => marksOfItems items + 2
  | .mapping members _ => marksOfMembers members + 2

def marksOfItems : List Node → Nat
  | [] => 0
  | item :: items => item.marks + marksOfItems items

def marksOfMembers : List (Node × Node) → Nat
  | [] => 0
  | (key, value) :: members => key.marks + value.marks + marksOfMembers members
end

end Node

/-! ### Anchors -/

/-- The named nodes of a document. An anchor has the number of names that are in use before it; if a name is
    used again, two anchors can have one number, and the number stands for the later one. -/
structure Anchors where
  /-- The number that each name has now. -/
  numbers : List (String × Nat) := []
  /-- The anchors in the order in which they are written, each with its number and, when it is complete, its
      node. -/
  written : Array (Nat × Option Node) := #[]

namespace Anchors

/-- Adds an anchor; its node is still to come. The result is the place of the anchor. -/
def add (name : String) (anchors : Anchors) : Nat × Anchors :=
  let number := anchors.numbers.length
  let numbers := (name, number) :: anchors.numbers.filter (·.1 != name)
  (anchors.written.size, ⟨numbers, anchors.written.push (number, none)⟩)

/-- Completes the anchor at a place. -/
def complete (place : Nat) (node : Node) (anchors : Anchors) : Anchors :=
  { anchors with written := anchors.written.modify place fun (number, _) => (number, some node) }

/-- The number that a name has. -/
def number? (name : String) (anchors : Anchors) : Option Nat :=
  (anchors.numbers.find? (·.1 == name)).map (·.2)

/-- The node that a number stands for. -/
def node? (number : Nat) (anchors : Anchors) : Option Node :=
  (anchors.written.toList.reverse.find? (·.1 == number)).bind (·.2)

end Anchors

/-! ### From tokens to nodes -/

/-- A sequence of tokens that is read up to some place. -/
structure Reading where
  tokens : List Token
  /-- What the handles of tags stand for. -/
  handles : List (String × String) := []
  anchors : Anchors := {}

abbrev Reader := StateT Reading Option

namespace Reader

/-- The next token, if there is one. -/
def peek : Reader (Option Token) := do return (← get).tokens.head?

def skip : Reader Unit := modify fun r => { r with tokens := r.tokens.drop 1 }

/-- Skips the next token if it is a certain one. -/
def skipIf (token : Token) : Reader Bool := do
  if (← peek) == some token then
    skip
    return true
  return false

/-- Whether the next token is one of some. -/
def isNext (tokens : List Token) : Reader Bool := do
  return (← peek).any tokens.contains

/-- The full name of a tag. -/
def tagName (tag : Tag) : Reader String := do
  if tag.handle.isEmpty then return tag.suffix
  match (← get).handles.find? (·.1 == tag.handle) with
  | some (_, expansion) => return expansion ++ tag.suffix
  | none => failure

/-- Reads the anchor and the tag of a node, in any order. -/
def properties : Reader (Option String × Option Tag) := do
  match ← peek with
  | some (.anchor name) => do
    skip
    match ← peek with
    | some (.tag tag) => do
      skip
      return (some name, some tag)
    | _ => return (some name, none)
  | some (.tag tag) => do
    skip
    match ← peek with
    | some (.anchor name) => do
      skip
      return (some name, some tag)
    | _ => return (none, some tag)
  | _ => return (none, none)

/-- Reads a scalar. The tag `!` says that it has no other. -/
def scalar (text : String) (plain : Bool) (tag : Option String) : Reader Node := do
  skip
  if tag == some "!" then return .scalar text true none
  return .scalar text plain tag

mutual
/-- Reads a node. Collections that are written over lines stand outside brackets only, and after a key a
    sequence need not be indented. -/
def node (overLines unindented : Bool) : Nat → Reader Node
  | 0 => failure
  | fuel + 1 => do
    if let some (.reference name) ← peek then
      skip
      let some number := (← get).anchors.number? name | failure
      return .reference number
    let (anchor, tag) ← properties
    let tag ← tag.mapM tagName
    let content := content overLines unindented (anchor.isSome || tag.isSome) tag fuel
    match anchor with
    | none => content
    | some name => do
      let place ← modifyGet fun r =>
        let (place, anchors) := r.anchors.add name
        (place, { r with anchors })
      let node ← content
      modify fun r => { r with anchors := r.anchors.complete place node }
      return node

/-- Reads what follows the anchor and the tag of a node. -/
def content (overLines unindented hasProperties : Bool) (tag : Option String) : Nat → Reader Node
  | 0 => failure
  | fuel + 1 => do
    match ← peek with
    | some (.scalar text plain) => scalar text plain tag
    | some .flowSequence => do
      skip
      return .sequence (← flowItems true fuel) tag
    | some .flowMapping => do
      skip
      return .mapping (← flowMembers true fuel) tag
    | some .blockEntry =>
      if unindented then return .sequence (← unindentedItems fuel) tag
      else if hasProperties then return .scalar "" true tag
      else failure
    | some .blockSequence =>
      if overLines then do
        skip
        return .sequence (← blockItems fuel) tag
      else if hasProperties then return .scalar "" true tag
      else failure
    | some .blockMapping =>
      if overLines then do
        skip
        return .mapping (← blockMembers fuel) tag
      else if hasProperties then return .scalar "" true tag
      else failure
    | _ => if hasProperties then return .scalar "" true tag else failure

/-- Reads a node, or nothing if one of some tokens comes next. -/
def optional (overLines unindented : Bool) (stops : List Token) : Nat → Reader Node
  | 0 => failure
  | fuel + 1 => do
    if ← isNext stops then return .empty
    node overLines unindented fuel

/-- Reads the items of an indented sequence, with its end. -/
def blockItems : Nat → Reader (List Node)
  | 0 => failure
  | fuel + 1 => do
    if ← skipIf .blockEntry then
      let item ← optional true false [.blockEntry, .blockEnd] fuel
      return item :: (← blockItems fuel)
    else if ← skipIf .blockEnd then return []
    else failure

/-- Reads the items of a sequence that is not indented. -/
def unindentedItems : Nat → Reader (List Node)
  | 0 => failure
  | fuel + 1 => do
    if ← skipIf .blockEntry then
      let item ← optional true false [.blockEntry, .key, .value, .blockEnd] fuel
      return item :: (← unindentedItems fuel)
    else return []

/-- Reads the members of a mapping that is written over lines, with its end. -/
def blockMembers : Nat → Reader (List (Node × Node))
  | 0 => failure
  | fuel + 1 => do
    if ← skipIf .key then
      let key ← optional true true [.key, .value, .blockEnd] fuel
      let value ← if ← skipIf .value then optional true true [.key, .value, .blockEnd] fuel else pure .empty
      return (key, value) :: (← blockMembers fuel)
    else if ← skipIf .blockEnd then return []
    else failure

/-- Reads the items of a sequence in brackets, with its end. An item with a colon is a mapping of one
    member. -/
def flowItems (first : Bool) : Nat → Reader (List Node)
  | 0 => failure
  | fuel + 1 => do
    if ← skipIf .flowSequenceEnd then return []
    if !first && !(← skipIf .flowEntry) then failure
    if ← skipIf .flowSequenceEnd then return []
    let item ← if ← skipIf .key then pair fuel else node false false fuel
    return item :: (← flowItems false fuel)

/-- Reads a mapping of one member that stands in a sequence in brackets, after the start of its key. If the
    key is missing, so is the token in its place. -/
def pair : Nat → Reader Node
  | 0 => failure
  | fuel + 1 => do
    let key ← if ← isNext [.value, .flowEntry, .flowSequenceEnd] then do
        skip
        pure Node.empty
      else node false false fuel
    let value ← if ← skipIf .value then optional false false [.flowEntry, .flowSequenceEnd] fuel
      else pure Node.empty
    return .mapping [(key, value)] none

/-- Reads the members of a mapping in braces, with its end. -/
def flowMembers (first : Bool) : Nat → Reader (List (Node × Node))
  | 0 => failure
  | fuel + 1 => do
    if ← skipIf .flowMappingEnd then return []
    if !first && !(← skipIf .flowEntry) then failure
    if ← skipIf .flowMappingEnd then return []
    let member ← if ← skipIf .key then do
        let key ← optional false false [.value, .flowEntry, .flowMappingEnd] fuel
        let value ← if ← skipIf .value then optional false false [.flowEntry, .flowMappingEnd] fuel
          else pure Node.empty
        pure (key, value)
      else do
        let key ← node false false fuel
        pure (key, Node.empty)
    return member :: (← flowMembers false fuel)
end

/-! ### Documents -/

/-- Reads a directive. The version is given once, and is 1.1 or 1.2; a handle is given once. -/
def directive (versionGiven : Bool) (directive : Directive) : Reader Unit := do
  match directive with
  | .version major minor => if versionGiven || major != 1 || !(minor == 1 || minor == 2) then failure
  | .handle handle expansion => do
    if (← get).handles.any (·.1 == handle) then failure
    modify fun r => { r with handles := r.handles ++ [(handle, expansion)] }

/-- Reads the directives before a document. -/
def directives (versionGiven : Bool) : Nat → Reader Unit
  | 0 => failure
  | fuel + 1 => do
    if let some (.directive d) ← peek then
      skip
      directive versionGiven d
      directives (versionGiven || d matches .version ..) fuel

/-- Skips the marks of a document's end. -/
def documentEnds : Nat → Reader Unit
  | 0 => failure
  | fuel + 1 => do if ← skipIf .documentEnd then documentEnds fuel

/-- What the handles stand for of which no directive says it. -/
def defaultHandles : List (String × String) := [("!", "!"), ("!!", "tag:yaml.org,2002:")]

/-- Reads the first document, which is missing if there are no tokens, and makes sure that no other one
    follows. -/
def document (fuel : Nat) : Reader (Option Node) := do
  let isDirective (t : Token) : Bool := t matches .directive _
  match ← peek with
  | none => return none
  | some first => do
    let isMarked := isDirective first || first == .documentStart
    if isMarked then
      directives false fuel
      if !(← skipIf .documentStart) then failure
    modify fun r => { r with handles := r.handles ++ defaultHandles }
    let isEmpty := isMarked && (← peek).all fun t => isDirective t || [.documentStart, .documentEnd].contains t
    let root ← if isEmpty then pure .empty else node true false fuel
    documentEnds fuel
    if (← peek).isSome then failure
    return some root

end Reader

/-! ### Aliases -/

/-- How deep collections may be nested. -/
def maxDepth : Nat := 128

/-- How often aliases may be followed for each mark of a document. -/
def followedPerMark : Nat := 100

/-- The node that an alias stands for, or the node itself. The state counts how often aliases may still be
    followed. -/
def follow (anchors : Anchors) : Node → StateT Nat Option Node
  | .reference number => do
    if (← get) = 0 then failure
    modify (· - 1)
    match anchors.node? number with
    | some node => return node
    | none => failure
  | node => return node

/-- A node with the nodes that its aliases stand for put in their place. -/
def expand (anchors : Anchors) : Nat → Node → StateT Nat Option Node
  | depth, node => do
    match ← follow anchors node, depth with
    | .sequence items tag, depth + 1 => return .sequence (← items.mapM (expand anchors depth)) tag
    | .mapping members tag, depth + 1 =>
      return .mapping (← members.mapM fun (key, value) => do
        return (← expand anchors depth key, ← expand anchors depth value)) tag
    | .scalar text plain tag, _ => return .scalar text plain tag
    | _, _ => failure

/-- The node that a text holds, without aliases, or nothing if the text holds none. The outer option tells
    whether the text can be read. -/
def Node.ofText? (text : List Char) : Option (Option Node) := do
  let tokens ← Token.ofText? text
  let (root, reading) ← (Reader.document (4 * tokens.length + 4)).run { tokens }
  match root with
  | none => return none
  | some root => do
    let (root, _) ← (expand reading.anchors maxDepth root).run (followedPerMark * root.marks)
    return some root

end Highlight.Yaml
