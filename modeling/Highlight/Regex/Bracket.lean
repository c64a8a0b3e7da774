import Highlight.Regex.CharSet
import Highlight.Regex.Literal

/-! Bracketed classes: the characters, ranges, named classes and nested classes between brackets, joined
    by the set operations "&&", "--" and "~~". A class is read in two steps: escapes first, which give
    the items below, then the structure. -/

namespace Highlight.Regex

/-- An item between brackets. A raw character may have a meaning of its own there, an escaped one has
    none. -/
inductive ClassItem where
  | raw (c : Char)
  | escaped (c : Char)
  | many (set : CharSet)
  deriving DecidableEq, Repr

namespace ClassItem

/-- The item for a character that was written as an escape. Only a special character needs to be kept
    from its meaning. -/
def ofEscape (c : Char) : ClassItem := if isSpecial c then escaped c else raw c

end ClassItem

namespace Bracket
open ClassItem

/-- The operations between sets; all bind alike and to the left. -/
inductive SetOp where
  | inter
  | diff
  | symmDiff
  deriving DecidableEq, Repr

def SetOp.apply : SetOp → CharSet → CharSet → CharSet
  | inter, a, b => .inter a b
  | diff, a, b => .diff a b
  | symmDiff, a, b => .symmDiff a b

/-- What has been read of one class: the items since the last operation, and the operand and the
    operation before them. -/
structure Open where
  pending : Option (CharSet × SetOp)
  items : CharSet
  deriving Repr

namespace Open

def add (o : Open) (set : CharSet) : Open :=
  { o with items := if o.items = .none then set else .union o.items set }

/-- The set of everything read. The operands of an operation have their other cases added first. -/
def set (ignoreCase : Bool) (o : Open) : CharSet :=
  match o.pending with
  | none => o.items
  | some (left, op) => op.apply (left.foldIf ignoreCase) (o.items.foldIf ignoreCase)

def operator (ignoreCase : Bool) (o : Open) (op : SetOp) : Open := ⟨some (o.set ignoreCase, op), .none⟩

end Open

/-- Reads the name of a class of ASCII characters after a bracket, as in "[:alpha:]". -/
def asciiClass? (ignoreCase : Bool) (items : List ClassItem) : Option (CharSet × List ClassItem) := do
  let .raw ':' :: rest := items | none
  let (negated, rest) := match rest with
    | .raw '^' :: rest => (true, rest)
    | rest => (false, rest)
  let name := rest.takeWhile fun i => match i with
    | .raw c => c != ':'
    | _ => false
  let .raw ':' :: .raw ']' :: rest := rest.drop name.length | none
  let letters := name.filterMap fun i => match i with
    | .raw c => some c
    | _ => none
  let set ← CharSet.ofClassName? (String.ofList letters)
  return ((set.foldIf ignoreCase).complIf negated, rest)

/-- Takes the hyphens and the closing bracket that stand for themselves at the start of a class. -/
def leading (items : List ClassItem) : Open × List ClassItem :=
  let hyphens := items.takeWhile (· == .raw '-')
  let rest := items.drop hyphens.length
  if hyphens.isEmpty then
    match rest with
    | .raw ']' :: rest => (⟨none, .single ']'⟩, rest)
    | rest => (⟨none, .none⟩, rest)
  else (⟨none, .single '-'⟩, rest)

/-- The one character an item stands for, if it is no set. -/
def char? : ClassItem → Option Char
  | .raw c | .escaped c => some c
  | .many _ => none

def itemSet : ClassItem → CharSet
  | .raw c | .escaped c => .single c
  | .many s => s

/-- Reads one item or one range. -/
def range? : List ClassItem → Option (CharSet × List ClassItem)
  | first :: .raw '-' :: .raw ']' :: rest => some (itemSet first, .raw '-' :: .raw ']' :: rest)
  | first :: .raw '-' :: .raw '-' :: rest => some (itemSet first, .raw '-' :: .raw '-' :: rest)
  | first :: .raw '-' :: last :: rest => do
    let low ← char? first
    let high ← char? last
    if low ≤ high then some (.range low high, rest) else none
  | _ :: .raw '-' :: [] => none
  | first :: rest => some (itemSet first, rest)
  | [] => none

/-- Reads the rest of a class after its opening bracket, up to and with the closing one. The fuel is one
    more than the number of items. -/
def class? (ignoreCase : Bool) : Nat → List ClassItem → Option (CharSet × List ClassItem)
  | 0, _ => none
  | fuel + 1, items =>
    let (negated, items) := match items with
      | .raw '^' :: rest => (true, rest)
      | items => (false, items)
    let (start, items) := leading items
    body fuel negated start items
where
  body : Nat → Bool → Open → List ClassItem → Option (CharSet × List ClassItem)
    | 0, _, _, _ => none
    | fuel + 1, negated, o, items =>
      match items with
      | [] => none
      | .raw ']' :: rest => some (((o.set ignoreCase).foldIf ignoreCase).complIf negated, rest)
      | .raw '[' :: rest =>
        match asciiClass? ignoreCase rest with
        | some (set, rest) => body fuel negated (o.add set) rest
        | none =>
          match class? ignoreCase fuel rest with
          | some (set, rest) => body fuel negated (o.add set) rest
          | none => none
      | .raw '&' :: .raw '&' :: rest => body fuel negated (o.operator ignoreCase .inter) rest
      | .raw '-' :: .raw '-' :: rest => body fuel negated (o.operator ignoreCase .diff) rest
      | .raw '~' :: .raw '~' :: rest => body fuel negated (o.operator ignoreCase .symmDiff) rest
      | items =>
        match range? items with
        | some (set, rest) => body fuel negated (o.add set) rest
        | none => none

/-- The set described by the items after an opening bracket, and what is left after the closing one. -/
def read? (ignoreCase : Bool) (items : List ClassItem) : Option (CharSet × List ClassItem) :=
  class? ignoreCase (2 * items.length + 2) items

end Bracket
end Highlight.Regex
