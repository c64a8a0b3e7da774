import Highlight.Datum
import Highlight.Decimal.Shortest
import Highlight.Yaml.Node

/-! What the nodes of a document stand for: a plain scalar may be null, a truth value or a number, and every
    other scalar is a text, unless a tag says what it is. -/

namespace Highlight.Yaml

/-! ### Scalars -/

def isNull (text : String) : Bool := ["null", "Null", "NULL", "~"].contains text

def bool? (text : String) : Option Bool :=
  if ["true", "True", "TRUE"].contains text then some true
  else if ["false", "False", "FALSE"].contains text then some false
  else none

/-- The value of a digit in a base of at most sixteen. -/
def digit? (base : Nat) (c : Char) : Option Nat := (hexDigit? c).filter (· < base)

/-- The number that digits stand for, of which there is at least one. -/
def digits? (base : Nat) (text : List Char) : Option Nat :=
  if text.isEmpty then none else text.foldlM (fun n c => (digit? base c).map (base * n + ·)) 0

/-- The number that digits after the sign of their base stand for. -/
def based? : List Char → Option Nat
  | '0' :: 'x' :: rest => digits? 16 rest
  | '0' :: 'o' :: rest => digits? 8 rest
  | '0' :: 'b' :: rest => digits? 2 rest
  | _ => none

def dropSign : List Char → List Char
  | '+' :: rest => rest
  | '-' :: rest => rest
  | text => text

/-- Whether a text consists of digits but starts with a zero that does not belong there. -/
def isPadded (text : List Char) : Bool :=
  match dropSign text with
  | '0' :: c :: rest => (c :: rest).all Char.isDigit
  | _ => false

/-- The whole number that a text stands for, with its sign: in base ten, or in the base after its first
    zero. -/
def int? (text : List Char) : Option (Bool × Nat) :=
  match text with
  | '-' :: rest =>
    ((based? rest).orElse fun () => if isPadded text then none else digits? 10 rest).map (true, ·)
  | _ =>
    let digits := match text with
      | '+' :: rest => rest
      | rest => rest
    ((based? digits).orElse fun () => if isPadded text then none else digits? 10 digits).map (false, ·)

/-- Reads an exponent that ends the text. -/
def isExponent : List Char → Bool
  | [] => true
  | c :: rest => (c == 'e' || c == 'E') && (digits? 10 (dropSign rest)).isSome

/-- Whether a text without sign is digits, with a point among or beside them, and an exponent. -/
def isDecimal (text : List Char) : Bool :=
  let whole := text.takeWhile Char.isDigit
  match text.dropWhile Char.isDigit with
  | '.' :: rest =>
    !(whole.isEmpty && (rest.takeWhile Char.isDigit).isEmpty) && isExponent (rest.dropWhile Char.isDigit)
  | rest => !whole.isEmpty && isExponent rest

/-- The value of a decimal without sign. -/
def decimalValue (text : List Char) : Float :=
  let whole := text.takeWhile Char.isDigit
  let (fraction, rest) := match text.dropWhile Char.isDigit with
    | '.' :: rest => (rest.takeWhile Char.isDigit, rest.dropWhile Char.isDigit)
    | rest => ([], rest)
  let power : Int := match rest.drop 1 with
    | '-' :: digits => -((digits? 10 digits).getD 0 : Int)
    | digits => ((digits? 10 (dropSign digits)).getD 0 : Int)
  Decimal.toFloat ⟨(digits? 10 (whole ++ fraction)).getD 0, power - fraction.length⟩

/-- Whether a text stands for a number with a point or an exponent, for an infinite one, or for none. -/
def isFloat (text : List Char) : Bool :=
  let unsigned := match text with
    | '+' :: rest => rest
    | rest => rest
  [".inf", ".Inf", ".INF"].contains (String.ofList unsigned) ||
    ["-.inf", "-.Inf", "-.INF", ".nan", ".NaN", ".NAN"].contains (String.ofList text) ||
    !(text.head? == some '+' && [some '+', some '-'].contains unsigned.head?) &&
      isDecimal (dropSign unsigned) && (decimalValue (dropSign unsigned)).isFinite

/-- The number of whole numbers of 128 bits. -/
def wideSize : Nat := UInt64.size * UInt64.size

/-- What a whole number is, if it is one of at most 128 bits. One of 64 bits without a sign counts. -/
def intDatum? (text : String) : Option Datum :=
  match int? text.toList with
  | some (false, n) => if n < UInt64.size then some (.natural n) else if n < wideSize then some .number else none
  | some (true, n) => if n ≤ wideSize / 2 then some .number else none
  | none => none

/-- What a plain scalar stands for. -/
def plainDatum (text : String) : Datum :=
  if text.isEmpty || isNull text then .null
  else match bool? text with
    | some b => .bool b
    | none =>
      match intDatum? text with
      | some datum => datum
      | none => if !isPadded text.toList && isFloat text.toList then .number else .text text

/-- Whether a tag is one of a program's own, which stands for nothing here. -/
def isPrivate (tag : String) : Bool := tag.toList.head? == some '!'

/-- What a scalar with a tag stands for. -/
def taggedDatum? (tag text : String) : Option Datum :=
  if isPrivate tag then none
  else if tag == "tag:yaml.org,2002:null" then if isNull text then some .null else none
  else if tag == "tag:yaml.org,2002:bool" then (bool? text).map .bool
  else if tag == "tag:yaml.org,2002:int" then intDatum? text
  else if tag == "tag:yaml.org,2002:float" then if isFloat text.toList then some .number else none
  else some (.text text)

/-! ### Nodes -/

namespace Node

/-- The text of a scalar as it is written, whatever it stands for. -/
def text? : Node → Option String
  | .scalar text _ _ => some text
  | _ => none

mutual
/-- The value that a node without aliases stands for. -/
def datum? : Node → Option Datum
  | .scalar text plain none => some (if plain then plainDatum text else .text text)
  | .scalar text _ (some tag) => taggedDatum? tag text
  | .sequence items tag => if tag.any isPrivate then none else (datumOfItems? items).map .list
  | .mapping members tag => if tag.any isPrivate then none else (datumOfMembers? members).map .mapping
  | .reference _ => none

def datumOfItems? : List Node → Option (List Datum)
  | [] => some []
  | item :: items => do return (← item.datum?) :: (← datumOfItems? items)

def datumOfMembers? : List (Node × Node) → Option (List (Datum × Datum))
  | [] => some []
  | (key, value) :: members => do return (← key.datum?, ← value.datum?) :: (← datumOfMembers? members)
end

end Node
end Highlight.Yaml
