/-! The parts of the names of files. -/

namespace Highlight.FileName

/-- The end of a path, read backwards, without slashes and steps that lead nowhere behind its last name. -/
def trim : List Char → List Char
  | '/' :: rest => trim rest
  | '.' :: '/' :: rest => trim rest
  | rest => rest

/-- The name of the file that a path leads to, without the directories. -/
def last? (path : String) : Option String :=
  match (trim path.toList.reverse).takeWhile (· != '/') with
  | [] | ['.'] | ['.', '.'] => none
  | name => some (String.ofList name.reverse)

/-- Splits a name at its last dot, unless that is its first character. -/
def split (name : String) : String × Option String :=
  let chars := name.toList.reverse
  let extension := chars.takeWhile (· != '.')
  match chars.drop extension.length with
  | [] | [_] => (name, none)
  | _ :: stem => (String.ofList stem.reverse, some (String.ofList extension.reverse))

/-- What stands after the last dot of the name of a file. -/
def extension? (path : String) : Option String := (last? path).bind fun name => (split name).2

/-- What stands before the last dot of the name of a file. -/
def stem? (path : String) : Option String := (last? path).map fun name => (split name).1

end Highlight.FileName
