/-! The commands of the command line, and how arguments stand for them. An option is written with two dashes
    and its name or with one dash and its letter, and its value follows as the next argument, or in the same
    one. After an argument of two dashes there are no more options. -/

namespace Highlight

/-- What to tokenize, and how. The path `-` stands for the standard input. -/
structure TokenizeOptions where
  path : String
  language : Option String := none
  format : Option String := none
  grammar : Option String := none
  settings : Option String := none
  deriving DecidableEq, Repr

inductive Command where
  | tokenize (options : TokenizeOptions)
  | languages
  | formats
  | version
  | help
  deriving DecidableEq, Repr

namespace Command

/-! ### Options -/

/-- The options of the tokenize command. -/
inductive OptionName where
  | language | format | grammar | settings
  deriving DecidableEq, Repr

namespace OptionName

def all : List OptionName := [language, format, grammar, settings]

def word : OptionName → String
  | language => "language"
  | format => "format"
  | grammar => "grammar"
  | settings => "config"

def letter : OptionName → Char
  | language => 'l'
  | format => 'f'
  | grammar => 'g'
  | settings => 'c'

end OptionName

/-- The arguments of the tokenize command as far as they are read. -/
structure Given where
  path : Option String := none
  values : List (OptionName × String) := []

namespace Given

def value? (name : OptionName) (given : Given) : Option String := given.values.lookup name

/-- Enters the value of an option, which is given once only. -/
def enter? (name : OptionName) (value : String) (given : Given) : Option Given :=
  if (given.value? name).isSome then none else some { given with values := (name, value) :: given.values }

/-- Enters the path, which is given once only. -/
def enterPath? (path : String) (given : Given) : Option Given :=
  if given.path.isSome then none else some { given with path := some path }

/-- The command that is complete with its path. -/
def command? (given : Given) : Option Command :=
  given.path.map fun path =>
    .tokenize { path, language := given.value? .language, format := given.value? .format,
                grammar := given.value? .grammar, settings := given.value? .settings }

end Given

/-! ### Arguments -/

/-- What an argument is. -/
inductive Argument where
  | word (text : String)
  | endOfOptions
  | help
  /-- An option, with its value if that stands in the same argument. -/
  | option (name : OptionName) (value : Option String)
  | unknown
  deriving DecidableEq, Repr

namespace Argument

/-- Splits a name from a value behind an equals sign. -/
def splitValue (text : List Char) : List Char × Option String :=
  match text.dropWhile (· != '=') with
  | _ :: value => (text.takeWhile (· != '='), some (String.ofList value))
  | [] => (text, none)

/-- An option by its name, without the dashes. -/
def ofWord (text : List Char) : Argument :=
  match splitValue text with
  | (name, value) =>
    match OptionName.all.find? (·.word.toList == name) with
    | some found => .option found value
    | none => if name == "help".toList && value.isNone then .help else .unknown

/-- The value behind the letter of an option. -/
def attached? : List Char → Option String
  | [] => none
  | '=' :: value => some (String.ofList value)
  | value => some (String.ofList value)

/-- An option by its letter, without the dash. -/
def ofLetter (letter : Char) (rest : List Char) : Argument :=
  match OptionName.all.find? (·.letter == letter) with
  | some found => .option found (attached? rest)
  | none => if letter == 'h' then .help else .unknown

def ofText (text : String) : Argument :=
  match text.toList with
  | ['-', '-'] => .endOfOptions
  | '-' :: '-' :: rest => ofWord rest
  | '-' :: letter :: rest => ofLetter letter rest
  | _ => .word text

end Argument

/-! ### Commands -/

/-- The path after the end of the options. -/
def onlyPath? (given : Given) : List String → Option Command
  | [] => given.command?
  | path :: more => do onlyPath? (← given.enterPath? path) more

/-- The command that the arguments after `tokenize` stand for. -/
def tokenize? (given : Given) : List String → Option Command
  | [] => given.command?
  | text :: more =>
    match Argument.ofText text with
    | .word path => do tokenize? (← given.enterPath? path) more
    | .endOfOptions => onlyPath? given more
    | .help => some .help
    | .option name (some value) => do tokenize? (← given.enter? name value) more
    | .option name none =>
      match more with
      | [] => none
      | value :: more =>
        match Argument.ofText value with
        | .word value => do tokenize? (← given.enter? name value) more
        | _ => none
    | .unknown => none

/-- A command that has no arguments. -/
def alone? (command : Command) : List String → Option Command
  | [] => some command
  | text :: more =>
    match Argument.ofText text with
    | .endOfOptions => if more.isEmpty then some command else none
    | .help => some .help
    | _ => none

/-- The words that open commands. -/
def words : List String := ["tokenize", "languages", "formats", "help"]

/-- Help is given on the whole or on one command. -/
def help? : List String → Option Command
  | [] => some .help
  | [word] => if words.contains word then some .help else none
  | _ => none

/-- A command that the first argument stands for by itself, whatever follows. -/
def ofFirst? (text : String) : Option Command :=
  if text = "--version" then some .version
  else match text.toList with
    | '-' :: 'V' :: _ => some .version
    | _ => if Argument.ofText text = .help then some .help else none

/-- The command that arguments stand for, or nothing if they stand for none. -/
def ofArguments? : List String → Option Command
  | "tokenize" :: more => tokenize? {} more
  | "languages" :: more => alone? .languages more
  | "formats" :: more => alone? .formats more
  | "help" :: more => help? more
  | text :: _ => ofFirst? text
  | [] => none

end Command
end Highlight
