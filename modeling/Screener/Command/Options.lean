import Screener.Scan.Options

/-! Words of a command line: options, which begin with hyphens and may take a value, and other words. -/
namespace Screener.Command

inductive Taking where
  | nothing
  | text
  /-- A value that is not empty. -/
  | path
  /-- The name of an order of results. -/
  | order

structure Flag where
  long : String
  short : Option Char
  taking : Taking

inductive Refusal where
  | help
  | misuse
  deriving Repr, DecidableEq

structure Given where
  values : List (String × String)
  words : List String
  /-- An option whose value stood in a word of its own. It is added once that is known to be all of it: when
  something else is read, or at the end. -/
  pending : Option (Flag × String)

def Given.none : Given := ⟨[], [], Option.none⟩

def Given.value? (given : Given) (long : String) : Option String := given.values.lookup long

def Given.has (given : Given) (long : String) : Bool := (given.value? long).isSome

def orderOf? (text : String) : Option Scan.Order := (Scan.Order.ofSetting text).toOption

def Taking.accepts (taking : Taking) (value : String) : Bool :=
  match taking with
  | .path => !value.isEmpty
  | .order => (orderOf? value).isSome
  | _ => true

def Given.add (given : Given) (flag : Flag) (value : String) : Except Refusal Given :=
  if given.has flag.long || !flag.taking.accepts value then .error .misuse
  else .ok { given with values := (flag.long, value) :: given.values }

def Given.settle (given : Given) : Except Refusal Given :=
  match given.pending with
  | some (flag, value) => { given with pending := Option.none }.add flag value
  | Option.none => .ok given

def Given.take (given : Given) (flag : Flag) (value : String) : Except Refusal Given := do
  (← given.settle).add flag value

def Given.defer (given : Given) (flag : Flag) (value : String) : Except Refusal Given := do
  return { ← given.settle with pending := some (flag, value) }

def Given.word (given : Given) (word : String) : Except Refusal Given := do
  let given ← given.settle
  return { given with words := given.words ++ [word] }

inductive Word where
  /-- Two hyphens: no option comes after them. -/
  | endOfOptions
  | long (name : String) (value : Option String)
  | short (letter : Char) (rest : List Char)
  | plain (word : String)

def Word.ofText (text : String) : Word :=
  match text.toList with
  | ['-', '-'] => .endOfOptions
  | '-' :: '-' :: name =>
    match name.dropWhile (· != '=') with
    | [] => .long (String.ofList name) none
    | _ :: value => .long (String.ofList (name.takeWhile (· != '='))) (some (String.ofList value))
  | '-' :: letter :: rest => .short letter rest
  | _ => .plain text

def isValue (text : String) : Bool :=
  match Word.ofText text with
  | .plain _ => true
  | _ => false

/-- How the words that are no options are taken: so many of them, or only up to the first one, which names
a command of its own. -/
inductive Words where
  | atMost (n : Nat)
  | command

def Words.allow (words : Words) (given : Given) : Bool :=
  match words with
  | .atMost n => given.words.length < n
  | .command => false

def afterOptions (words : Words) : Given → List String → Except Refusal Given
  | given, [] => given.settle
  | given, word :: rest => do
    if words.allow given then afterOptions words (← given.word word) rest else throw .misuse

/-- Reads the options of a command. What is left is the command named by the first other word, if there
is to be one; an option in front of it stays pending until that command is read. Asking for help ends the
reading. -/
def readOptions (flags : List Flag) (words : Words) : Given → List String → Except Refusal (Given × List String)
  | given, [] => given.settle.map (·, [])
  | given, word :: rest =>
    match Word.ofText word with
    | .endOfOptions => (afterOptions words given rest).map (·, [])
    | .plain text =>
      match words with
      | .command => .ok (given, text :: rest)
      | .atMost _ => do
        if words.allow given then readOptions flags words (← given.word text) rest else throw .misuse
    | .long name value =>
      if name = "help" then given.settle.bind fun _ => .error (if value.isNone then .help else .misuse)
      else
        match flags.find? (·.long == name), value, rest with
        | none, _, _ => .error .misuse
        | some flag, some value, rest =>
          match flag.taking with
          | .nothing => .error .misuse
          | _ => do readOptions flags words (← given.take flag value) rest
        | some flag, none, rest =>
          match flag.taking, rest with
          | .nothing, rest => do readOptions flags words (← given.take flag "") rest
          | _, value :: rest =>
            if isValue value then do readOptions flags words (← given.defer flag value) rest
            else .error .misuse
          | _, [] => .error .misuse
    | .short letter more =>
      if letter = 'h' then given.settle.bind fun _ => .error .help
      else
        match flags.find? (·.short == some letter), more, rest with
        | none, _, _ => .error .misuse
        | some flag, '=' :: value, rest => do
          readOptions flags words (← given.take flag (String.ofList value)) rest
        | some flag, c :: value, rest => do
          readOptions flags words (← given.take flag (String.ofList (c :: value))) rest
        | some flag, [], value :: rest =>
          if isValue value then do readOptions flags words (← given.defer flag value) rest
          else .error .misuse
        | some _, [], [] => .error .misuse

end Screener.Command
