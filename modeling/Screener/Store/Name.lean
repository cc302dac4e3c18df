import Screener.Failure
import Screener.Json.Reader

/-! Names of databases. A name is the path of a file, or it is of the form `file:path?option=value&…#…`,
where a per cent sign and two hexadecimal digits stand for a byte. A database may also be in memory alone;
then it begins blank and is gone with the command that opened it. -/
namespace Screener.Store

inductive Mode where
  | readOnly
  | readWrite
  | create
  | memory
  deriving Repr, DecidableEq

namespace Mode

def name : Mode → String
  | .readOnly => "ro"
  | .readWrite => "rw"
  | .create => "rwc"
  | .memory => "memory"

def ofName? (name : String) : Option Mode := [readOnly, readWrite, create, memory].find? (·.name == name)

/-- Whether another mode may be asked for after this one: what was given up cannot be had back. -/
def admits : Mode → Mode → Bool
  | .readOnly, .readWrite | .readOnly, .create | .readWrite, .create => false
  | _, _ => true

end Mode

structure Name where
  /-- The path of the file, if the database is in a file. -/
  file : Option String
  mode : Mode
  /-- Whether the database never changes, whatever its mode. -/
  fixed : Bool

namespace Name

def isWritable (name : Name) : Bool := name.mode ≠ .readOnly && !name.fixed

/-- The bytes that characters stand for. Nothing that follows a zero byte counts. -/
def decoded : List Char → List UInt8
  | '%' :: a :: b :: rest =>
    match Json.hexValue a, Json.hexValue b with
    | some high, some low =>
      if high * 16 + low = 0 then [] else (high * 16 + low).toUInt8 :: decoded rest
    | _, _ => String.utf8EncodeChar '%' ++ decoded (a :: b :: rest)
  | c :: rest => String.utf8EncodeChar c ++ decoded rest
  | [] => []

def textOf (cs : List Char) : String :=
  (String.fromUTF8? ⟨(decoded cs).toArray⟩).getD (String.ofList cs)

def optionOf (cs : List Char) : String × String :=
  (textOf (cs.takeWhile (· != '=')), textOf ((cs.dropWhile (· != '=')).drop 1))

def optionsOf (cs : List Char) : List (String × String) :=
  ((cs.splitOn '&').map optionOf).filter fun option => !option.1.isEmpty

def takeMode (mode : Mode) (option : String × String) : Except OpenFault Mode :=
  match option with
  | ("mode", value) =>
    match Mode.ofName? value with
    | some next => if mode.admits next then .ok next else .error (.refusedMode value)
    | none => .error (.unknownMode value)
  | ("cache", value) =>
    if ["shared", "private"].contains value then .ok mode else .error (.unknownCache value)
  | _ => .ok mode

def fileStorages : List String := ["unix", "unix-none", "unix-dotfile", "unix-excl"]

/-- Whether the storage that the options name last is the one in memory. -/
def isInMemory (options : List (String × String)) : Except OpenFault Bool :=
  match options.reverse.lookup "vfs" with
  | none => .ok false
  | some storage =>
    if storage = "memdb" then .ok true
    else if fileStorages.contains storage then .ok false
    else .error (.unknownStorage storage)

def isAffirmed (value : String) : Bool :=
  let digits := value.toList.takeWhile Char.isDigit
  if digits.isEmpty then ["on", "yes", "true"].contains (Text.lowerAscii value)
  else (String.ofList digits).toNat?.any fun n => n < 2147483648 && n % 256 != 0

def ofOptions (path : String) (options : List (String × String)) : Except OpenFault Name := do
  let mode ← options.foldlM takeMode .create
  let inMemory ← isInMemory options
  if path.isEmpty || path == ":memory:" || mode == .memory then return ⟨none, mode, false⟩
  let fixed := (options.lookup "immutable").any isAffirmed
  return ⟨if inMemory then none else some path, mode, fixed⟩

def withoutAuthority : List Char → Except OpenFault (List Char)
  | '/' :: '/' :: rest =>
    let authority := String.ofList (rest.takeWhile (· != '/'))
    if authority.isEmpty || authority == "localhost" then .ok (rest.dropWhile (· != '/'))
    else .error (.authority authority)
  | cs => .ok cs

def ofText (text : String) : Except OpenFault Name :=
  let cs := text.toList
  let zero := Char.ofNat 0
  if cs.contains zero then .error (.zeroByte (String.ofList (cs.takeWhile (· != zero))).utf8ByteSize)
  else
    match cs with
    | 'f' :: 'i' :: 'l' :: 'e' :: ':' :: rest => do
      let given := (← withoutAuthority rest).takeWhile (· != '#')
      ofOptions (textOf (given.takeWhile (· != '?'))) (optionsOf ((given.dropWhile (· != '?')).drop 1))
    | _ => ofOptions text []

end Name
end Screener.Store
