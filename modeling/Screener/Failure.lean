import Screener.Evaluation.Frame
import Screener.Filter.Violation
import Screener.Text.Word

/-! Everything that can end a command early, in words, and the exit code of the program that goes with it. -/
namespace Screener

inductive OpenFault where
  /-- No file is there and none can be made, or no file can be there. -/
  | unreachable
  /-- What is there cannot be read as a file. -/
  | unreadable
  | zeroByte (offset : Nat)
  | authority (text : String)
  | unknownMode (text : String)
  | refusedMode (text : String)
  | unknownCache (text : String)
  | unknownStorage (text : String)
  deriving Repr, DecidableEq

def OpenFault.reason (name : String) : OpenFault → String
  | .unreachable => "unable to open database file: " ++ name
  | .unreadable => "disk I/O error"
  | .zeroByte offset => s!"nul byte found in provided data at position: {offset}"
  | .authority text => "invalid uri authority: " ++ text
  | .unknownMode text => "no such access mode: " ++ text
  | .refusedMode text => "access mode not allowed: " ++ text
  | .unknownCache text => "no such cache mode: " ++ text
  | .unknownStorage text => "no such vfs: " ++ text

/-- A record with another number of fields than the header has. Records are counted from zero, the header
among them; the line and the byte are those where the record before it ended. -/
structure UnevenRecord where
  index : Nat
  line : Nat
  byte : Nat
  width : Nat
  expected : Nat
  deriving Repr, DecidableEq

def UnevenRecord.reason (record : UnevenRecord) : String :=
  s!"record {record.index} (line: {record.line}, byte: {record.byte}): found record with {record.width} " ++
    s!"fields, but the previous record has {record.expected} fields"

inductive DataFault where
  | unreadable (path : String)
  | unreadableDirectory (path : String)
  | unopened (name : String) (fault : OpenFault)
  | unevenRecord (path : String) (record : UnevenRecord)
  | missingColumn (path column : String)
  | reservedColumn (path column : String)
  | badDate (path : String) (line : Nat) (text : String)
  | badNumber (path : String) (line : Nat) (column text : String)
  | reservedExtra (symbol column : String)
  | other (reason : String)
  deriving Repr, DecidableEq

def DataFault.reason : DataFault → String
  | .unreadable path => "failed to read " ++ path ++ ": stream did not contain valid UTF-8"
  | .unreadableDirectory path => "failed to read directory " ++ path
  | .unopened name fault => name ++ ": timed out waiting for connection: " ++ fault.reason name
  | .unevenRecord path record => path ++ ": CSV parse error: CSV error: " ++ record.reason
  | .missingColumn path column => path ++ ": missing " ++ column ++ " column"
  | .reservedColumn path column => path ++ ": column name '" ++ column ++ "' is reserved"
  | .badDate path line text => path ++ ":" ++ line.repr ++ ": invalid date '" ++ text ++ "'"
  | .badNumber path line column text =>
    path ++ ":" ++ line.repr ++ ": invalid " ++ column ++ " value '" ++ text ++ "'"
  | .reservedExtra symbol column => symbol ++ ": extra column name '" ++ column ++ "' is reserved"
  | .other reason => reason

inductive SettingFault where
  | unknownWord (fault : Text.UnknownWord)
  | notInteger (text : String)
  | notBoolean (text : String)
  | outOfRange (name : String) (least most : Int)
  | symbolList (fault : Filter.SymbolListFault)
  deriving Repr, DecidableEq

def SettingFault.reason : SettingFault → String
  | .unknownWord fault => fault.message
  | .notInteger text => "'" ++ text ++ "' is not an integer"
  | .notBoolean text => "'" ++ text ++ "' is not a boolean"
  | .outOfRange name least most => s!"{name} must be between {least} and {most}"
  | .symbolList fault => fault.message

inductive NameFault where
  | length (most : Nat)
  | character (name : String) (found : Char)
  deriving Repr, DecidableEq

def NameFault.reason : NameFault → String
  | .length most => s!"name must be 1 to {most} characters"
  | .character name found =>
    "'" ++ name ++ "' contains '" ++ String.ofList [found] ++ "'; use letters, digits, '-', '_' or '.'"

inductive DocumentFault where
  | malformed
  /-- A null where a number is wanted, and the column of its last letter. -/
  | null (column : Nat)
  deriving Repr, DecidableEq

def DocumentFault.reason : DocumentFault → String
  | .malformed => "invalid JSON"
  | .null column => s!"invalid JSON: invalid type: null, expected f64 at line 1 column {column}"

inductive Failure where
  | data (fault : DataFault)
  | query
  | configSyntax (file : String)
  | configMissing (group key : String)
  | configInvalid (group key : String) (fault : SettingFault)
  | invalid (violations : List Filter.Violation)
  | document (fault : DocumentFault)
  | noData (symbol : String)
  | noFilter (name : String)
  | filterName (fault : NameFault)
  | scan (problem : Evaluation.Problem)
  | files

namespace Failure

def message : Failure → String
  | .data fault => "database error: " ++ fault.reason
  | .query => "database query error"
  | .configSyntax _ => "config parse error"
  | .configMissing group key => s!"missing config key [{group}] {key}"
  | .configInvalid group key fault => s!"invalid config value [{group}] {key}: " ++ fault.reason
  | .invalid violations => Filter.Violation.report violations
  | .document fault => fault.reason
  | .noData symbol => "no data for " ++ symbol
  | .noFilter name => "saved filter not found: " ++ name
  | .filterName fault => "invalid filter name: " ++ fault.reason
  | .scan problem => problem.message
  | .files => "io"

def exitCode : Failure → Nat
  | .files | .document _ => 1
  | .configSyntax _ | .configMissing .. | .configInvalid .. => 2
  | .data _ | .query => 3
  | .invalid _ | .filterName _ => 4
  | .noData _ => 5
  | .noFilter _ => 6
  | .scan .cancelled => 7
  | .scan _ => 5

end Failure
end Screener
