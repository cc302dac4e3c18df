import Screener.Source.Basic
import Screener.Scan.Run
import Screener.Text.Case

/-! The symbols of a scan: lists of them in writing, and the bars of each. A symbol whose bars cannot be
read leaves a diagnostic and does not keep the others from being scanned. -/
namespace Screener.Universe
open Screener.Filter (SymbolListFault)

def standardForm (symbol : String) : String := Text.upper (Text.trim symbol)

def readTokens (seen : List String) : List (List Char) → Except SymbolListFault (List String)
  | [] => .ok seen
  | token :: rest =>
    let trimmed := String.ofList (Text.trimChars token)
    if trimmed.isEmpty then .error .emptyToken
    else
      let symbol := Text.upper trimmed
      if symbol ∈ seen then .error (.duplicate symbol) else readTokens (seen ++ [symbol]) rest

/-- The symbols of a list with commas between them, in upper case. None may be blank or stand twice. -/
def ofText (text : String) : Except SymbolListFault (List String) :=
  readTokens [] (text.toList.splitOn ',')

structure Loaded where
  histories : List History
  diagnostics : List Scan.Diagnostic

def load (source : Source) (base : Timeframe) : List String → Loaded
  | [] => ⟨[], []⟩
  | symbol :: rest =>
    let others := load source base rest
    match source.bars symbol with
    | .ok bars => { others with histories := .ofBars symbol base bars :: others.histories }
    | .error failure =>
      { others with diagnostics := ⟨symbol, .unloaded symbol failure.message⟩ :: others.diagnostics }

end Screener.Universe
