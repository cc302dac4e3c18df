import Screener.Text.Blank
import Screener.Text.Case

/-! Settings that are one of a few words. Blanks around a word and the case of its letters do not matter. -/
namespace Screener.Text

structure UnknownWord where
  kind : String
  word : String
  expected : String
  deriving Repr, DecidableEq

def UnknownWord.message (fault : UnknownWord) : String :=
  "unknown " ++ fault.kind ++ " '" ++ fault.word ++ "', expected " ++ fault.expected

def choose {α : Type} (kind expected : String) (ofName? : String → Option α) (text : String) :
    Except UnknownWord α :=
  let word := lowerAscii (trim text)
  match ofName? word with
  | some choice => .ok choice
  | none => .error ⟨kind, word, expected⟩

end Screener.Text
