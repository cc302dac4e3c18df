/-! Pointers into a document: the keys and item numbers on the way down from the root. -/
namespace Screener.Json

abbrev Pointer := List String

/-- A step as it stands in the text of a pointer, where a slash parts the steps and a tilde escapes. -/
def Pointer.escape (step : String) : List Char :=
  step.toList.flatMap fun c => if c = '~' then ['~', '0'] else if c = '/' then ['~', '1'] else [c]

def Pointer.chars (pointer : Pointer) : List Char :=
  pointer.flatMap fun step => '/' :: Pointer.escape step

def Pointer.text (pointer : Pointer) : String := String.ofList pointer.chars

end Screener.Json
