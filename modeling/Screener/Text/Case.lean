import Screener.Text.CaseTable

/-! Upper and lower case of texts. The full mappings are those of the Unicode character database:
a letter may become several, and a capital sigma at the end of a word has a lower case of its own.
The plain ones change the letters A to Z alone. -/
namespace Screener.Text

def lowerAscii (text : String) : String := String.ofList (text.toList.map Char.toLower)

def upperAscii (text : String) : String := String.ofList (text.toList.map Char.toUpper)

/-- Two texts that differ in the case of the letters A to Z at most. -/
def sameIgnoringCase (left right : String) : Bool := lowerAscii left == lowerAscii right

/-- The image of one character under the runs and the expansions of a mapping. -/
def mapped (runs : List CaseRun) (expansions : List (Nat × List Nat)) (c : Char) : List Char :=
  match expansions.lookup c.toNat with
  | some codes => codes.map Char.ofNat
  | none =>
    match runs.find? (·.has c.toNat) with
    | some run => [Char.ofNat (run.image + (c.toNat - run.first))]
    | none => [c]

def upperChar (c : Char) : List Char := mapped upperRuns upperExpansions c

def lowerChar (c : Char) : List Char := mapped lowerRuns lowerExpansions c

def upper (text : String) : String := String.ofList (text.toList.flatMap upperChar)

def inSpans (spans : List (Nat × Nat)) (c : Char) : Bool :=
  spans.any fun (first, last) => first ≤ c.toNat && c.toNat ≤ last

def meetsCased (cs : List Char) : Bool :=
  match cs.dropWhile (inSpans caseIgnorableSpans) with
  | c :: _ => inSpans casedSpans c
  | [] => false

/-- Lower case of the characters after `before`, which holds those in front of them, nearest first.
A capital sigma is final when a cased letter stands before it and none after it. -/
def lowerFrom (before : List Char) : List Char → List Char
  | [] => []
  | c :: rest =>
    let image :=
      if c.toNat = 0x3A3 then
        if meetsCased before && !meetsCased rest then [Char.ofNat 0x3C2] else [Char.ofNat 0x3C3]
      else lowerChar c
    image ++ lowerFrom (c :: before) rest

def lower (text : String) : String := String.ofList (lowerFrom [] text.toList)

end Screener.Text
