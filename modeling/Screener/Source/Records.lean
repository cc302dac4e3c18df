/-! Records of fields with commas between them, one record to a line. A field may stand in quotes; there
a quote is written twice, and commas and line ends are part of the field. Empty lines are no records. -/
namespace Screener.Records

structure Place where
  line : Nat
  byte : Nat

def Place.first : Place := ⟨1, 0⟩

def Place.after (place : Place) (c : Char) : Place :=
  ⟨if c = '\n' then place.line + 1 else place.line, place.byte + c.utf8Size⟩

/-- The fields of a record, and the place where the record before it ended. -/
structure Record where
  start : Place
  fields : List String

inductive Mode where
  | line
  | start
  | plain
  | quoted
  | closed

structure Pending where
  start : Place
  fields : List String
  chars : List Char

def Pending.empty (start : Place) : Pending := ⟨start, [], []⟩

def Pending.add (p : Pending) (c : Char) : Pending := { p with chars := c :: p.chars }

def Pending.next (p : Pending) : Pending :=
  { p with fields := String.ofList p.chars.reverse :: p.fields, chars := [] }

def Pending.record (p : Pending) : Record := ⟨p.start, p.next.fields.reverse⟩

def isLineEnd (c : Char) : Bool := c = '\n' || c = '\r'

/-- The records of the characters from a place on. The first of two characters that end a line ends the
record; the other counts to the next. -/
def read (mode : Mode) (p : Pending) (place : Place) : List Char → List Record
  | [] =>
    match mode with
    | .line => []
    | _ => [p.record]
  | c :: rest =>
    let place := place.after c
    match mode with
    | .quoted => if c = '"' then read .closed p place rest else read .quoted (p.add c) place rest
    | .line =>
      if isLineEnd c then read .line p place rest
      else if c = '"' then read .quoted p place rest
      else if c = ',' then read .start p.next place rest
      else read .plain (p.add c) place rest
    | .start | .plain | .closed =>
      if isLineEnd c then p.record :: read .line (.empty place) place rest
      else if c = ',' then read .start p.next place rest
      else if c = '"' then
        match mode with
        | .start => read .quoted p place rest
        | .closed => read .quoted (p.add c) place rest
        | _ => read .plain (p.add c) place rest
      else read .plain (p.add c) place rest

def byteOrderMark : Char := Char.ofNat 0xFEFF

def ofText (text : String) : List Record :=
  match text.toList with
  | [] => []
  | c :: rest =>
    if c = byteOrderMark then read .line (.empty .first) (Place.first.after c) rest
    else read .line (.empty .first) .first (c :: rest)

end Screener.Records
