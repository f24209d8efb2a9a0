import RouterAdvert.CommandLine.Switch

/-! The items on a command line, in the order in which they are written. Letters can be clustered
behind one dash; a value is the rest of its argument, or the whole next one. -/
namespace RouterAdvert.CommandLine

inductive Item where
  | choice (s : Switch) (value : Bytes)
  | operand (a : Bytes)
  /-- A letter that no switch has, or that of a long switch with a value it does not take. -/
  | unknownLetter (c : UInt8)
  | unknownName (argument : Bytes)
  | missingValue (argument : Bytes)
  deriving DecidableEq, Repr

namespace Item

/-- The items of an argument, and what happens to the one that follows it. -/
inductive Reading where
  | complete (items : List Item)
  /-- The last switch of the argument takes the next argument as its value. -/
  | awaiting (items : List Item) (s : Switch)

def Reading.cons (i : Item) : Reading → Reading
  | complete items => complete (i :: items)
  | awaiting items s => awaiting (i :: items) s

/-- Reads letters behind a dash. -/
def readLetters : Bytes → Reading
  | [] => .complete []
  | c :: rest =>
    match Switch.ofLetter? c with
    | none => .complete [unknownLetter c]
    | some s =>
      if s.takesValue then
        if rest = [] then .awaiting [] s else .complete [choice s rest]
      else (readLetters rest).cons (choice s [])

def equalsSign : UInt8 := 61

/-- Reads a name behind two dashes, with the value behind an equals sign if there is one. -/
def readName (argument body : Bytes) : Reading :=
  let (name, rest) := body.span (· != equalsSign)
  match Switch.ofName? name, rest with
  | none, _ => .complete [unknownName argument]
  | some s, [] => if s.takesValue then .awaiting [] s else .complete [choice s []]
  | some s, _ :: value =>
    if s.takesValue then .complete [choice s value] else .complete [unknownLetter s.letter]

/-- Two dashes alone end the switches and are not read as an argument. -/
def read (argument : Bytes) : Reading :=
  match argument with
  | 45 :: 45 :: body => readName argument body
  | 45 :: c :: letters => readLetters (c :: letters)
  | _ => .complete [operand argument]

def endMark : Bytes := "--"

def ofArguments : List Bytes → List Item
  | [] => []
  | a :: rest =>
    if a = endMark then rest.map operand
    else
      match read a, rest with
      | .complete items, rest => items ++ ofArguments rest
      | .awaiting items _, [] => items ++ [missingValue a]
      | .awaiting items s, value :: rest => items ++ choice s value :: ofArguments rest

end Item

end RouterAdvert.CommandLine
