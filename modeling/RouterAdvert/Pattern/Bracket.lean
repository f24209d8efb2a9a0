import RouterAdvert.Pattern.Escape

/-! Bracket expressions: sets of bytes given by members, ranges and named classes. -/
namespace RouterAdvert.Pattern

/-- What can stand between brackets. -/
inductive BracketItem where
  | byte (b : UInt8)
  | dash
  /-- A character given by name. -/
  | named (b : UInt8)
  | set (s : ByteSet)

namespace BracketItem

/-- Reads the name in `[:name:]` and the like from behind the opening mark. -/
def name? (mark : UInt8) (b : Bytes) : Option (Bytes × Bytes) :=
  match b.dropWhile (· != mark) with
  | _ :: 93 :: rest => some (b.takeWhile (· != mark), rest)
  | _ => none

/-- An item that begins with an opening bracket; without a mark behind it, it is an ordinary
member. -/
def opened? : Bytes → Option (BracketItem × Bytes)
  | [] => none
  | 46 :: rest => do
    let (name, rest) ← name? 46 rest
    return (named (← character? name), rest)
  | 58 :: rest => do
    let (name, rest) ← name? 58 rest
    return (set (← class? name), rest)
  | 61 :: rest => do
    let (name, rest) ← name? 61 rest
    let b ← character? name
    return (set fun x => toLower x == toLower b, rest)
  | rest => some (byte 91, rest)

/-- Back references and word boundaries have no meaning between brackets. -/
def escaped? (b : Bytes) : Option (BracketItem × Bytes) :=
  match escape? true b with
  | some (.byte b, rest) => some (byte b, rest)
  | some (.set s negated, rest) => some (set (if negated then s.compl else s), rest)
  | _ => none

/-- The items up to the closing bracket and the bytes behind it. -/
def all? (b : Bytes) : Option (List BracketItem × Bytes) :=
  match b with
  | [] => none
  | c :: rest =>
    if c = 93 then some ([], rest)
    else
      let first :=
        if c = 45 then some (dash, rest)
        else if c = 91 then opened? rest
        else if c = 92 then escaped? rest
        else some (byte c, rest)
      match first with
      | none => none
      | some (item, after) =>
        if after.length ≤ rest.length then
          (all? after).map fun (items, rest) => (item :: items, rest)
        else none
termination_by b.length

end BracketItem

/-- What a dash would extend to a range: nothing, a byte that is still to be added, or a class,
which cannot begin one. -/
inductive RangeStart where
  | nothing
  | byte (b : UInt8)
  | set

namespace RangeStart

def addTo (s : ByteSet) : RangeStart → ByteSet
  | byte b => s.union (.single b)
  | _ => s

end RangeStart

def addRange? (s : ByteSet) (low high : UInt8) : Option ByteSet :=
  if low.toInt8 ≤ high.toInt8 then some (s.union (.range low high)) else none

/-- The set that the items describe. A dash at either end is a member; so is one behind a range. -/
def members? (start : RangeStart) (s : ByteSet) : List BracketItem → Option ByteSet
  | [] => some (start.addTo s)
  | .byte b :: items => members? (.byte b) (start.addTo s) items
  | .named b :: items => members? (.byte b) (start.addTo (s.union (.single b))) items
  | .set t :: items => members? .set ((start.addTo s).union t) items
  | [.dash] => some ((start.addTo s).union (.single 45))
  | .dash :: next :: items =>
    match start, next with
    | .set, _ => none
    | .byte low, .byte high => do members? .nothing (← addRange? s low high) items
    | .byte low, .dash => do members? .nothing (← addRange? s low 45) items
    | .byte _, _ => none
    | .nothing, _ => members? (.byte 45) s (next :: items)

/-- Reads a bracket expression from behind the opening bracket. -/
def bracket? (b : Bytes) : Option (ByteSet × Bytes) := do
  let (negated, b) := match b with
    | 94 :: rest => (true, rest)
    | _ => (false, b)
  let (items, rest) ← BracketItem.all? b
  let set ← match items with
    | .dash :: items => members? (.byte 45) .none items
    | items => members? .nothing .none items
  return (if negated then set.compl else set, rest)

end RouterAdvert.Pattern
