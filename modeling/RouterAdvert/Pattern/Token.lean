import RouterAdvert.Pattern.Bracket

/-! The tokens of a pattern. -/
namespace RouterAdvert.Pattern

inductive Token where
  | set (s : ByteSet)
  | backReference (n : Nat)
  | lineBegin
  | lineEnd
  | wordBoundary (negated : Bool)
  | group
  | plainGroup
  | look (negated : Bool)
  | close
  | alternative
  | star
  | plus
  | optional
  | interval (least : Nat) (more : Option Nat)

namespace Token

/-- Any byte but the ends of lines. -/
def anyByte : ByteSet := fun x => x != 10 && x != 13

/-- Reads the rest of an interval `{least}`, `{least,}` or `{least,most}`; `more` is how many
repetitions beyond `least` are allowed, nothing meaning any number. -/
def interval? (b : Bytes) : Option (Token × Bytes) := do
  let low := b.takeWhile ByteSet.digit
  guard (low ≠ [])
  let least ← number? 10 low
  match b.dropWhile ByteSet.digit with
  | 125 :: rest => return (interval least (some 0), rest)
  | 44 :: rest =>
    let high := rest.takeWhile ByteSet.digit
    match rest.dropWhile ByteSet.digit with
    | 125 :: rest =>
      if high = [] then return (interval least none, rest)
      else
        let most ← number? 10 high
        guard (least ≤ most)
        return (interval least (some (most - least)), rest)
    | _ => none
  | _ => none

def opened? : Bytes → Option (Token × Bytes)
  | 63 :: 58 :: rest => some (plainGroup, rest)
  | 63 :: 61 :: rest => some (look false, rest)
  | 63 :: 33 :: rest => some (look true, rest)
  | 63 :: _ => none
  | rest => some (group, rest)

def escaped? (b : Bytes) : Option (Token × Bytes) :=
  (escape? false b).map fun (e, rest) =>
    (match e with
      | .byte b => set (.single b)
      | .set s negated => set (if negated then s.compl else s)
      | .wordBoundary negated => wordBoundary negated
      | .backReference n => backReference n, rest)

def next? (c : UInt8) (rest : Bytes) : Option (Token × Bytes) :=
  if c = 94 then some (lineBegin, rest)
  else if c = 36 then some (lineEnd, rest)
  else if c = 46 then some (set anyByte, rest)
  else if c = 42 then some (star, rest)
  else if c = 43 then some (plus, rest)
  else if c = 63 then some (optional, rest)
  else if c = 124 then some (alternative, rest)
  else if c = 40 then opened? rest
  else if c = 41 then some (close, rest)
  else if c = 91 then (bracket? rest).map fun (s, rest) => (set s, rest)
  else if c = 123 then interval? rest
  else if c = 92 then escaped? rest
  else some (set (.single c), rest)

def all? (b : Bytes) : Option (List Token) :=
  match b with
  | [] => some []
  | c :: rest =>
    match next? c rest with
    | none => none
    | some (token, after) =>
      if after.length ≤ rest.length then (all? after).map (token :: ·) else none
termination_by b.length

end Token

end RouterAdvert.Pattern
