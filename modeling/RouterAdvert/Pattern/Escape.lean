import RouterAdvert.Pattern.Class

/-! Escapes in patterns: what a backslash and the bytes after it stand for. -/
namespace RouterAdvert.Pattern

inductive Escape where
  | byte (b : UInt8)
  | set (s : ByteSet) (negated : Bool)
  | wordBoundary (negated : Bool)
  | backReference (n : Nat)

/-- Numbers in patterns fit a signed word of 32 bits. -/
def numberLimit : Nat := 2147483648

def digitValue (b : UInt8) : Nat :=
  if ByteSet.digit b then (b - 48).toNat
  else if b < 97 then (b - 55).toNat
  else (b - 87).toNat

def number? (base : Nat) (digits : Bytes) : Option Nat :=
  let n := digits.foldl (fun n d => n * base + digitValue d) 0
  if n < numberLimit then some n else none

/-- The byte with this many hexadecimal digits; only its low eight bits count. -/
def hexByte? (width : Nat) (b : Bytes) : Option (Escape × Bytes) :=
  let digits := b.take width
  if digits.length = width ∧ digits.all ByteSet.hexDigit then
    (number? 16 digits).map fun n => (.byte n.toUInt8, b.drop width)
  else none

/-- The letters that stand for control characters outside and inside brackets. -/
def controlEscape? (inBrackets : Bool) (c : UInt8) : Option UInt8 :=
  if c = 48 then some 0
  else if c = 98 then if inBrackets then some 8 else none
  else if c = 102 then some 12
  else if c = 110 then some 10
  else if c = 114 then some 13
  else if c = 116 then some 9
  else if c = 118 then some 11
  else none

/-- Reads the bytes after a backslash. -/
def escape? (inBrackets : Bool) : Bytes → Option (Escape × Bytes)
  | [] => none
  | c :: rest =>
    match controlEscape? inBrackets c with
    | some b => some (.byte b, rest)
    | none =>
      if c = 98 then some (.wordBoundary false, rest)
      else if c = 66 then some (.wordBoundary true, rest)
      else if c = 100 ∨ c = 68 then some (.set .digit (c == 68), rest)
      else if c = 115 ∨ c = 83 then some (.set .space (c == 83), rest)
      else if c = 119 ∨ c = 87 then some (.set .word (c == 87), rest)
      else if c = 99 then
        match rest with
        | [] => none
        | b :: rest => some (.byte b, rest)
      else if c = 120 then hexByte? 2 rest
      else if c = 117 then hexByte? 4 rest
      else if ByteSet.digit c then
        (number? 10 (c :: rest.takeWhile ByteSet.digit)).map fun n =>
          (.backReference n, rest.dropWhile ByteSet.digit)
      else some (.byte c, rest)

end RouterAdvert.Pattern
