import RouterAdvert.Bytes

/-! Numbers on the command line: decimal digits and nothing else, read digit by digit in words of 32
bits. -/
namespace RouterAdvert.CommandLine.Numeral

def isDigit (b : UInt8) : Bool := 48 ≤ b && b ≤ 57

/-- Why a scan finds no number. -/
inductive Miss where
  | noDigit
  | tooLarge
  deriving DecidableEq, Repr

/-- The number with one more digit behind it, if that fits in 32 bits. -/
def push? (n : UInt32) (c : UInt8) : Option UInt32 :=
  let d := (c - 48).toUInt32
  if n ≤ (0xffffffff - d) / 10 then some (10 * n + d) else none

/-- Goes on to the last digit. A number that has become too large stays so. -/
def scanOn : Option UInt32 → Bytes → Option UInt32 × Bytes
  | n, [] => (n, [])
  | n, c :: rest => if isDigit c then scanOn (n.bind (push? · c)) rest else (n, c :: rest)

/-- The number that the digits in front of `b` write, and what is behind them. -/
def scan (b : Bytes) : Except Miss UInt32 × Bytes :=
  if b.head?.any isDigit then
    match scanOn (some 0) b with
    | (some n, rest) => (.ok n, rest)
    | (none, rest) => (.error .tooLarge, rest)
  else (.error .noDigit, b)

/-- Puts the number that all of `b` writes in place of `out` if it lies between the bounds, and says
whether it does. -/
def assign (low high : UInt32) (b : Bytes) (out : UInt32) : Bool × UInt32 :=
  match scan b with
  | (.ok n, []) => if n < low ∨ high < n then (false, out) else (true, n)
  | _ => (false, out)

end RouterAdvert.CommandLine.Numeral
