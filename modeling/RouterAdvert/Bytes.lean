/-! Byte strings: text as bytes, fixed-width integers in both byte orders, and the hexadecimal
and decimal forms that appear in reports. Names and arguments need not be valid UTF-8, so text
that may contain them is kept as bytes throughout. -/
namespace RouterAdvert

abbrev Bytes := List UInt8

namespace Bytes

def ofString (s : String) : Bytes := s.toUTF8.data.toList

instance : Coe String Bytes := ⟨ofString⟩

/-- The parts one after another. -/
def text (parts : List Bytes) : Bytes := parts.flatten

/-- The parts with a separator between neighbours. -/
def join (separator : Bytes) (parts : List Bytes) : Bytes := (parts.intersperse separator).flatten

/-- The part before the first zero byte. -/
def untilZero (b : Bytes) : Bytes := b.takeWhile (· != 0)

/-- The first `n` bytes; missing ones read as zero. -/
def prefixOf (n : Nat) (b : Bytes) : Vector UInt8 n := Vector.ofFn fun i => b.getD i 0

/-- The first `n` bytes and what follows them, if there are that many. -/
def split? (n : Nat) (b : Bytes) : Option (Vector UInt8 n × Bytes) :=
  if n ≤ b.length then some (prefixOf n b, b.drop n) else none

theorem prefixOf_append {n : Nat} (v : Vector UInt8 n) (rest : Bytes) :
    prefixOf n (v.toList ++ rest) = v := by
  apply Vector.ext
  intro i h
  have hl : i < v.toList.length := by simpa using h
  simp [prefixOf, List.getD_eq_getElem?_getD, List.getElem?_append_left hl, h]

/-- Splitting gives back what was joined. -/
theorem split?_append {n : Nat} (v : Vector UInt8 n) (rest : Bytes) :
    split? n (v.toList ++ rest) = some (v, rest) := by
  simp [split?, prefixOf_append]

theorem split?_eq_none_iff {n : Nat} {b : Bytes} : split? n b = none ↔ b.length < n := by
  simp [split?]

def be16 (a b : UInt8) : UInt16 := a.toUInt16 <<< 8 ||| b.toUInt16

def be32 (a b c d : UInt8) : UInt32 :=
  a.toUInt32 <<< 24 ||| b.toUInt32 <<< 16 ||| c.toUInt32 <<< 8 ||| d.toUInt32

def le16 (b : Bytes) : UInt16 := be16 (b.getD 1 0) (b.getD 0 0)

def le32 (b : Bytes) : UInt32 := be32 (b.getD 3 0) (b.getD 2 0) (b.getD 1 0) (b.getD 0 0)

def ofLe16 (v : UInt16) : Bytes := [v.toUInt8, (v >>> 8).toUInt8]

def ofLe32 (v : UInt32) : Bytes :=
  [v.toUInt8, (v >>> 8).toUInt8, (v >>> 16).toUInt8, (v >>> 24).toUInt8]

def hexDigit (n : UInt8) : UInt8 := if n < 10 then 48 + n else 87 + n

/-- Two lowercase digits for each byte. -/
def hex (b : Bytes) : Bytes :=
  b.flatMap fun (x : UInt8) => [hexDigit (x >>> 4), hexDigit (x &&& 15)]

def decimal (n : Nat) : Bytes := (Nat.toDigits 10 n).map fun c => c.toNat.toUInt8

def signed (n : Int) : Bytes :=
  match n with
  | .ofNat n => decimal n
  | .negSucc n => 45 :: decimal (n + 1)

/-- Lexicographic order on unsigned bytes; a proper beginning comes first. -/
def le : Bytes → Bytes → Bool
  | [], _ => true
  | _ :: _, [] => false
  | a :: as, b :: bs => a < b || (a == b && le as bs)

end Bytes

end RouterAdvert
