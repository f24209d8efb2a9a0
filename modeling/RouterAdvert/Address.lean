import RouterAdvert.Bytes

/-! IPv6 addresses and networks: the classes the responder asks about, truncation to a network, and
the usual text form. -/
namespace RouterAdvert

structure Address where
  octets : Vector UInt8 16
  deriving DecidableEq, Repr

/-- An address with the interface it is valid on; scope 0 means any. -/
structure ScopedAddress where
  address : Address
  scope : UInt64 := 0
  deriving DecidableEq, Repr

/-- An address with the number of leading bits that name the network. Host bits are kept. -/
structure Network where
  address : Address
  length : Nat
  length_le : length ≤ 128
  deriving DecidableEq, Repr

namespace Address

def ofBytes (b : Bytes) : Address := ⟨Bytes.prefixOf 16 b⟩

def toBytes (a : Address) : Bytes := a.octets.toList

def unspecified : Address := ⟨Vector.replicate 16 0⟩

def isUnspecified (a : Address) : Bool := a = unspecified

/-- Link-local unicast addresses are those of `fe80::/10`. -/
def isLinkLocal (a : Address) : Bool := a.octets[0] = 0xfe && a.octets[1] &&& 0xc0 = 0x80

/-- Bit `i`, counted from the most significant bit of the first octet. -/
def bit (a : Address) (i : Nat) : Bool :=
  ((a.octets.toList.getD (i / 8) 0) >>> (7 - i % 8).toUInt8) &&& 1 = 1

def groups (a : Address) : List UInt16 :=
  (List.range 8).map fun i =>
    Bytes.be16 (a.octets.toList.getD (2 * i) 0) (a.octets.toList.getD (2 * i + 1) 0)

def zeroRunAt (gs : List UInt16) (i : Nat) : Nat := ((gs.drop i).takeWhile (· == 0)).length

/-- Start and length of the run of zero groups that is abbreviated. -/
def zeroRun? (gs : List UInt16) : Option (Nat × Nat) :=
  (List.range gs.length).foldl (fun best i =>
    let n := zeroRunAt gs i
    match best with
    | some (_, m) => if m < n then some (i, n) else best
    | none => if 2 ≤ n then some (i, n) else none) none

def groupText (g : UInt16) : Bytes := (Nat.toDigits 16 g.toNat).map fun c => c.toNat.toUInt8

def dotted (a : Address) : Bytes :=
  Bytes.join "." ((a.octets.toList.drop 12).map fun o => Bytes.decimal o.toNat)

def text (a : Address) : Bytes :=
  let gs := a.groups
  match zeroRun? gs with
  | none => Bytes.join ":" (gs.map groupText)
  | some (start, n) =>
    let embedsV4 := start = 0 ∧ (n = 6 ∨ n = 5 ∧ gs.getD 5 0 = 0xffff)
    let parts := if embedsV4 then (gs.take 6).map groupText ++ [a.dotted] else gs.map groupText
    Bytes.text [Bytes.join ":" (parts.take start), "::", Bytes.join ":" (parts.drop (start + n))]

end Address

namespace ScopedAddress

def text (a : ScopedAddress) : Bytes :=
  if a.scope = 0 then a.address.text
  else Bytes.text [a.address.text, "%", Bytes.decimal a.scope.toNat]

end ScopedAddress

namespace Network

def of? (a : Address) (length : Nat) : Option Network :=
  if h : length ≤ 128 then some ⟨a, length, h⟩ else none

/-- Clears octet `i` past the network part; the mask of a divided octet is a run of ones that
moves right as its share of the length falls. -/
def baseOctet (length i : Nat) (o : UInt8) : UInt8 :=
  if length ≤ i * 8 then 0
  else if length < (i + 1) * 8 then o &&& ((0xff00 : UInt16) >>> (length % 8).toUInt16).toUInt8
  else o

/-- The address of the network itself: all host bits are zero. -/
def base (n : Network) : Address := ⟨n.address.octets.mapFinIdx fun i o _ => baseOctet n.length i o⟩

def text (n : Network) : Bytes := Bytes.text [n.address.text, "/", Bytes.decimal n.length]

/-- The networks in brackets, separated by blanks. -/
def listText (ns : List Network) : Bytes :=
  Bytes.text ["[", Bytes.join " " (ns.map text), "]"]

end Network

end RouterAdvert
