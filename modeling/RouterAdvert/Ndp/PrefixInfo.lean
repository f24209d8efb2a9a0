import RouterAdvert.Address
import RouterAdvert.Ndp.Field

/-! The Prefix Information option. Storing a prefix clears the host bits of the address. -/
namespace RouterAdvert.Ndp

def prefixInfoType : UInt8 := 3

structure PrefixInfo where
  raw : Vector UInt8 32 := (#v[3, 4] : Vector UInt8 2) ++ (Vector.replicate 30 0 : Vector UInt8 30)
  deriving DecidableEq, Repr

namespace PrefixInfo

def size : Nat := 32

def type (o : PrefixInfo) : UInt8 := o.raw[0]

/-- The length in octets, which the wire gives in units of eight; large values wrap. -/
def length (o : PrefixInfo) : UInt8 := o.raw[1] * 8

def prefixLength (o : PrefixInfo) : UInt8 := o.raw[2]

def onLink (o : PrefixInfo) : Bool := hasFlag 0x80 o.raw[3]

def autonomous (o : PrefixInfo) : Bool := hasFlag 0x40 o.raw[3]

def validLifetime (o : PrefixInfo) : UInt32 := getBe32 o.raw 4

def preferredLifetime (o : PrefixInfo) : UInt32 := getBe32 o.raw 8

def address (o : PrefixInfo) : Address := ⟨Vector.ofFn fun i => o.raw[i.val + 16]⟩

def setOnLink (v : Bool) (o : PrefixInfo) : PrefixInfo :=
  ⟨o.raw.set 3 (withFlag v 0x80 o.raw[3])⟩

def setAutonomous (v : Bool) (o : PrefixInfo) : PrefixInfo :=
  ⟨o.raw.set 3 (withFlag v 0x40 o.raw[3])⟩

def setValidLifetime (v : UInt32) (o : PrefixInfo) : PrefixInfo := ⟨setBe32 o.raw 4 v⟩

def setPreferredLifetime (v : UInt32) (o : PrefixInfo) : PrefixInfo := ⟨setBe32 o.raw 8 v⟩

/-- Lengths above 128 count as 128. -/
def cappedLength (length : UInt8) : UInt8 := if length > 128 then 128 else length

/-- Writes `count` zeros over the octets from `start` on. -/
def zeroFill (start count : Nat) (b : Bytes) : Bytes :=
  b.take start ++ List.replicate count 0 ++ b.drop (start + count)

/-- Ones in the places of an octet behind its first `k`. -/
def hostMask : Nat → UInt8
  | 0 => 0xff
  | k + 1 => hostMask k >>> 1

/-- Clears the host bits of the address at `start`: zeros over whole octets, and a mask on the one
that the border divides. -/
def clearHost (start length : Nat) (b : Bytes) : Bytes :=
  let border := start + length / 8
  if length % 8 = 0 then zeroFill border (16 - length / 8) b
  else
    (zeroFill (border + 1) (16 - length / 8 - 1) b).modify border (· &&& ~~~hostMask (length % 8))

/-- Puts an address and its length in their places. -/
def store (a : Address) (length : UInt8) (o : PrefixInfo) : PrefixInfo :=
  ⟨Vector.ofFn fun i =>
    if h : 16 ≤ i.val then a.octets[i.val - 16] else if i.val = 2 then length else o.raw[i]⟩

def setPrefix (a : Address) (length : UInt8) (o : PrefixInfo) : PrefixInfo :=
  let l := cappedLength length
  store (Address.ofBytes (clearHost 0 l.toNat a.toBytes)) l o

/-- The option at the front of `b` and the rest; nothing if `b` is too short. -/
def read? (b : Bytes) : Option (PrefixInfo × Bytes) :=
  (Bytes.split? 32 b).map fun (raw, rest) => (⟨raw⟩, rest)

def write (o : PrefixInfo) : Bytes := o.raw.toList

inductive Edit where
  | onLink (v : Bool)
  | autonomous (v : Bool)
  | validLifetime (v : UInt32)
  | preferredLifetime (v : UInt32)
  | network (a : Address) (length : UInt8)
  deriving DecidableEq, Repr

def edit : Edit → PrefixInfo → PrefixInfo
  | .onLink v => setOnLink v
  | .autonomous v => setAutonomous v
  | .validLifetime v => setValidLifetime v
  | .preferredLifetime v => setPreferredLifetime v
  | .network a l => setPrefix a l

end PrefixInfo

end RouterAdvert.Ndp
