import RouterAdvert.Ndp.Field

/-! The four octets every ICMPv6 message begins with, and the reserved word of a solicitation. -/
namespace RouterAdvert.Ndp

def routerSolicitType : UInt8 := 133

def routerAdvertType : UInt8 := 134

structure IcmpHeader where
  raw : Vector UInt8 4 := Vector.replicate 4 0
  deriving DecidableEq, Repr

namespace IcmpHeader

def size : Nat := 4

def type (h : IcmpHeader) : UInt8 := h.raw[0]

def code (h : IcmpHeader) : UInt8 := h.raw[1]

def checksum (h : IcmpHeader) : UInt16 := getBe16 h.raw 2

def setType (v : UInt8) (h : IcmpHeader) : IcmpHeader := ⟨h.raw.set 0 v⟩

def setCode (v : UInt8) (h : IcmpHeader) : IcmpHeader := ⟨h.raw.set 1 v⟩

def setChecksum (v : UInt16) (h : IcmpHeader) : IcmpHeader := ⟨setBe16 h.raw 2 v⟩

/-- The header at the front of `b` and the rest; nothing if `b` is too short. -/
def read? (b : Bytes) : Option (IcmpHeader × Bytes) :=
  (Bytes.split? 4 b).map fun (raw, rest) => (⟨raw⟩, rest)

def write (h : IcmpHeader) : Bytes := h.raw.toList

inductive Edit where
  | type (v : UInt8)
  | code (v : UInt8)
  | checksum (v : UInt16)
  deriving DecidableEq, Repr

def edit : Edit → IcmpHeader → IcmpHeader
  | .type v => setType v
  | .code v => setCode v
  | .checksum v => setChecksum v

end IcmpHeader

/-- Four reserved octets; options follow. -/
structure SolicitHeader where
  raw : Vector UInt8 4 := Vector.replicate 4 0
  deriving DecidableEq, Repr

namespace SolicitHeader

def size : Nat := 4

def read? (b : Bytes) : Option (SolicitHeader × Bytes) :=
  (Bytes.split? 4 b).map fun (raw, rest) => (⟨raw⟩, rest)

def write (h : SolicitHeader) : Bytes := h.raw.toList

end SolicitHeader

end RouterAdvert.Ndp
