import RouterAdvert.Bytes

/-! Ethernet hardware addresses. -/
namespace RouterAdvert

structure Mac where
  octets : Vector UInt8 6
  deriving DecidableEq, Repr

namespace Mac

def ofBytes (b : Bytes) : Mac := ⟨Bytes.prefixOf 6 b⟩

def toBytes (m : Mac) : Bytes := m.octets.toList

/-- Two hexadecimal digits for each octet, separated by colons. -/
def text (m : Mac) : Bytes := Bytes.join ":" (m.toBytes.map fun o => Bytes.hex [o])

end Mac

end RouterAdvert
