import RouterAdvert.Mac
import RouterAdvert.Ndp.Field

/-! The Source Link-Layer Address option for ethernet. -/
namespace RouterAdvert.Ndp

def sourceLinkType : UInt8 := 1

structure SourceLink where
  raw : Vector UInt8 8 := #v[1, 1, 0, 0, 0, 0, 0, 0]
  deriving DecidableEq, Repr

namespace SourceLink

def size : Nat := 8

def type (o : SourceLink) : UInt8 := o.raw[0]

/-- The length in octets, which the wire gives in units of eight; large values wrap. -/
def length (o : SourceLink) : UInt8 := o.raw[1] * 8

def mac (o : SourceLink) : Mac := ⟨Vector.ofFn fun i => o.raw[i.val + 2]⟩

def setMac (m : Mac) (o : SourceLink) : SourceLink :=
  ⟨Vector.ofFn fun i => if h : 2 ≤ i.val then m.octets[i.val - 2] else o.raw[i]⟩

/-- The option at the front of `b` and the rest; nothing if `b` is too short. -/
def read? (b : Bytes) : Option (SourceLink × Bytes) :=
  (Bytes.split? 8 b).map fun (raw, rest) => (⟨raw⟩, rest)

def write (o : SourceLink) : Bytes := o.raw.toList

inductive Edit where
  | mac (m : Mac)
  deriving DecidableEq, Repr

def edit : Edit → SourceLink → SourceLink
  | .mac m => setMac m

end SourceLink

end RouterAdvert.Ndp
