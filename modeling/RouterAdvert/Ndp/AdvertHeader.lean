import RouterAdvert.Ndp.Field

/-! The fixed part of a router advertisement after the ICMPv6 header. The second octet holds the M
and O flags, the two-bit router preference and three reserved bits, which every setter keeps. -/
namespace RouterAdvert.Ndp

inductive RouterPreference where
  | high
  | medium
  | low
  deriving DecidableEq, Repr

structure AdvertHeader where
  raw : Vector UInt8 12 := Vector.replicate 12 0
  deriving DecidableEq, Repr

namespace AdvertHeader

def size : Nat := 12

def hopLimit (h : AdvertHeader) : UInt8 := h.raw[0]

def managed (h : AdvertHeader) : Bool := hasFlag 0x80 h.raw[1]

def other (h : AdvertHeader) : Bool := hasFlag 0x40 h.raw[1]

/-- The bit pattern 2 is reserved and reads as medium. -/
def preference (h : AdvertHeader) : RouterPreference :=
  let bits := (h.raw[1] >>> 3) &&& 3
  if bits = 1 then .high else if bits = 3 then .low else .medium

def lifetime (h : AdvertHeader) : UInt16 := getBe16 h.raw 2

def reachable (h : AdvertHeader) : UInt32 := getBe32 h.raw 4

def retransmit (h : AdvertHeader) : UInt32 := getBe32 h.raw 8

def setHopLimit (v : UInt8) (h : AdvertHeader) : AdvertHeader := ⟨h.raw.set 0 v⟩

def setManaged (v : Bool) (h : AdvertHeader) : AdvertHeader :=
  ⟨h.raw.set 1 (withFlag v 0x80 h.raw[1])⟩

def setOther (v : Bool) (h : AdvertHeader) : AdvertHeader :=
  ⟨h.raw.set 1 (withFlag v 0x40 h.raw[1])⟩

def setPreference (v : RouterPreference) (h : AdvertHeader) : AdvertHeader :=
  let (upper, lower) := match v with
    | .high => (false, true)
    | .medium => (false, false)
    | .low => (true, true)
  ⟨h.raw.set 1 (withFlag lower 0x08 (withFlag upper 0x10 h.raw[1]))⟩

def setLifetime (v : UInt16) (h : AdvertHeader) : AdvertHeader := ⟨setBe16 h.raw 2 v⟩

def setReachable (v : UInt32) (h : AdvertHeader) : AdvertHeader := ⟨setBe32 h.raw 4 v⟩

def setRetransmit (v : UInt32) (h : AdvertHeader) : AdvertHeader := ⟨setBe32 h.raw 8 v⟩

/-- The header at the front of `b` and the rest; nothing if `b` is too short. -/
def read? (b : Bytes) : Option (AdvertHeader × Bytes) :=
  (Bytes.split? 12 b).map fun (raw, rest) => (⟨raw⟩, rest)

def write (h : AdvertHeader) : Bytes := h.raw.toList

inductive Edit where
  | hopLimit (v : UInt8)
  | managed (v : Bool)
  | other (v : Bool)
  | preference (v : RouterPreference)
  | lifetime (v : UInt16)
  | reachable (v : UInt32)
  | retransmit (v : UInt32)
  deriving DecidableEq, Repr

def edit : Edit → AdvertHeader → AdvertHeader
  | .hopLimit v => setHopLimit v
  | .managed v => setManaged v
  | .other v => setOther v
  | .preference v => setPreference v
  | .lifetime v => setLifetime v
  | .reachable v => setReachable v
  | .retransmit v => setRetransmit v

end AdvertHeader

end RouterAdvert.Ndp
