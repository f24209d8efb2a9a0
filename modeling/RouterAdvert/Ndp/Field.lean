import RouterAdvert.Bytes

/-! Fields inside the fixed-size objects of Neighbor Discovery messages: single flags, octets and
big-endian integers. -/
namespace RouterAdvert.Ndp

/-- Sets or clears the bits of `mask` and keeps the others. -/
def withFlag (on : Bool) (mask o : UInt8) : UInt8 := if on then o ||| mask else o &&& ~~~mask

def hasFlag (mask o : UInt8) : Bool := o &&& mask ≠ 0

variable {n : Nat}

def getBe16 (raw : Vector UInt8 n) (i : Nat) (h : i + 1 < n := by omega) : UInt16 :=
  Bytes.be16 raw[i] raw[i + 1]

def setBe16 (raw : Vector UInt8 n) (i : Nat) (v : UInt16) (h : i + 1 < n := by omega) :
    Vector UInt8 n :=
  (raw.set i (v >>> 8).toUInt8).set (i + 1) v.toUInt8

def getBe32 (raw : Vector UInt8 n) (i : Nat) (h : i + 3 < n := by omega) : UInt32 :=
  Bytes.be32 raw[i] raw[i + 1] raw[i + 2] raw[i + 3]

def setBe32 (raw : Vector UInt8 n) (i : Nat) (v : UInt32) (h : i + 3 < n := by omega) :
    Vector UInt8 n :=
  (((raw.set i (v >>> 24).toUInt8).set (i + 1) (v >>> 16).toUInt8).set (i + 2)
    (v >>> 8).toUInt8).set (i + 3) v.toUInt8

end RouterAdvert.Ndp
