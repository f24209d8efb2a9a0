import RouterAdvert.Netlink.Message

/-! Attributes at the end of link and route messages: a length with its header of four bytes, a
type, and a payload, each attribute starting at a multiple of four bytes. -/
namespace RouterAdvert.Netlink

/-- Lengths of 16 bits do not wrap. -/
theorem align_toUInt32 (n : UInt16) : (align n.toUInt32).toNat = roundUp n.toNat := by
  have hn := n.toNat_lt
  simp only [align, roundUp, UInt32.toNat_mul, UInt32.toNat_div, UInt32.toNat_add,
    UInt16.toNat_toUInt32, UInt32.reduceToNat]
  omega

structure Attribute where
  type : UInt16
  payload : Bytes
  deriving DecidableEq, Repr

namespace Attribute

def headerSize : Nat := 4

/-- The well-formed attributes at the front; the walk ends at the first that does not fit. -/
def all (b : Bytes) : List Attribute :=
  let length := Bytes.le16 b
  if headerSize ≤ b.length ∧ headerSize ≤ length.toNat ∧ length.toNat ≤ b.length then
    { type := Bytes.le16 (b.drop 2), payload := (b.take length.toNat).drop headerSize } ::
      all (b.drop (align length.toUInt32).toNat)
  else []
termination_by b.length
decreasing_by
  rename_i h
  have hb : 4 ≤ b.length := h.1
  have hl : 4 ≤ (Bytes.le16 b).toNat := h.2.1
  rw [align_toUInt32, roundUp, List.length_drop]
  omega

/-- The attribute followed by zeros up to the next start. -/
def encode (a : Attribute) : Bytes :=
  let length := headerSize + a.payload.length
  Bytes.text [Bytes.ofLe16 length.toUInt16, Bytes.ofLe16 a.type, a.payload,
    List.replicate (roundUp length - length) 0]

end Attribute

end RouterAdvert.Netlink
