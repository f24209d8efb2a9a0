import RouterAdvert.Bytes

/-! Netlink messages in a receive buffer. A message begins with a header of 16 bytes: its length
with the header, its type, flags, sequence number and addressee, each least significant byte first.
Messages start at multiples of four bytes. -/
namespace RouterAdvert.Netlink

/-- The next multiple of four. -/
def roundUp (n : Nat) : Nat := (n + 3) / 4 * 4

/-- Rounds a length up to the next multiple of four in words of 32 bits. The sum wraps: of the three
largest lengths nothing is left. -/
def align (n : UInt32) : UInt32 := (n + 3) / 4 * 4

/-- A message together with everything behind it in the buffer. -/
structure Message where
  tail : Bytes
  deriving DecidableEq, Repr

namespace Message

def headerSize : Nat := 16

def noop : UInt16 := 1
def error : UInt16 := 2
def done : UInt16 := 3
def overrun : UInt16 := 4
def newLink : UInt16 := 16
def delLink : UInt16 := 17
def getLink : UInt16 := 18
def newRoute : UInt16 := 24
def getRoute : UInt16 := 26

def size (m : Message) : UInt32 := Bytes.le32 m.tail

def length (m : Message) : Nat := m.size.toNat

def type (m : Message) : UInt16 := Bytes.le16 (m.tail.drop 4)

def flags (m : Message) : UInt16 := Bytes.le16 (m.tail.drop 6)

def sequence (m : Message) : UInt32 := Bytes.le32 (m.tail.drop 8)

/-- What the message carries after its header. -/
def payload (m : Message) : Bytes := (m.tail.take m.length).drop headerSize

/-- The error number of an error message, the first word after the header. It is read from the
buffer even if the message is too short to hold one. -/
def errno (m : Message) : Int32 := (Bytes.le32 (m.tail.drop headerSize)).toInt32

/-- How far behind its start the next message is looked for. -/
def stride (m : Message) : UInt32 := align m.size

/-- How a walk from message to message ends. -/
inductive Ending where
  /-- At a header that does not fit in what remains, or that gives an impossible length. -/
  | stopped
  /-- Not at all: behind the last message comes the same one again. -/
  | standing
  /-- Outside the buffer, with a header or the rest of a message. What is there is not known. -/
  | outside
  deriving DecidableEq, Repr

/-- How a walk ends in front of what is left of the buffer; nothing if it visits the message there
and goes on behind it. What remains is counted in words of 64 bits, by which alone the walk goes: it
does not know where the buffer ends. -/
def ending? (buffer : Bytes) (remaining : UInt64) : Option Ending :=
  let m := mk buffer
  if remaining < 16 ∨ 4 ≤ buffer.length ∧ (m.size < 16 ∨ remaining < m.size.toUInt64) then
    some .stopped
  else if headerSize ≤ buffer.length ∧ m.stride = 0 then some .standing
  else if headerSize ≤ buffer.length ∧ m.length ≤ buffer.length then none
  else some .outside

theorem goes_on {buffer : Bytes} {remaining : UInt64} (h : ending? buffer remaining = none) :
    headerSize ≤ buffer.length ∧ (mk buffer).length ≤ buffer.length ∧
      16 ≤ (mk buffer).size ∧ (mk buffer).size.toUInt64 ≤ remaining ∧ (mk buffer).stride ≠ 0 := by
  unfold ending? at h
  dsimp only at h
  split at h
  · cases h
  · rename_i hstop
    split at h
    · cases h
    · rename_i hstand
      split at h
      · rename_i hfit
        have hsize : ¬((mk buffer).size < 16 ∨ remaining < (mk buffer).size.toUInt64) :=
          fun hs => hstop (Or.inr ⟨Nat.le_trans (by decide) hfit.1, hs⟩)
        exact ⟨hfit.1, hfit.2, UInt32.not_lt.mp fun hs => hsize (Or.inl hs),
          UInt64.not_lt.mp fun hs => hsize (Or.inr hs), fun hz => hstand ⟨hfit.1, hz⟩⟩
      · cases h

/-- The messages that a walk visits, and how it ends. -/
structure Walk where
  visited : List Message := []
  ending : Ending

def Walk.visit (m : Message) (w : Walk) : Walk := { w with visited := m :: w.visited }

/-- The walk over a buffer when `remaining` bytes of it count. -/
def walk (buffer : Bytes) (remaining : UInt64) : Walk :=
  match _h : ending? buffer remaining with
  | some .standing => { visited := [mk buffer], ending := .standing }
  | some e => { ending := e }
  | none =>
    (walk (buffer.drop (mk buffer).stride.toNat)
      (remaining - (mk buffer).stride.toUInt64)).visit (mk buffer)
termination_by buffer.length
decreasing_by
  obtain ⟨hh, -, -, -, hz⟩ := goes_on _h
  have hpos : (mk buffer).stride.toNat ≠ 0 := fun h0 => hz (UInt32.toNat_inj.mp h0)
  unfold headerSize at hh
  rw [List.length_drop]
  omega

/-- The messages that are visited when the first `count` bytes of a buffer count. -/
def inBuffer (buffer : Bytes) (count : Nat) : List Message := (walk buffer count.toUInt64).visited

def inDatagram (d : Bytes) : List Message := inBuffer d d.length

/-- Where the attributes behind a fixed part of this size end. What is left for them is taken for a
signed word: of 2147483648 bytes or more there are none. -/
def attributesEnd (fixedSize : Nat) (m : Message) : Nat :=
  if (m.size - (headerSize + fixedSize).toUInt32).toInt32 < 0 then headerSize + fixedSize
  else m.length

/-- What a message carries behind a fixed part of this size. -/
def attributeBytes (fixedSize : Nat) (m : Message) : Bytes :=
  (m.tail.take (m.attributesEnd fixedSize)).drop (headerSize + fixedSize)

/-- A byte string that holds a whole message. -/
def ofBytes? (b : Bytes) : Option Message :=
  if headerSize ≤ b.length ∧ (Message.mk b).length ≤ b.length then some ⟨b⟩ else none

/-- A message with this type, flags, sequence number and payload, padded to the next start. -/
def encode (type flags : UInt16) (sequence : UInt32) (payload : Bytes) : Bytes :=
  let length := headerSize + payload.length
  Bytes.text [Bytes.ofLe32 length.toUInt32, Bytes.ofLe16 type, Bytes.ofLe16 flags,
    Bytes.ofLe32 sequence, Bytes.ofLe32 0, payload, List.replicate (roundUp length - length) 0]

end Message

end RouterAdvert.Netlink
