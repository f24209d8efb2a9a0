import RouterAdvert.Link
import RouterAdvert.Netlink.Attribute

/-! Messages that describe a link: a fixed part of 16 bytes with the index at offset 4, then
attributes. -/
namespace RouterAdvert.Netlink.LinkMessage

def fixedSize : Nat := 16

def addressType : UInt16 := 1
def nameType : UInt16 := 3
def mtuType : UInt16 := 4

/-- Takes over what one attribute says. Only hardware addresses of six bytes count, and an mtu
needs four bytes; other attributes say nothing. -/
def extend (l : Link) (a : Attribute) : Link :=
  if a.type = nameType then { l with name := Bytes.untilZero a.payload }
  else if a.type = addressType then
    if a.payload.length = 6 then { l with mac := some (.ofBytes a.payload) } else l
  else if a.type = mtuType then
    if 4 ≤ a.payload.length then { l with mtu := Bytes.le32 a.payload } else l
  else l

/-- The link that an announcement or a removal is about; later attributes override earlier ones. -/
def decode? (m : Message) : Option Link :=
  if (m.type = Message.newLink ∨ m.type = Message.delLink) ∧
      Message.headerSize + fixedSize ≤ m.length then
    some ((Attribute.all (m.attributeBytes fixedSize)).foldl extend
      { index := (Bytes.le32 (m.payload.drop 4)).toInt32 })
  else none

/-- The fixed part of messages and requests about the link with this index. -/
def fixedPart (index : Int32) : Bytes :=
  Bytes.text [List.replicate 4 0, Bytes.ofLe32 index.toUInt32, List.replicate 8 0]

def attributes (l : Link) : List Attribute :=
  [⟨nameType, l.name ++ [0]⟩, ⟨mtuType, Bytes.ofLe32 l.mtu⟩] ++
    (l.mac.map fun m => (⟨addressType, m.toBytes⟩ : Attribute)).toList

def encode (type : UInt16) (sequence : UInt32) (l : Link) : Bytes :=
  Message.encode type 0 sequence (fixedPart l.index ++ (attributes l).flatMap Attribute.encode)

end RouterAdvert.Netlink.LinkMessage
