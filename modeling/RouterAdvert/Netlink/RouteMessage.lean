import RouterAdvert.Netlink.Attribute
import RouterAdvert.Route

/-! Messages that describe a route: a fixed part of 12 bytes with the address family, the length of
the destination and an 8-bit table number, then attributes. -/
namespace RouterAdvert.Netlink.RouteMessage

def fixedSize : Nat := 12

def inet6 : UInt8 := 10

def destinationType : UInt16 := 1
def interfaceType : UInt16 := 4
def tableType : UInt16 := 15

/-- Takes over what one attribute says. A destination must be a whole address; a table number given
here replaces the one of the fixed part, which has no room for large ones. -/
def extend? (r : Route) (a : Attribute) : Option Route :=
  if a.type = destinationType then
    if a.payload.length = 16 then some { r with destination := .ofBytes a.payload } else none
  else if a.type = interfaceType then
    if 4 ≤ a.payload.length then some { r with interface := (Bytes.le32 a.payload).toInt32 }
    else some r
  else if a.type = tableType then
    if 4 ≤ a.payload.length then some { r with table := Bytes.le32 a.payload } else some r
  else some r

def decode? (m : Message) : Option Route :=
  let family := m.payload.getD 0 0
  let length := m.payload.getD 1 0
  if m.type = Message.newRoute ∧ Message.headerSize + fixedSize ≤ m.length ∧ family = inet6 ∧
      length ≤ 128 then
    (Attribute.all (m.attributeBytes fixedSize)).foldlM extend?
      { length := length, table := (m.payload.getD 4 0).toUInt32 }
  else none

def attributes (r : Route) : List Attribute :=
  [⟨tableType, Bytes.ofLe32 r.table⟩] ++
    (if r.length = 0 then [] else [⟨destinationType, r.destination.toBytes⟩]) ++
    [⟨interfaceType, Bytes.ofLe32 r.interface.toUInt32⟩]

def encode (sequence : UInt32) (r : Route) : Bytes :=
  Message.encode Message.newRoute 0 sequence
    ([inet6, r.length, 0, 0, r.table.toUInt8, 0, 0, 0, 0, 0, 0, 0] ++
      (attributes r).flatMap Attribute.encode)

end RouterAdvert.Netlink.RouteMessage
