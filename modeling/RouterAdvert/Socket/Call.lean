import RouterAdvert.Address

/-! Calls on kernel sockets, for the records of what the responder did. -/
namespace RouterAdvert

inductive SocketCall where
  | open (protocol : Nat)
  | bindGroups (groups : Nat)
  | bindAddress (a : ScopedAddress)
  | outboundInterface (index : UInt32)
  | multicastHops (n : Nat)
  | unicastHops (n : Nat)
  | loopback (on : Bool)
  | joinGroup (group : Address) (index : UInt64)
  | filter (mask : Bytes)
  | send (data : Bytes)
  | sendTo (a : ScopedAddress) (data : Bytes)
  | close
  deriving DecidableEq, Repr

/-- A call and the error number it failed with; zero is success. -/
structure SocketUse where
  call : SocketCall
  errno : Int32 := 0
  deriving DecidableEq, Repr

namespace SocketCall

def text : SocketCall → Bytes
  | .open p => Bytes.text ["open ", Bytes.decimal p]
  | bindGroups g => Bytes.text ["bind ", Bytes.decimal g]
  | bindAddress a => Bytes.text ["bind ", a.text]
  | outboundInterface i => Bytes.text ["outbound_interface ", Bytes.decimal i.toNat]
  | multicastHops n => Bytes.text ["multicast_hops ", Bytes.decimal n]
  | unicastHops n => Bytes.text ["unicast_hops ", Bytes.decimal n]
  | loopback on => if on then "loopback 1" else "loopback 0"
  | joinGroup g i => Bytes.text ["join_group ", g.text, " ", Bytes.decimal i.toNat]
  | filter mask => Bytes.text ["filter ", Bytes.hex mask]
  | send d => Bytes.text ["send ", Bytes.hex d]
  | sendTo a d => Bytes.text ["send ", a.text, " ", Bytes.hex d]
  | close => "close"

end SocketCall

namespace SocketUse

def text (u : SocketUse) : Bytes :=
  if u.errno = 0 then u.call.text
  else Bytes.text [u.call.text, " -> errno ", Bytes.signed u.errno.toInt]

end SocketUse

end RouterAdvert
