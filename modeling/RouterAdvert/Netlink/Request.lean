import RouterAdvert.Netlink.LinkMessage
import RouterAdvert.Netlink.RouteMessage

/-! Requests to the kernel for its links and routes. -/
namespace RouterAdvert.Netlink

inductive Request where
  | link (index : Int32)
  | links
  | routes
  deriving DecidableEq, Repr

namespace Request

/-- A dump is answered by any number of messages and an end marker. -/
def isDump : Request → Bool
  | link _ => false
  | links => true
  | routes => true

def requestFlag : UInt16 := 0x001
def dumpFlag : UInt16 := 0x300

def flags (r : Request) : UInt16 := if r.isDump then requestFlag ||| dumpFlag else requestFlag

def encode (sequence : UInt32) (r : Request) : Bytes :=
  match r with
  | link index => Message.encode Message.getLink r.flags sequence (LinkMessage.fixedPart index)
  | links => Message.encode Message.getLink r.flags sequence (LinkMessage.fixedPart 0)
  | routes =>
    Message.encode Message.getRoute r.flags sequence
      (RouteMessage.inet6 :: List.replicate (RouteMessage.fixedSize - 1) 0)

end Request

end RouterAdvert.Netlink
