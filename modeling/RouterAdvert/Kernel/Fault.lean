import RouterAdvert.ErrorCode
import RouterAdvert.Table

/-! Calls to the kernel that can be made to fail, and the error numbers they fail with. -/
namespace RouterAdvert

inductive KernelCall where
  | listAddresses
  | icmpOpen
  | outboundInterface
  | multicastHops
  | unicastHops
  | loopback
  | icmpBind
  | filter
  | joinGroup
  | icmpSend
  | icmpClose
  | netlinkOpen
  | netlinkBind
  | netlinkSend
  /-- The kernel's own answers to questions about one link, and about routes. -/
  | answerLink
  | answerRoutes
  deriving DecidableEq, Repr

namespace KernelCall

def names : List (KernelCall × String) :=
  [(listAddresses, "getifaddrs"), (icmpOpen, "icmp.open"),
    (outboundInterface, "icmp.outbound_interface"), (multicastHops, "icmp.multicast_hops"),
    (unicastHops, "icmp.unicast_hops"), (loopback, "icmp.loopback"), (icmpBind, "icmp.bind"),
    (filter, "icmp.filter"), (joinGroup, "icmp.join_group"), (icmpSend, "icmp.send"),
    (icmpClose, "icmp.close"), (netlinkOpen, "nl.open"), (netlinkBind, "nl.bind"),
    (netlinkSend, "nl.send"), (answerLink, "kernel.links"), (answerRoutes, "kernel.routes")]

def ofName? (s : String) : Option KernelCall := (names.find? (·.2 = s)).map (·.1)

end KernelCall

/-- The error number of each call that fails now. -/
abbrev Faults := Table KernelCall Int32

namespace Faults

/-- Zero is success. -/
def errno (f : Faults) (c : KernelCall) : Int32 := (f.get? c).getD 0

def error? (f : Faults) (c : KernelCall) : Option ErrorCode := ErrorCode.ofErrno? (f.errno c)

end Faults

end RouterAdvert
