import RouterAdvert.ErrorCode
import RouterAdvert.Journal.Severity
import RouterAdvert.Link
import RouterAdvert.Ndp.Solicitation
import RouterAdvert.Route

/-! What the responder tells its operator: each kind of message with its severity and its wording.
Interfaces are named as they were when their tap was made. -/
namespace RouterAdvert

inductive Notice where
  -- An advertiser at work on one interface.
  | dialFailed (name : Bytes) (e : ErrorCode)
  | dialed (name : Bytes)
  | filterFailed (name : Bytes) (e : ErrorCode)
  | joinFailed (name : Bytes) (e : ErrorCode)
  | advertising (link : Link) (source : ScopedAddress)
  | receiveFailed (name : Bytes) (e : ErrorCode)
  | advertDropped (name : Bytes) (e : ErrorCode)
  | sendFailed (name : Bytes) (e : ErrorCode)
  | solicitationIgnored (name : Bytes) (sender : Address) (v : Ndp.Verdict)
  | solicited (name : Bytes) (sender : Address)
  -- Taps as they are made.
  | linkMissing (index : Int32) (e : ErrorCode)
  | routesFailed (name : Bytes) (e : ErrorCode)
  | hostRoutes (name : Bytes) (routes : List Network)
  | subnetRoutes (name : Bytes) (routes : List Network)
  | noHostRoutes (name : Bytes)
  | noMac (name : Bytes)
  | found (name : Bytes) (network : Option Address)
  -- The registry.
  | tapIgnored (index : Int32) (e : ErrorCode)
  | tapFailed (index : Int32) (e : ErrorCode)
  | tapReplaced (name : Bytes)
  | tapClosed (name : Bytes)
  | tapExited (name : Bytes) (e : ErrorCode)
  -- The watch for links.
  | watchNotOpened (e : ErrorCode)
  | watchNotBound (e : ErrorCode)
  | linksNotRequested (e : ErrorCode)
  | linksOverrun
  | watchFailed (e : ErrorCode)
  | watchRefused (errno : Int32)
  | kernelOverrun
  | linkIgnored (name : Bytes)
  | linkRemoved (name : Bytes) (index : Int32)
  | linkAppeared (name : Bytes) (index : Int32)
  -- The program as a whole.
  | cannotWatch
  | signaled (signal : Nat)
  | managing (regex : Bytes)
  | exiting
  deriving DecidableEq, Repr

namespace Notice

def severity : Notice → Severity
  | dialFailed .. | advertDropped .. | noHostRoutes _ | noMac _ | tapReplaced _ | linksOverrun
  | kernelOverrun => .warning
  | filterFailed .. | joinFailed .. | receiveFailed .. | sendFailed .. | tapFailed ..
  | tapExited .. | watchNotOpened _ | watchNotBound _ | watchRefused _ => .error
  | linksNotRequested _ | watchFailed _ | cannotWatch => .crit
  | dialed _ | advertising .. | solicitationIgnored .. | solicited .. | linkMissing ..
  | routesFailed .. | hostRoutes .. | subnetRoutes .. | linkIgnored _ => .debug
  | found .. | tapIgnored .. | tapClosed _ | linkRemoved .. | linkAppeared .. | signaled _
  | managing _ | exiting => .info

def macText (l : Link) : Bytes :=
  match l.mac with
  | some m => m.text
  | none => "none"

def networkText : Option Address → Bytes
  | some a => Bytes.text [a.text, "/64"]
  | none => "<nil>"

/-- The wording of an error number that the kernel reports as negative. -/
def refusalText (errno : Int32) : Bytes := Errno.message (-errno).toInt

def text : Notice → Bytes
  | dialFailed n e =>
    Bytes.text ["ra6: ", n, ": unable to dial linklocal: ", e.message, ", retrying..."]
  | dialed n => Bytes.text ["ra6: ", n, ": successfully dialed linklocal"]
  | filterFailed n e =>
    Bytes.text ["ra6: ", n, ": failed to apply ICMP type filter: ", e.message]
  | joinFailed n e => Bytes.text ["ra6: ", n, ": failed to join multicast group: ", e.message]
  | advertising l source =>
    Bytes.text ["ra6: handling interface: ", l.name, ", mac: ", macText l, ", mtu: ",
      Bytes.decimal l.mtu.toNat, ", src ip: ", source.text]
  | receiveFailed n e => Bytes.text ["ra6: ", n, ": receive failed: ", e.message]
  | advertDropped n e => Bytes.text ["ra6: ", n, ": dropped router advertisement: ", e.message]
  | sendFailed n e => Bytes.text ["ra6: ", n, ": sendto failed: ", e.message]
  | solicitationIgnored n sender v =>
    Bytes.text ["ra6: ", n, ": ignoring solicitation from ", sender.text, ": ", v.text]
  | solicited n sender => Bytes.text ["ra6: ", n, ": router solicitation from ", sender.text]
  | linkMissing i e =>
    Bytes.text ["tap: unable to get interface ", Bytes.signed i.toInt, ": ", e.message]
  | routesFailed n e => Bytes.text ["tap: failed getting routes for if ", n, ": ", e.message]
  | hostRoutes n rs => Bytes.text ["tap: host routes found on ", n, ": ", Network.listText rs]
  | subnetRoutes n rs => Bytes.text ["tap: subnet routes found on ", n, ": ", Network.listText rs]
  | noHostRoutes n =>
    Bytes.text ["tap: ", n, " has no host routes, only advertising RA without prefix for SLAAC"]
  | noMac n =>
    Bytes.text ["tap: ", n, " has no ethernet address, advertising without a link-layer address"]
  | found n network => Bytes.text ["tap: ", n, " found: ", networkText network]
  | tapIgnored i e =>
    Bytes.text ["engine: ignoring ifIndex ", Bytes.signed i.toInt, ": ", e.message]
  | tapFailed i e =>
    Bytes.text ["engine: failed adding ifIndex ", Bytes.signed i.toInt, ": ", e.message]
  | tapReplaced n =>
    Bytes.text ["engine: ", n, " was already registered, replacing its handler"]
  | tapClosed n => Bytes.text ["engine: ", n, " closed"]
  | tapExited n e => Bytes.text ["engine: ", n, " failed with ", e.message]
  | watchNotOpened e =>
    Bytes.text ["nlmonitor: failed to create netlink socket: ", e.message]
  | watchNotBound e => Bytes.text ["nlmonitor: failed to bind netlink socket: ", e.message]
  | linksNotRequested e => Bytes.text ["nlmonitor: failed to request link state: ", e.message]
  | linksOverrun => "nlmonitor: netlink receive overrun, requesting links again"
  | watchFailed e => Bytes.text ["nlmonitor: receive failed: ", e.message]
  | watchRefused errno => Bytes.text ["nlmonitor: received a NLMSG_ERROR: ", refusalText errno]
  | kernelOverrun => "nlmonitor: received a NLMSG_OVERRUN"
  | linkIgnored n => Bytes.text ["nlmonitor: ", n, " does not match, ignoring"]
  | linkRemoved n i =>
    Bytes.text ["nlmonitor: ", n, " (ifIndex ", Bytes.signed i.toInt, ") removed"]
  | linkAppeared n i =>
    Bytes.text ["nlmonitor: ", n, " (ifIndex ", Bytes.signed i.toInt, ") appeared"]
  | cannotWatch => "tapra6: unable to watch for interfaces"
  | signaled s =>
    Bytes.text ["tapra6: received signal ", Bytes.decimal s, ", closing all taps"]
  | managing regex => Bytes.text ["tapra6 1.0 managing interfaces matching '", regex, "'"]
  | exiting => "tapra6: all taps closed, exiting"

end Notice

end RouterAdvert
