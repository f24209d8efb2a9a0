import RouterAdvert.Host
import RouterAdvert.LinkLocal
import RouterAdvert.Netlink.Query

/-! A kernel: its links, routes and addresses, its answers to questions about them, and the sockets
that it has handed out. -/
namespace RouterAdvert

structure Kernel where
  links : Table Int32 Link := .empty
  routes : List Route := []
  addresses : List InterfaceAddress := []
  faults : Faults := .empty
  /-- The number of the next netlink socket; the first one announces links. -/
  nextNetlink : Nat := 1
  nextIcmp : Nat := 0
  /-- The ICMPv6 sockets that are open. -/
  openIcmp : List Nat := []
  /-- The number of the next question. -/
  sequence : UInt32 := 1

namespace Kernel

def addLink (l : Link) (k : Kernel) : Kernel := { k with links := k.links.insert l.index l }

def doneMessage (sequence : UInt32) : Bytes :=
  Netlink.Message.encode Netlink.Message.done 0 sequence (Bytes.ofLe32 0)

/-- The refusal of a request: the negative error number, and the header of the request. -/
def errorMessage (errno : Int32) (sequence : UInt32) (request : Bytes) : Bytes :=
  Netlink.Message.encode Netlink.Message.error 0 sequence
    (Bytes.ofLe32 (-errno).toUInt32 ++ request.take Netlink.Message.headerSize)

/-- All links in one datagram. -/
def linkDump (sequence : UInt32) (k : Kernel) : Bytes :=
  k.links.values.flatMap (Netlink.LinkMessage.encode Netlink.Message.newLink sequence) ++
    doneMessage sequence

def answerLink (index : Int32) (k : Kernel) (request : Bytes) : List Netlink.Reply :=
  let refuse (errno : Int32) := [.ok (errorMessage errno k.sequence request)]
  match k.faults.error? .answerLink with
  | some e => refuse e.value
  | none =>
    match k.links.get? index with
    | some l => [.ok (Netlink.LinkMessage.encode Netlink.Message.newLink k.sequence l)]
    | none => refuse Errno.noDevice

/-- All routes in one datagram, if there are any, and the end in another. -/
def answerRoutes (k : Kernel) (request : Bytes) : List Netlink.Reply :=
  match k.faults.error? .answerRoutes with
  | some e => [.ok (errorMessage e.value k.sequence request)]
  | none =>
    (if k.routes = [] then []
      else [.ok (k.routes.flatMap (Netlink.RouteMessage.encode k.sequence))]) ++
      [.ok (doneMessage k.sequence)]

def exchange (k : Kernel) (replies : Bytes → List Netlink.Reply) : Netlink.Exchange :=
  { openErrno := k.faults.errno .netlinkOpen
    bindErrno := k.faults.errno .netlinkBind
    sendErrno := k.faults.errno .netlinkSend
    replies := replies }

/-- The report on a question that used the next netlink socket. A kernel pads its replies, so that
every question comes back. -/
def report {α : Type} (k : Kernel) (o : Netlink.Query.Outcome α) : Report Kernel α :=
  { answer := o.result.getD (.error .canceled)
    entries := o.uses.map (.socket .netlink k.nextNetlink)
    after := { k with nextNetlink := k.nextNetlink + 1, sequence := o.nextSequence } }

def dialing (l : Link) (k : Kernel) : LinkLocal.Dialing :=
  LinkLocal.dial k.faults k.addresses l.name l.index k.nextIcmp

/-- The open sockets after a use of socket `number`. Opening may fail; closing does not, whatever is
answered. -/
def afterUse (number : Nat) (sockets : List Nat) (u : SocketUse) : List Nat :=
  match u.call with
  | .open _ => if u.errno = 0 then sockets ++ [number] else sockets
  | .close => sockets.erase number
  | _ => sockets

/-- Every dial that comes to its first call on a socket uses up a number. The connection of a dial
that fails after that is dropped, which closes its socket. -/
def afterDial (l : Link) (k : Kernel) : Kernel :=
  let d := k.dialing l
  if d.uses = [] then k
  else
    let sockets := d.uses.foldl (afterUse k.nextIcmp) k.openIcmp
    { k with
      nextIcmp := k.nextIcmp + 1
      openIcmp := if d.outcome.toBool then sockets else sockets.erase k.nextIcmp }

/-- The uses of the socket behind a connection that a call on it makes. -/
def uses (c : Connection) (call : ConnectionCall) (k : Kernel) : List SocketUse :=
  (LinkLocal.use? k.faults c call).toList

def afterCall (c : Connection) (call : ConnectionCall) (k : Kernel) : Kernel :=
  { k with openIcmp := (k.uses c call).foldl (afterUse c.number) k.openIcmp }

instance : Host Kernel where
  conditions l k :=
    { dial := (k.dialing l).outcome
      filter := k.faults.error? .filter
      join := k.faults.error? .joinGroup
      send := k.faults.error? .icmpSend }
  dial l k := ((k.dialing l).uses.map (.socket .icmp k.nextIcmp), k.afterDial l)
  call c call _ k :=
    ((k.uses c call).map (.socket .icmp c.number), k.afterCall c call)
  failures _ := 0
  lookUp i k := k.report (Netlink.Query.link i (k.exchange (k.answerLink i)) k.sequence)
  listRoutes k := k.report (Netlink.Query.routes (k.exchange k.answerRoutes) k.sequence)
  watchErrno call k :=
    match call with
    | .open => k.faults.errno .netlinkOpen
    | .bind => k.faults.errno .netlinkBind
    | .send => k.faults.errno .netlinkSend
  announceAll sequence k := some (k.linkDump sequence)

end Kernel

end RouterAdvert
