import RouterAdvert.Connection
import RouterAdvert.Connection.Call
import RouterAdvert.Kernel.Fault
import RouterAdvert.Socket.Call

/-! Connections over raw ICMPv6 sockets, each bound to the link-local address of one interface.
Until that address is ready, dialing fails. -/
namespace RouterAdvert

/-- An address of an interface; only IPv6 addresses are kept. -/
structure InterfaceAddress where
  name : Bytes
  address : Option Address
  deriving DecidableEq, Repr

namespace LinkLocal

def allNodes : Address := .ofBytes ([0xff, 0x02] ++ List.replicate 13 0 ++ [1])

def allRouters : Address := .ofBytes ([0xff, 0x02] ++ List.replicate 13 0 ++ [2])

/-- Passes solicitations only: in the mask of blocked types, bit 133 alone is clear. Words have 32
bits, least significant byte first. -/
def solicitMask : Bytes := List.replicate 16 0xff ++ [0xdf] ++ List.replicate 15 0xff

def icmpProtocol : Nat := 58

/-- Neighbor Discovery messages count only if no router has passed them on. -/
def hopLimit : Nat := 255

def scope (index : Int32) : UInt64 := index.toInt64.toUInt64

/-- The first link-local address among those of the interface with this name. Names end at their
first zero byte. -/
def find? (name : Bytes) (addresses : List InterfaceAddress) : Option Address :=
  addresses.findSome? fun a =>
    if Bytes.untilZero a.name = Bytes.untilZero name then a.address.filter (·.isLinkLocal) else none

def find (faults : Faults) (name : Bytes) (addresses : List InterfaceAddress) :
    Except ErrorCode Address :=
  match faults.error? .listAddresses with
  | some e => .error e
  | none =>
    match find? name addresses with
    | some a => .ok a
    | none => .error ⟨.generic, Errno.addressNotAvailable⟩

/-- The calls that make a socket ready, in order. -/
def setUp (index : Int32) (source : ScopedAddress) : List (KernelCall × SocketCall) :=
  [(.icmpOpen, .open icmpProtocol), (.outboundInterface, .outboundInterface index.toUInt32),
    (.multicastHops, .multicastHops hopLimit), (.unicastHops, .unicastHops hopLimit),
    (.loopback, .loopback false), (.icmpBind, .bindAddress source)]

/-- Makes calls up to the first that fails: the uses of the socket, and the error if there was
one. -/
def attempt (faults : Faults) : List (KernelCall × SocketCall) → List SocketUse × Option ErrorCode
  | [] => ([], none)
  | (k, c) :: rest =>
    let use : SocketUse := ⟨c, faults.errno k⟩
    match faults.error? k with
    | some e => ([use], some e)
    | none =>
      let (uses, e) := attempt faults rest
      (use :: uses, e)

/-- What dialing comes to: the outcome, and the uses of the socket, if one was made. -/
structure Dialing where
  outcome : Except ErrorCode Endpoint
  uses : List SocketUse := []

/-- Dials on the interface with this name and index; the socket gets the given number. -/
def dial (faults : Faults) (addresses : List InterfaceAddress) (name : Bytes) (index : Int32)
    (number : Nat) : Dialing :=
  match find faults name addresses with
  | .error e => { outcome := .error e }
  | .ok a =>
    let source : ScopedAddress := ⟨a, scope index⟩
    match attempt faults (setUp index source) with
    | (uses, some e) => { outcome := .error e, uses := uses }
    | (uses, none) => { outcome := .ok { number := number, source := source }, uses := uses }

/-- What a call on a connection looks like on its socket. Receiving leaves no trace. -/
def use? (faults : Faults) (c : Connection) (call : ConnectionCall) : Option SocketUse :=
  let scope := c.source.scope
  match call with
  | .filter => some ⟨.filter solicitMask, faults.errno .filter⟩
  | .join => some ⟨.joinGroup allRouters scope, faults.errno .joinGroup⟩
  | .receive => none
  | .send data => some ⟨.sendTo ⟨allNodes, scope⟩ data, faults.errno .icmpSend⟩
  | .close => some ⟨.close, faults.errno .icmpClose⟩

end LinkLocal

end RouterAdvert
