import RouterAdvert.Address
import RouterAdvert.ErrorCode

/-! The end of one ICMPv6 socket that an advertiser holds: receives that wait for datagrams,
datagrams that wait for a receive, and sends that have not completed. Each operation says which of
them complete, in order; nothing completes while a call is being made. -/
namespace RouterAdvert

structure Datagram where
  data : Bytes
  sender : Address
  deriving DecidableEq, Repr

/-- What arrives at a socket: a datagram, or an error. -/
abbrev Arrival := Except ErrorCode Datagram

/-- The end of an operation. -/
inductive Completion where
  | received (r : Except ErrorCode Bytes)
  | sent (e : Option ErrorCode)

/-- What a dial yields: a socket of which nothing has been asked yet. -/
structure Endpoint where
  /-- Tells connections apart; later ones have larger numbers. -/
  number : Nat := 0
  source : ScopedAddress
  /-- Whether sends complete only when they are released. -/
  holdSends : Bool := false

structure Connection extends Endpoint where
  isOpen : Bool := true
  /-- The room in the buffers of waiting receives, oldest first. -/
  waiting : List Nat := []
  inbox : List Arrival := []
  /-- The sender of the last datagram that completed a receive. -/
  sender : Address := .unspecified
  held : Nat := 0

/-- A new connection: it is open, and nothing is pending on it. -/
def Endpoint.connect (e : Endpoint) : Connection := { toEndpoint := e }

instance : Coe Endpoint Connection := ⟨Endpoint.connect⟩

namespace Connection

/-- Hands an arrival to a receive. A datagram longer than the buffer is cut. -/
def deliver (room : Nat) (a : Arrival) (c : Connection) : Connection × Completion :=
  match a with
  | .error e => (c, .received (.error e))
  | .ok d => ({ c with sender := d.sender }, .received (.ok (d.data.take room)))

def receive (room : Nat) (c : Connection) : Connection × List Completion :=
  if !c.isOpen then (c, [.received (.error (.system Errno.badDescriptor))])
  else match c.inbox with
    | [] => ({ c with waiting := c.waiting ++ [room] }, [])
    | a :: rest =>
      let (c, done) := deliver room a { c with inbox := rest }
      (c, [done])

/-- Gives the arrival to the oldest waiting receive; without one it waits. A closed socket drops
it. -/
def arrive (a : Arrival) (c : Connection) : Connection × List Completion :=
  match c.waiting with
  | [] => (if c.isOpen then { c with inbox := c.inbox ++ [a] } else c, [])
  | room :: rest =>
    let (c, done) := deliver room a { c with waiting := rest }
    (c, [done])

/-- Sends; `fault` is what the kernel answers. -/
def send (fault : Option ErrorCode) (c : Connection) : Connection × List Completion :=
  if !c.isOpen then (c, [.sent (some (.system Errno.badDescriptor))])
  else if fault.isNone ∧ c.holdSends then ({ c with held := c.held + 1 }, [])
  else (c, [.sent fault])

/-- Completes the oldest held send. -/
def release? (e : Option ErrorCode) (c : Connection) : Option (Connection × List Completion) :=
  if c.held = 0 then none else some ({ c with held := c.held - 1 }, [.sent e])

/-- Cancels the waiting receives, then the held sends, and drops what has arrived. -/
def close (c : Connection) : Connection × List Completion :=
  ({ c with isOpen := false, waiting := [], inbox := [], held := 0 },
    c.waiting.map (fun _ => .received (.error .canceled)) ++
      List.replicate c.held (.sent (some .canceled)))

end Connection

end RouterAdvert
