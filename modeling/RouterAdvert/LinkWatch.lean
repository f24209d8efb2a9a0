import RouterAdvert.Netlink.Query

/-! The socket on which the kernel announces links, and what waits to be handled about it. -/
namespace RouterAdvert

namespace LinkWatch

inductive Event where
  | begin
  /-- A receive has ended: the length of what is in the buffer, or an error. -/
  | received (r : Except ErrorCode Nat)
  | shutdown

end LinkWatch

structure LinkWatch where
  isOpen : Bool := false
  /-- The number of waiting receives. -/
  waiting : Nat := 0
  /-- What has arrived with no receive waiting. -/
  inbox : List (Except ErrorCode Bytes) := []
  buffer : Bytes := List.replicate Netlink.Query.bufferSize 0
  /-- The number of the next request for links. -/
  sequence : UInt32 := 1
  stopped : Bool := false
  mailbox : List LinkWatch.Event := []

namespace LinkWatch

/-- Announcements about links. -/
def linkGroup : Nat := 1

def post (e : Event) (w : LinkWatch) : LinkWatch := { w with mailbox := w.mailbox ++ [e] }

def deliver (x : Except ErrorCode Bytes) (w : LinkWatch) : LinkWatch :=
  match x with
  | .error e => w.post (.received (.error e))
  | .ok d =>
    { w with buffer := Netlink.Query.overlay w.buffer d }.post
      (.received (.ok (min d.length Netlink.Query.bufferSize)))

def receive (w : LinkWatch) : LinkWatch :=
  if !w.isOpen then w.post (.received (.error (.system Errno.badDescriptor)))
  else match w.inbox with
    | [] => { w with waiting := w.waiting + 1 }
    | x :: rest => { w with inbox := rest }.deliver x

def arrive (x : Except ErrorCode Bytes) (w : LinkWatch) : LinkWatch :=
  if w.waiting = 0 then { w with inbox := w.inbox ++ [x] }
  else { w with waiting := w.waiting - 1 }.deliver x

/-- Cancels the waiting receives and drops what has arrived. -/
def close (w : LinkWatch) : LinkWatch :=
  { w with
    isOpen := false
    waiting := 0
    inbox := []
    mailbox := w.mailbox ++ List.replicate w.waiting (.received (.error .canceled)) }

/-- The most messages that a buffer holds. -/
def messageLimit : Nat := Netlink.Query.bufferSize / Netlink.Message.headerSize + 1

/-- The work that one message can make: a start, a cancellation, and a tap to close in the end. -/
def messageWeight : Nat := 7

def datagramWeight : Nat := 2 + messageWeight * messageLimit

def arrivalWeight {α : Type} : Except ErrorCode α → Nat
  | .ok _ => datagramWeight
  | .error e => if e = .canceled then 1 else datagramWeight + 2

def Event.weight : Event → Nat
  | .begin => datagramWeight + 2
  | .received r => arrivalWeight r
  | .shutdown => 1

def work (w : LinkWatch) : Nat :=
  w.mailbox.foldr (fun e n => e.weight + n) 0 + w.inbox.foldr (fun x n => arrivalWeight x + n) 0 +
    w.waiting

end LinkWatch

end RouterAdvert
