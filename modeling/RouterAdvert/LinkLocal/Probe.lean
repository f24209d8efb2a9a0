import RouterAdvert.LinkLocal

/-! A single link-local connection, operated by hand: each call leaves its lines at once, and what
it completes is reported when the queue is worked off. -/
namespace RouterAdvert.LinkLocal

structure Probe where
  faults : Faults
  connection : Connection
  queue : List Completion := []

namespace Probe

def useLine (number : Nat) (u : SocketUse) : Bytes :=
  Bytes.text ["icmp", Bytes.decimal number, " ", u.text]

def lines (call : ConnectionCall) (p : Probe) : List Bytes :=
  (use? p.faults p.connection call).toList.map (useLine p.connection.number)

/-- Makes a call that ends at once. -/
def configure (call : ConnectionCall) (p : Probe) : List Bytes × Option ErrorCode :=
  let fault := match call with
    | .filter => p.faults.error? .filter
    | .join => p.faults.error? .joinGroup
    | _ => none
  (p.lines call, fault)

def complete (r : Connection × List Completion) (p : Probe) : Probe :=
  { p with connection := r.1, queue := p.queue ++ r.2 }

def receive (room : Nat) (p : Probe) : Probe := p.complete (p.connection.receive room)

def arrive (x : Arrival) (p : Probe) : Probe := p.complete (p.connection.arrive x)

/-- Nothing is sent on a closed socket. -/
def send (data : Bytes) (p : Probe) : Probe × List Bytes :=
  (p.complete (p.connection.send (p.faults.error? .icmpSend)),
    if p.connection.isOpen then p.lines (.send data) else [])

def close (p : Probe) : Probe × List Bytes := (p.complete p.connection.close, p.lines .close)

def codeText (e : Option ErrorCode) : Bytes := Bytes.signed ((e.map (·.value.toInt)).getD 0)

/-- The report on a completion: the error number, and for receives the data and the sender of the
last datagram received by then. -/
def completionLine (sender : Address) : Completion → Bytes
  | .received (.ok data) => Bytes.text ["received 0 ", Bytes.hex data, " ", sender.text]
  | .received (.error e) => Bytes.text ["received ", codeText (some e), "  ", sender.text]
  | .sent e => Bytes.text ["sent ", codeText e]

/-- Works off the queue. -/
def run (p : Probe) : Probe × List Bytes :=
  ({ p with queue := [] }, p.queue.map (completionLine p.connection.sender))

end Probe

end RouterAdvert.LinkLocal
