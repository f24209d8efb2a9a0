import RouterAdvert.Advertiser.Profile
import RouterAdvert.Connection
import RouterAdvert.Journal.Entry
import RouterAdvert.Journal.Notice

/-! The state of an advertiser, what can happen to it, and what it does in return. -/
namespace RouterAdvert

/-- The life of an advertiser, in order. -/
inductive Phase where
  | idle
  | connecting
  | active
  | closed
  deriving DecidableEq, Repr

namespace Phase

def rank : Phase → Nat
  | idle => 0
  | connecting => 1
  | active => 2
  | closed => 3

end Phase

namespace Advertiser

/-- What an alarm is set for. -/
inductive Purpose where
  | retry
  | advertise
  deriving DecidableEq, Repr

structure Alarm where
  purpose : Purpose
  expiry : Nat
  deriving DecidableEq, Repr

/-- What an advertiser has to handle. An alarm that is set again or taken back is reported as
aborted. -/
inductive Event where
  | start (h : ExitHandler)
  | cancel
  | alarm (p : Purpose) (aborted : Bool)
  | received (r : Except ErrorCode Bytes)
  | sent (e : Option ErrorCode)

namespace Event

def ofCompletion : Completion → Event
  | .received r => received r
  | .sent e => sent e

end Event

/-- What an advertiser does while it handles an event. -/
inductive Effect where
  | note (n : Notice)
  /-- One attempt to dial; the outcome is that of the conditions at the time. -/
  | dial
  | call (c : ConnectionCall) (fault : Option ErrorCode)
  /-- The alarm was set. -/
  | armed
  | exit (h : ExitHandler) (code : ErrorCode)

/-- What the world around an advertiser answers to its calls at one moment. -/
structure Conditions where
  dial : Except ErrorCode Endpoint
  filter : Option ErrorCode := none
  join : Option ErrorCode := none
  send : Option ErrorCode := none

end Advertiser

/-- An advertiser for one interface. Its events wait in the mailbox, oldest first. -/
structure Advertiser where
  profile : Profile
  phase : Phase := .idle
  canceled : Bool := false
  /-- An advertisement is on its way. -/
  sending : Bool := false
  /-- Another one is wanted as soon as the first has been sent. -/
  sendPending : Bool := false
  dials : Nat := 0
  onExit : Option ExitHandler := none
  alarm : Option Advertiser.Alarm := none
  connection : Option Connection := none
  mailbox : List Advertiser.Event := []

namespace Advertiser

def post (e : Event) (a : Advertiser) : Advertiser := { a with mailbox := a.mailbox ++ [e] }

def start (h : ExitHandler) (a : Advertiser) : Advertiser := a.post (.start h)

def cancel (a : Advertiser) : Advertiser := a.post .cancel

/-- The alarm goes off. -/
def ring (a : Advertiser) : Advertiser :=
  match a.alarm with
  | none => a
  | some alarm => { a with alarm := none }.post (.alarm alarm.purpose false)

/-- Something arrives at the connection; nothing if there is none. -/
def arrive? (x : Arrival) (a : Advertiser) : Option Advertiser :=
  a.connection.map fun c =>
    let (c, done) := c.arrive x
    { a with connection := some c, mailbox := a.mailbox ++ done.map .ofCompletion }

/-- Something arrives for a receive that waits; nothing if none does. -/
def inject? (x : Arrival) (a : Advertiser) : Option Advertiser :=
  if a.connection.any fun c => !c.waiting.isEmpty then a.arrive? x else none

/-- Completes a held send. -/
def release? (e : Option ErrorCode) (a : Advertiser) : Option Advertiser := do
  let c ← a.connection
  let (c, done) ← c.release? e
  return { a with connection := some c, mailbox := a.mailbox ++ done.map .ofCompletion }

end Advertiser

end RouterAdvert
