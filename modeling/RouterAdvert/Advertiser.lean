import RouterAdvert.Advertiser.State

/-! The life of an advertiser. It dials until it has a connection, waiting for some time after each
failure; then it advertises at once, after every interval, and whenever a valid solicitation
arrives. One advertisement is under way at a time: a further one that becomes due meanwhile follows
when it has been sent. The first error that ends it, or a cancellation, is reported to the starter.
-/
namespace RouterAdvert.Advertiser

/-- The room for one datagram. -/
def receiveRoom : Nat := 8192

/-- An advertiser in the middle of an event, with what it has done so far. -/
structure Turn where
  state : Advertiser
  effects : List Effect := []

namespace Turn

def name (t : Turn) : Bytes := t.state.profile.link.name

def emit (e : Effect) (t : Turn) : Turn := { t with effects := t.effects ++ [e] }

def note (n : Notice) (t : Turn) : Turn := t.emit (.note n)

/-- Sets the alarm to go off after `delay`. -/
def arm (now delay : Nat) (p : Purpose) (t : Turn) : Turn :=
  let a := t.state
  let aborted := a.alarm.toList.map fun alarm => Event.alarm alarm.purpose true
  { t with state :=
      { a with alarm := some ⟨p, now + delay⟩, mailbox := a.mailbox ++ aborted } }.emit .armed

def disarm (t : Turn) : Turn :=
  let a := t.state
  let aborted := a.alarm.toList.map fun alarm => Event.alarm alarm.purpose true
  { t with state := { a with alarm := none, mailbox := a.mailbox ++ aborted } }

/-- Makes a call on the connection and posts what it completes. -/
def call (call : ConnectionCall) (fault : Option ErrorCode)
    (operate : Connection → Connection × List Completion) (t : Turn) : Turn :=
  match t.state.connection with
  | none => t
  | some c =>
    let (c, done) := operate c
    { t with state :=
        { t.state with
          connection := some c
          mailbox := t.state.mailbox ++ done.map Event.ofCompletion } }.emit (.call call fault)

def leave (code : ErrorCode) (t : Turn) : Turn :=
  match t.state.onExit with
  | none => t
  | some h => { t with state := { t.state with onExit := none } }.emit (.exit h code)

/-- Comes to the end: all that is pending is canceled, and the starter is told why. -/
def finish (code : ErrorCode) (t : Turn) : Turn :=
  if t.state.phase = .closed then t
  else
    { t with state := { t.state with phase := .closed } }.disarm
      |>.call .close none Connection.close
      |>.leave code

def receive (t : Turn) : Turn := t.call .receive none (Connection.receive receiveRoom)

def sendAdvert (conditions : Conditions) (t : Turn) : Turn :=
  if t.state.sending then { t with state := { t.state with sendPending := true } }
  else
    { t with state := { t.state with sending := true } }.call (.send t.state.profile.advert)
      conditions.send (Connection.send conditions.send)

/-- Begins to advertise on the connection. -/
def activate (conditions : Conditions) (c : Connection) (t : Turn) : Turn :=
  let t := t.call .filter conditions.filter fun c => (c, [])
  match conditions.filter with
  | some e => t.note (.filterFailed t.name e) |>.finish e
  | none =>
    let t := t.call .join conditions.join fun c => (c, [])
    match conditions.join with
    | some e => t.note (.joinFailed t.name e) |>.finish e
    | none =>
      { t with state := { t.state with phase := .active } }.note
          (.advertising t.state.profile.link c.source)
        |>.receive
        |>.sendAdvert conditions

def dial (now : Nat) (conditions : Conditions) (t : Turn) : Turn :=
  if t.state.canceled then t.finish .canceled
  else
    let a := t.state
    let t := { t with state := { a with phase := .connecting, dials := a.dials + 1 } }.emit .dial
    match conditions.dial with
    | .error e => t.note (.dialFailed t.name e) |>.arm now a.profile.backoff .retry
    | .ok e =>
      { t with state := { t.state with connection := some e.connect } }.note (.dialed t.name)
        |>.activate conditions e.connect

/-- Answers a datagram if it is a valid solicitation. -/
def solicit (conditions : Conditions) (data : Bytes) (t : Turn) : Turn :=
  let sender := (t.state.connection.map (·.sender)).getD .unspecified
  match Ndp.Solicitation.check data sender.isUnspecified with
  | .ok => t.note (.solicited t.name sender) |>.sendAdvert conditions
  | v => t.note (.solicitationIgnored t.name sender v)

/-- Errors that cost a single advertisement. -/
def isPassing (e : ErrorCode) : Bool :=
  e = .system Errno.noBufferSpace || e = .system Errno.wouldBlock

/-- What follows when an advertisement has left or was dropped. -/
def afterSend (now : Nat) (conditions : Conditions) (t : Turn) : Turn :=
  if t.state.sendPending then
    { t with state := { t.state with sendPending := false } }.sendAdvert conditions
  else t.arm now t.state.profile.interval .advertise

def sent (now : Nat) (conditions : Conditions) (e : Option ErrorCode) (t : Turn) : Turn :=
  let t := { t with state := { t.state with sending := false } }
  if t.state.phase = .closed then t
  else match e with
    | none => t.afterSend now conditions
    | some e =>
      if e = .canceled then t.finish e
      else if isPassing e then t.note (.advertDropped t.name e) |>.afterSend now conditions
      else t.note (.sendFailed t.name e) |>.finish e

def received (conditions : Conditions) (r : Except ErrorCode Bytes) (t : Turn) : Turn :=
  if t.state.phase = .closed then t
  else match r with
    | .ok data => t.solicit conditions data |>.receive
    | .error e =>
      if e = .canceled then t.finish e else t.note (.receiveFailed t.name e) |>.finish e

def alarmed (now : Nat) (conditions : Conditions) (p : Purpose) (aborted : Bool) (t : Turn) :
    Turn :=
  if t.state.phase = .closed then t
  else match p with
    | .retry =>
      if aborted || t.state.canceled then t.finish .canceled else t.dial now conditions
    | .advertise => if aborted then t else t.sendAdvert conditions

def started (now : Nat) (conditions : Conditions) (h : ExitHandler) (t : Turn) : Turn :=
  if t.state.phase = .idle then
    { t with state := { t.state with onExit := some h } }.dial now conditions
  else t

/-- A cancellation that comes before the start takes effect there. -/
def cancel (t : Turn) : Turn :=
  let t := { t with state := { t.state with canceled := true } }
  if t.state.phase = .idle then t else t.finish .canceled

def handle (now : Nat) (conditions : Conditions) (e : Event) (t : Turn) : Turn :=
  match e with
  | .start h => t.started now conditions h
  | .cancel => t.cancel
  | .alarm p aborted => t.alarmed now conditions p aborted
  | .received r => t.received conditions r
  | .sent e => t.sent now conditions e

end Turn

/-- Handles the oldest event; nothing if there is none. -/
def step? (now : Nat) (conditions : Conditions) (a : Advertiser) : Option Turn :=
  match a.mailbox with
  | [] => none
  | e :: rest => some (Turn.handle now conditions e { state := { a with mailbox := rest } })

def Event.weight : Event → Nat
  | .start _ => 5
  | .cancel => 1
  | .alarm _ true => 1
  | .alarm _ false => 5
  | .received (.ok _) => 5
  | .received (.error _) => 1
  | .sent _ => 2

def connectionWeight (c : Connection) : Nat := c.waiting.length + 5 * c.inbox.length + 2 * c.held

def work (a : Advertiser) : Nat :=
  a.mailbox.foldr (fun e n => e.weight + n) 0 + a.alarm.toList.length + a.sendPending.toNat +
    ((a.connection.map connectionWeight).getD 0)

end RouterAdvert.Advertiser
