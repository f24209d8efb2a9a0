import RouterAdvert.CommandLine
import RouterAdvert.Kernel
import RouterAdvert.Responder

/-! The program: it reads its command line, watches for links on a kernel, and serves them until it
is told to stop or nothing more can happen before the end of the observation. -/
namespace RouterAdvert

namespace Daemon

/-- What can happen to the program while it runs. -/
inductive Happening where
  /-- A link appears or changes; the kernel announces it unless this is quiet. -/
  | link (l : Link) (quiet : Bool)
  | unlink (index : Int32)
  /-- Something arrives on the socket for announcements. -/
  | announcement (x : Except ErrorCode Bytes)
  | address (a : InterfaceAddress)
  | clearAddresses
  | route (r : Route)
  | clearRoutes
  | fault (c : KernelCall) (errno : Int32)
  /-- Something arrives at the newest open socket on an interface. -/
  | arrival (index : Int32) (x : Arrival)
  | signal (n : Nat)

/-- What is seen of a run. There is no status if the program was still running at the end of the
observation. -/
structure Outcome where
  status : Option Nat
  output : Bytes := []
  trace : List Bytes

end Daemon

structure Daemon where
  responder : Responder Kernel
  now : Nat := 0
  /-- The number of rows in the journal when the first signal was taken. -/
  signaledAt : Option Nat := none

namespace Daemon

/-- The signals that end the program: interrupt and terminate. -/
def endingSignals : List Nat := [2, 15]

def setKernel (k : Kernel) (d : Daemon) : Daemon :=
  { d with responder := { d.responder with host := k } }

def kernel (d : Daemon) : Kernel := d.responder.host

/-- The tap with the newest open socket on an interface. -/
def newest? (index : Int32) (r : Responder Kernel) : Option TapId :=
  let numbers := r.taps.values.filterMap fun t =>
    (t.advertiser.connection.filter fun c =>
      c.isOpen && c.source.scope = LinkLocal.scope index).map (·.number)
  numbers.max?.bind r.holder?

def announce (type : UInt16) (l : Link) (d : Daemon) : Daemon :=
  { d with responder := d.responder.arrive (.ok (Netlink.LinkMessage.encode type 0 l)) }

def happen (h : Happening) (d : Daemon) : Daemon :=
  match h with
  | .link l quiet =>
    let d := d.setKernel (d.kernel.addLink l)
    if quiet then d else d.announce Netlink.Message.newLink l
  | .unlink i =>
    match d.kernel.links.get? i with
    | none => d
    | some l =>
      d.setKernel { d.kernel with links := d.kernel.links.erase i }
        |>.announce Netlink.Message.delLink l
  | .announcement x => { d with responder := d.responder.arrive x }
  | .address a => d.setKernel { d.kernel with addresses := d.kernel.addresses ++ [a] }
  | .clearAddresses => d.setKernel { d.kernel with addresses := [] }
  | .route r => d.setKernel { d.kernel with routes := d.kernel.routes ++ [r] }
  | .clearRoutes => d.setKernel { d.kernel with routes := [] }
  | .fault c errno => d.setKernel { d.kernel with faults := d.kernel.faults.insert c errno }
  | .arrival i x =>
    match newest? i d.responder with
    | none => d
    | some id =>
      { d with responder := d.responder.modifyTap id fun a => (a.arrive? x).getD a }
  | .signal n =>
    if n ∈ endingSignals ∧ d.signaledAt = none then
      { d with
        signaledAt := some d.responder.journal.rows.length
        responder := d.responder.note ⟨d.now, none⟩ (.signaled n) |>.shutdown }
    else d

/-- Whether there is nothing left to wait for: no work, no alarm, and no pending receive or send. -/
def isQuiet (r : Responder Kernel) : Bool :=
  r.schedule.isEmpty && r.nextAlarm?.isNone && r.watch.waiting = 0 &&
    r.taps.values.all fun t => t.advertiser.connection.all fun c => c.waiting.isEmpty && c.held = 0

/-- Runs until `limit`. -/
def advance (limit : Nat) (d : Daemon) : Daemon :=
  { d with responder := Reactor.runFor (limit - d.now) d.now d.responder, now := max d.now limit }

/-- Comes to an end by itself if a signal was taken and nothing is left to wait for. -/
def conclude (d : Daemon) : Daemon :=
  if d.responder.halt.isNone && d.signaledAt.isSome && isQuiet d.responder then
    let r := d.responder.note ⟨d.now, none⟩ .exiting
    { d with responder := { r with halt := some (.exited 0) } }
  else d

/-- Lets everything happen in turn, and observes until `horizon`. Alarms go off before what happens
at the same time. -/
def observe (horizon : Nat) (d : Daemon) : List (Nat × Happening) → Daemon
  | [] => d.advance horizon
  | (time, h) :: rest =>
    if d.responder.halt.isSome then d
    else if horizon < time then d.advance horizon
    else
      let d := d.advance time
      if d.responder.halt.isSome then d
      else
        let d := d.happen h
        observe horizon ((d.advance d.now).conclude) rest

/-- The lines of a journal with the times at which they were written. -/
def timedLines (rows : List (Stamp × Entry)) : List Bytes :=
  rows.filterMap fun (stamp, e) =>
    e.text?.map fun line => Bytes.text ["@", Bytes.decimal stamp.time, " ", line]

/-- The trace of a run. Taps are closed in no particular order, so that from the signal on the lines
are sorted. -/
def trace (d : Daemon) : List Bytes :=
  let j := d.responder.journal
  match d.signaledAt with
  | none => timedLines (j.since 0)
  | some n =>
    let rows := j.since 0
    timedLines (rows.take n) ++ (timedLines (rows.drop n)).mergeSort Bytes.le

def status (d : Daemon) : Option Nat :=
  match d.responder.halt with
  | some (.exited n) => some n
  | _ => none

/-- The program with these settings, about to run on a kernel. -/
def start (s : Settings) (p : Pattern) (k : Kernel) : Daemon :=
  let stamp : Stamp := ⟨0, none⟩
  let journal := ({} : Journal).useSystem stamp s.useSyslog
  let journal := if s.verbose then { journal with threshold := .debug } else journal
  let r : Responder Kernel :=
    { host := k, timing := s.timing, selects := p.search, journal := journal }
  match r.startWatch 0 with
  | (r, false) => { responder := r.giveUp stamp .cannotWatch }
  | (r, true) => { responder := r.note stamp (.managing s.regex) }

def complaint (e : CommandLine.Refusal) : Bytes := Bytes.text ["tapra6: ", e.message]

/-- Runs the program with these arguments. -/
def run (arguments : List Bytes) (k : Kernel) (happenings : List (Nat × Happening))
    (horizon : Nat) : Outcome :=
  match CommandLine.apply {} arguments with
  | (_, .error e) =>
    { status := some 1
      output := CommandLine.usage
      trace := timedLines [(⟨0, none⟩, .complaint (complaint e))] }
  | (_, .ok .help) => { status := some 0, output := CommandLine.usage, trace := [] }
  | (_, .ok .version) => { status := some 0, output := CommandLine.version, trace := [] }
  | (s, .ok .run) =>
    match Pattern.compile? s.regex with
    | none => { status := none, trace := [] }
    | some p =>
      let d := observe horizon (start s p k) happenings
      { status := d.status, trace := d.trace }

end Daemon

end RouterAdvert
