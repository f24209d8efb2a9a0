import RouterAdvert.Host
import RouterAdvert.LinkWatch
import RouterAdvert.Table
import RouterAdvert.Tap

/-! The responder: all taps that were ever started, the registry of those in service, the watch for
links, and the order in which they come to their turns. -/
namespace RouterAdvert

/-- Who can have something to handle. -/
inductive Actor where
  | watch
  | tap (id : TapId)
  deriving DecidableEq, Repr

/-- Why nothing goes on: the program has ended, it could not go on, or the watch has not come back
from a datagram. -/
inductive Halt where
  | exited (status : Nat)
  | failed
  /-- The walk over a datagram goes on for ever, or outside the buffer. What follows is not known.
  -/
  | adrift
  deriving DecidableEq, Repr

structure Responder (σ : Type) where
  host : σ
  timing : Timing
  /-- The names of interfaces to serve. -/
  selects : Bytes → Bool
  journal : Journal := {}
  taps : Table TapId Tap := .empty
  /-- The tap in service for each interface. -/
  registry : Table Int32 TapId := .empty
  watch : LinkWatch := {}
  /-- Whose turn it is: one place for each event in a mailbox, in the order in which they came. -/
  schedule : List Actor := []
  /-- The taps in the order in which they last set their alarms. -/
  armed : List TapId := []
  halt : Option Halt := none

namespace Responder

variable {σ : Type}

/-- Gives an actor as many places in the schedule as events wait for it. -/
def enroll (a : Actor) (events : Nat) (r : Responder σ) : Responder σ :=
  { r with schedule := r.schedule ++ List.replicate (events - r.schedule.count a) a }

theorem count_enroll_self (a : Actor) (n : Nat) (r : Responder σ) :
    (r.enroll a n).schedule.count a = max n (r.schedule.count a) := by
  simp only [enroll, List.count_append, List.count_replicate_self]
  omega

theorem count_enroll_of_ne {a b : Actor} (h : b ≠ a) (n : Nat) (r : Responder σ) :
    (r.enroll a n).schedule.count b = r.schedule.count b := by
  simp [enroll, List.count_append, List.count_replicate, Ne.symm h]

def setTap (id : TapId) (t : Tap) (r : Responder σ) : Responder σ :=
  { r with taps := r.taps.insert id t }.enroll (.tap id) t.advertiser.mailbox.length

def modifyTap (id : TapId) (f : Advertiser → Advertiser) (r : Responder σ) : Responder σ :=
  match r.taps.get? id with
  | none => r
  | some t => r.setTap id { t with advertiser := f t.advertiser }

def setWatch (w : LinkWatch) (r : Responder σ) : Responder σ :=
  { r with watch := w }.enroll .watch w.mailbox.length

def record (stamp : Stamp) (e : Entry) (r : Responder σ) : Responder σ :=
  { r with journal := r.journal.record stamp e }

def note (stamp : Stamp) (n : Notice) (r : Responder σ) : Responder σ :=
  { r with journal := r.journal.note stamp n }

/-- Takes over what was seen of the host and what became of it. -/
def observe {α : Type} (stamp : Stamp) (x : Report σ α) (r : Responder σ) : Responder σ :=
  { r with host := x.after, journal := r.journal.recordAll stamp x.entries }

/-- Ends the program with a last message, whatever the threshold. -/
def giveUp (stamp : Stamp) (n : Notice) (r : Responder σ) : Responder σ :=
  { r with journal := r.journal.write stamp .crit n.text, halt := some (.exited 1) }

end Responder

end RouterAdvert
