import RouterAdvert.Loop
import RouterAdvert.Medium

/-! A single advertiser on its own. Each start has a handler with a number of its own. -/
namespace RouterAdvert

structure Solo (σ : Type) where
  advertiser : Advertiser
  medium : σ
  journal : Journal := {}
  starts : Nat := 0

namespace Solo

variable {σ : Type} [Medium σ]

def start (s : Solo σ) : Solo σ :=
  { s with advertiser := s.advertiser.start (.numbered s.starts), starts := s.starts + 1 }

def cancel (s : Solo σ) : Solo σ := { s with advertiser := s.advertiser.cancel }

/-- Handles the oldest event. -/
def step? (now : Nat) (s : Solo σ) : Option (Solo σ) :=
  (s.advertiser.step? now (Medium.conditions s.advertiser.profile.link s.medium)).map fun t =>
    let (journal, medium) :=
      t.effects.foldl (fun js e => e.perform ⟨now, none⟩ t.state js) (s.journal, s.medium)
    { s with advertiser := t.state, journal := journal, medium := medium }

/-- After the failing dials, alarms without delay can go off twice before all wait for a held send.
-/
instance : Reactor (Solo σ) where
  step? := step?
  nextAlarm? s := s.advertiser.alarm.map (·.expiry)
  ring _ s := { s with advertiser := s.advertiser.ring }
  work s := s.advertiser.work
  patience s := Medium.failures s.medium + 2

/-- Whether connection `number`, or the last one if none is given, is the advertiser's. -/
def hasConnection (number : Option Nat) (s : Solo σ) : Bool :=
  match s.advertiser.connection with
  | none => false
  | some c => number.getD c.number = c.number

/-- Something arrives for a waiting receive; false if none waits. -/
def inject (x : Arrival) (s : Solo σ) : Solo σ × Bool :=
  match s.advertiser.inject? x with
  | none => (s, false)
  | some a => ({ s with advertiser := a }, true)

/-- Completes a held send; false if there is none. -/
def release (e : Option ErrorCode) (s : Solo σ) : Solo σ × Bool :=
  match s.advertiser.release? e with
  | none => (s, false)
  | some a => ({ s with advertiser := a }, true)

end Solo

end RouterAdvert
