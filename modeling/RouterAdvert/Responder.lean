import RouterAdvert.Loop
import RouterAdvert.Responder.Watching

/-! The responder at work: actors take turns in the order of the schedule, and alarms go off in the
order in which they were set. -/
namespace RouterAdvert.Responder

variable {σ : Type} [Host σ]

/-- Carries out what tap `id` does. -/
def perform (now : Nat) (id : TapId) (a : Advertiser) (r : Responder σ) (e : Advertiser.Effect) :
    Responder σ :=
  let (journal, host) := e.perform ⟨now, some id⟩ a (r.journal, r.host)
  let r := { r with journal := journal, host := host }
  match e with
  | .armed => { r with armed := r.armed.filter (· ≠ id) ++ [id] }
  | .exit .deregister code => r.deregister now id a.profile.link.name code
  | _ => r

/-- Lets a tap handle its oldest event. -/
def stepTap (now : Nat) (id : TapId) (r : Responder σ) : Responder σ :=
  match r.taps.get? id with
  | none => r
  | some t =>
    match t.advertiser.step? now (Medium.conditions t.link r.host) with
    | none => r
    | some turn =>
      turn.effects.foldl (perform now id turn.state)
        (r.setTap id { t with advertiser := turn.state })

/-- Lets the watch handle its oldest event. -/
def stepWatch (now : Nat) (r : Responder σ) : Responder σ :=
  match r.watch.mailbox with
  | [] => r
  | e :: rest => { r with watch := { r.watch with mailbox := rest } }.handleWatch now e

/-- The next turn; nothing if it is nobody's, or if the program has ended. -/
def step? (now : Nat) (r : Responder σ) : Option (Responder σ) :=
  if r.halt.isSome then none
  else match r.schedule with
    | [] => none
    | actor :: rest =>
      let r := { r with schedule := rest }
      match actor with
      | .watch => some (r.stepWatch now)
      | .tap id => some (r.stepTap now id)

def nextAlarm? (r : Responder σ) : Option Nat :=
  if r.halt.isSome then none
  else (r.taps.values.filterMap fun t => t.advertiser.alarm.map (·.expiry)).min?

def isDue (time : Nat) (id : TapId) (r : Responder σ) : Bool :=
  ((r.taps.get? id).bind fun t => t.advertiser.alarm).any (·.expiry ≤ time)

/-- All alarms that are due go off. -/
def ring (time : Nat) (r : Responder σ) : Responder σ :=
  (r.armed.filter (r.isDue time ·)).foldl (fun r id => r.modifyTap id .ring) r

def work (r : Responder σ) : Nat :=
  r.taps.values.foldr (fun t n => t.advertiser.work + n) 0 + r.watch.work + r.registry.size

/-- After the failing dials, alarms without delay can go off twice before all wait for held sends.
-/
instance : Reactor (Responder σ) where
  step? := step?
  nextAlarm? := nextAlarm?
  ring := ring
  work := work
  patience r := Medium.failures r.host + 2 * r.taps.size + 2

/-- The tap that has connection `number`. -/
def holder? (number : Nat) (r : Responder σ) : Option TapId :=
  (r.taps.rows.find? fun row => row.2.advertiser.connection.any (·.number = number)).map (·.1)

end RouterAdvert.Responder
