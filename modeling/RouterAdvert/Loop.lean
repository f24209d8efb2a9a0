/-! A system that works off a queue and sets alarms. Handling queued work takes no time; the clock
moves only when the queue is empty, and then straight to the next alarm. Times are in milliseconds.
-/
namespace RouterAdvert

class Reactor (σ : Type) where
  /-- Handles the oldest piece of queued work at the given time; nothing if none is queued. -/
  step? : Nat → σ → Option σ
  /-- The time at which the next alarm goes off. -/
  nextAlarm? : σ → Option Nat
  /-- Queues the handlers of all alarms set for that time. -/
  ring : Nat → σ → σ
  /-- A bound on the number of steps until the queue is empty. -/
  work : σ → Nat
  /-- A bound on how often alarms without delay can go off at one time. -/
  patience : σ → Nat

namespace Reactor

variable {σ : Type} [Reactor σ]

def steps (now : Nat) : Nat → σ → σ
  | 0, s => s
  | n + 1, s =>
    match step? now s with
    | none => s
    | some s => steps now n s

theorem steps_of_step?_eq_none {now : Nat} {s : σ} (h : step? now s = none) (n : Nat) :
    steps now n s = s := by
  cases n with
  | zero => rfl
  | succ n => simp [steps, h]

theorem steps_add (now m n : Nat) (s : σ) : steps now (m + n) s = steps now n (steps now m s) := by
  induction m generalizing s with
  | zero => simp [steps]
  | succ m ih =>
    rw [Nat.succ_add]
    cases h : step? now s with
    | none => simp [steps, h, steps_of_step?_eq_none h]
    | some s => simp [steps, h, ih]

/-- Handles queued work until there is none. -/
def drain (now : Nat) (s : σ) : σ := steps now (work s) s

/-- Runs from `now` up to and including `limit`. `rounds` is how many more times alarms may go off
without the clock moving on. -/
def runUntil (limit now rounds : Nat) (s : σ) : σ :=
  let s := drain now s
  match nextAlarm? s with
  | none => s
  | some t =>
    if limit < t then s
    else if now < t then runUntil limit t (patience s) (ring t s)
    else match rounds with
      | 0 => s
      | rounds + 1 => runUntil limit now rounds (ring t s)
termination_by (limit - now, rounds)

/-- Runs for some time from `now` on. -/
def runFor (duration now : Nat) (s : σ) : σ := runUntil (now + duration) now (patience s) s

end Reactor

end RouterAdvert
