import RouterAdvert.Proofs.Advertiser.Pending

/-! Advertisements in flight: those that were sent and whose completion has not been handled. There
is one while the advertiser takes itself to be sending, and none otherwise. -/
namespace RouterAdvert

namespace ConnectionCall

def isSend : ConnectionCall → Bool
  | send _ => true
  | _ => false

end ConnectionCall

namespace Advertiser

theorem endsIn_deliver (room : Nat) (x : Arrival) (c : Connection) :
    (c.deliver room x).1.held = c.held ∧ endsIn Event.isSent [(c.deliver room x).2] = 0 := by
  cases x <;> exact ⟨rfl, rfl⟩

theorem held_receive (room : Nat) (c : Connection) :
    (c.receive room).1.held + endsIn Event.isSent (c.receive room).2 = c.held := by
  unfold Connection.receive
  split
  · rfl
  · split
    · rfl
    · rename_i x rest _
      obtain ⟨hh, hs⟩ := endsIn_deliver room x { c with inbox := rest }
      exact (congrArg (_ + ·) hs).trans hh

theorem held_arrive (x : Arrival) (c : Connection) :
    (c.arrive x).1.held + endsIn Event.isSent (c.arrive x).2 = c.held := by
  unfold Connection.arrive
  split
  · split <;> rfl
  · rename_i room rest _
    obtain ⟨hh, hs⟩ := endsIn_deliver room x { c with waiting := rest }
    exact (congrArg (_ + ·) hs).trans hh

theorem held_send (fault : Option ErrorCode) (c : Connection) :
    (c.send fault).1.held + endsIn Event.isSent (c.send fault).2 = c.held + 1 := by
  unfold Connection.send
  split
  · rfl
  · split <;> rfl

theorem held_release (e : Option ErrorCode) (c : Connection) :
    ((c.release? e).getD (c, [])).1.held +
      endsIn Event.isSent ((c.release? e).getD (c, [])).2 = c.held := by
  unfold Connection.release?
  split
  · rfl
  · change c.held - 1 + 1 = c.held
    omega

theorem held_close (c : Connection) :
    c.close.1.held + endsIn Event.isSent c.close.2 = c.held := by
  have hr : endsIn Event.isSent (c.waiting.map fun _ => .received (.error .canceled)) = 0 :=
    List.countP_eq_zero.mpr (by simp [Event.ofCompletion, Event.isSent])
  have hs : endsIn Event.isSent (List.replicate c.held (.sent (some .canceled))) = c.held := by
    simp [endsIn, List.countP_replicate, Event.ofCompletion, Event.isSent]
  simp only [endsIn] at hr hs
  simp only [Connection.close, endsIn, List.map_append, List.countP_append, hr, hs, Nat.zero_add]

/-- Advertisements on their way. -/
def sends : Operation where
  begins := ConnectionCall.isSend
  ends := Event.isSent
  held := (·.held)
  ends_start _ := rfl
  ends_cancel := rfl
  ends_alarm _ _ := rfl
  begins_filter := rfl
  begins_join := rfl
  begins_close := rfl
  held_connect _ := rfl
  held_receive := held_receive
  held_send fault _ := held_send fault
  held_arrive := held_arrive
  held_release := held_release
  held_close := held_close

/-- The sends whose completion has not been handled: held, or reported in the mailbox. -/
def inFlight (a : Advertiser) : Nat :=
  a.mailbox.countP (·.isSent) + a.connection.elim 0 (·.held)

namespace Effect

def isSend : Effect → Bool
  | call (.send _) _ => true
  | _ => false

end Effect

theorem countP_isSend (acts : List Effect) : acts.countP (·.isSend) = sends.begun acts := by
  have hf : Effect.isSend = Effect.calls sends.begins := by
    funext x
    cases x with
    | call c _ => cases c <;> rfl
    | note | dial | armed | exit => rfl
  exact congrArg (acts.countP ·) hf

variable {a : Advertiser} {e : Event}

theorem inFlight_facing (e : Event) (a : Advertiser) :
    (a.facing e).inFlight = a.inFlight + e.isSent.toNat := sends.pending_facing e a

theorem sends_farewell (code : ErrorCode) (a : Advertiser) :
    (a.farewell code).countP (·.isSend) = 0 := by
  rw [countP_isSend]
  exact sends.begun_farewell code a

theorem sends_wanted (k : Conditions) (a : Advertiser) :
    (a.wanted k).countP (·.isSend) = (!a.sending).toNat := by
  unfold wanted
  split <;> rename_i hs <;> simp [hs, Effect.isSend]

theorem sending_want (k : Conditions) (a : Advertiser) : (a.want k).sending = true := by
  unfold want
  split
  · assumption
  · rfl

variable {now : Nat} {k : Conditions} {b : Advertiser} {acts : List Effect}

/-- What is added to the flight is what was sent. -/
theorem Outcome.inFlight (o : Outcome now k a e b acts) (h : Sound (a.facing e)) :
    b.inFlight = a.inFlight + acts.countP (·.isSend) := by
  rw [countP_isSend]
  exact sends.pending_outcome o h

theorem sending_want_toNat (k : Conditions) (a : Advertiser) :
    (a.want k).sending.toNat = a.sending.toNat + (a.wanted k).countP (·.isSend) := by
  rw [sending_want, sends_wanted]
  cases a.sending <;> rfl

/-- An advertiser takes itself to be sending from the moment when it sends something. -/
theorem Outcome.sending (o : Outcome now k a e b acts) (h : Sound (a.facing e)) :
    b.sending.toNat = (a.accept e).sending.toNat + acts.countP (·.isSend) := by
  cases o with
  | rests | fails | waits | ignores => rfl
  | ends => rw [sends_farewell]; rfl
  | unfiltered => rw [List.countP_append, sends_farewell]; rfl
  | unjoined => rw [List.countP_append, sends_farewell]; rfl
  | opens hd =>
    rw [sending_want, (h.accept_of_dials hd).2.2.2.1]
    rfl
  | ticks => exact sending_want_toNat k a
  | answers =>
    rw [List.countP_append]
    exact sending_want_toNat k a
  | follows => rw [sending_want]; rfl

/-- Nothing that happens around an advertiser sends anything or loses a completion. -/
theorem Stir.inFlight (s : Stir now a b) : b.inFlight = a.inFlight := sends.pending_stir s

namespace Life

variable {p : Profile} {l l' : Life}

/-- The advertisements that were sent. -/
def issued (l : Life) : Nat := l.acts.countP (·.isSend)

/-- The ends of sends that were handled. -/
def completed (l : Life) : Nat := l.deeds.countP (·.event.isSent)

/-- What was sent is in flight until its end is handled, and the advertiser knows of it. -/
structure Balanced (l : Life) : Prop where
  issued : l.issued = l.completed + l.advertiser.inFlight
  sending : l.advertiser.inFlight = l.advertiser.sending.toNat

theorem Step.sending (s : Step l l') (h : Sound l.advertiser)
    (hn : l.advertiser.inFlight = l.advertiser.sending.toNat) :
    l'.advertiser.inFlight = l'.advertiser.sending.toNat := by
  cases s with
  | pass d => exact hn
  | stir hs => exact (hs.inFlight.trans hn).trans (congrArg Bool.toNat hs.sending).symm
  | @handle k e rest t hm hk =>
    obtain ⟨hs, o⟩ := outcome_of_step? h hm hk
    rw [eq_facing hm, inFlight_facing] at hn
    change t.state.inFlight = t.state.sending.toNat
    rw [o.inFlight hs, o.sending hs]
    refine congrArg (· + _) ?_
    change _ = (!e.isSent && l.advertiser.sending).toNat
    cases hx : e.isSent <;> rw [hx] at hn
    · exact hn
    · -- The completion is that of the one advertisement in flight.
      have hle := Bool.toNat_le l.advertiser.sending
      change _ + 1 = l.advertiser.sending.toNat at hn
      change _ = 0
      omega

theorem Reachable.balanced (h : Reachable p l) : l.Balanced := by
  constructor
  case issued =>
    rw [Life.issued, countP_isSend]
    exact sends.begun_eq h
  case sending =>
    induction h with
    | new now => rfl
    | step h s ih => exact s.sending h.sound ih

end Life

end Advertiser

end RouterAdvert
