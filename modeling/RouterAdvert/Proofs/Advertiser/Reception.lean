import RouterAdvert.Proofs.Advertiser.Answering

/-! One of each. An advertiser has one connection at most, one advertisement in flight at most, and,
while it is active, exactly one receive that waits or whose end has not been handled. So a buffer is
never handed to a receive while another one uses it, or while something in it has not been read. -/
namespace RouterAdvert

namespace ConnectionCall

def isReceive : ConnectionCall → Bool
  | receive => true
  | _ => false

end ConnectionCall

namespace Advertiser

namespace Event

def isReceived : Event → Bool
  | received _ => true
  | _ => false

end Event

theorem waiting_deliver (room : Nat) (x : Arrival) (c : Connection) :
    (c.deliver room x).1.waiting = c.waiting ∧
      endsIn Event.isReceived [(c.deliver room x).2] = 1 := by
  cases x <;> exact ⟨rfl, rfl⟩

theorem waiting_receive (room : Nat) (c : Connection) :
    (c.receive room).1.waiting.length + endsIn Event.isReceived (c.receive room).2 =
      c.waiting.length + 1 := by
  unfold Connection.receive
  split
  · rfl
  · split
    · exact List.length_append
    · rename_i x rest _
      obtain ⟨hw, hr⟩ := waiting_deliver room x { c with inbox := rest }
      simp only [hw, hr]

theorem waiting_send (fault : Option ErrorCode) (c : Connection) :
    (c.send fault).1.waiting.length + endsIn Event.isReceived (c.send fault).2 =
      c.waiting.length := by
  unfold Connection.send
  split
  · rfl
  · split <;> rfl

theorem waiting_arrive (x : Arrival) (c : Connection) :
    (c.arrive x).1.waiting.length + endsIn Event.isReceived (c.arrive x).2 =
      c.waiting.length := by
  unfold Connection.arrive
  split
  · rename_i hn
    split <;> simp [endsIn, hn]
  · rename_i room rest hr
    obtain ⟨hw, hone⟩ := waiting_deliver room x { c with waiting := rest }
    simp only [hw, hone, hr, List.length_cons]

theorem waiting_release (e : Option ErrorCode) (c : Connection) :
    ((c.release? e).getD (c, [])).1.waiting.length +
      endsIn Event.isReceived ((c.release? e).getD (c, [])).2 = c.waiting.length := by
  unfold Connection.release?
  split <;> rfl

theorem waiting_close (c : Connection) :
    c.close.1.waiting.length + endsIn Event.isReceived c.close.2 = c.waiting.length := by
  have hr : ((c.waiting.map fun _ => Completion.received (.error .canceled)).map
      Event.ofCompletion).countP Event.isReceived = c.waiting.length := by
    rw [List.countP_eq_length.mpr (by simp [Event.ofCompletion, Event.isReceived])]
    simp
  have hs : ((List.replicate c.held (Completion.sent (some .canceled))).map
      Event.ofCompletion).countP Event.isReceived = 0 :=
    List.countP_eq_zero.mpr (by simp [Event.ofCompletion, Event.isReceived])
  simp only [Connection.close, endsIn, List.map_append, List.countP_append, hr, hs,
    List.length_nil, Nat.zero_add, Nat.add_zero]

/-- Receives for datagrams. -/
def receives : Operation where
  begins := ConnectionCall.isReceive
  ends := Event.isReceived
  held c := c.waiting.length
  ends_start _ := rfl
  ends_cancel := rfl
  ends_alarm _ _ := rfl
  begins_filter := rfl
  begins_join := rfl
  begins_close := rfl
  held_connect _ := rfl
  held_receive := waiting_receive
  held_send fault _ := waiting_send fault
  held_arrive := waiting_arrive
  held_release := waiting_release
  held_close := waiting_close

/-- The receives whose end has not been handled: waiting, or reported in the mailbox. -/
def receiving (a : Advertiser) : Nat :=
  a.mailbox.countP (·.isReceived) + a.connection.elim 0 (·.waiting.length)

theorem receiving_facing (e : Event) (a : Advertiser) :
    (a.facing e).receiving = a.receiving + e.isReceived.toNat := receives.pending_facing e a

section Outcomes

variable {now : Nat} {k : Conditions} {a b : Advertiser} {e : Event} {acts : List Effect}

theorem receives_wanted (k : Conditions) (a : Advertiser) : receives.begun (a.wanted k) = 0 := by
  unfold wanted
  split <;> rfl

/-- An advertiser that dials is not active yet, and the event is not the end of a receive. -/
theorem Dials.not_active (hd : a.Dials e) : a.phase ≠ .active ∧ e.isReceived = false := by
  rcases hd with ⟨⟨x, rfl⟩, hi, -⟩ | ⟨rfl, hc⟩
  · exact ⟨by simp [hi], rfl⟩
  · exact ⟨by simp [hc], rfl⟩

theorem Rests.isReceived (h : a.Rests e) (hp : a.phase ≠ .closed) : e.isReceived = false := by
  cases e with
  | received r => exact absurd h hp
  | start | cancel | alarm | sent => rfl

/-- Whether there is a receive in some phase. -/
def listens (p : Phase) : Nat := (decide (p = .active)).toNat

/-- A receive is begun when an advertiser becomes active, and whenever the last one has ended and it
stays active. -/
theorem Outcome.receives (o : Outcome now k a e b acts) (hb : b.phase ≠ .closed) :
    Advertiser.receives.begun acts + listens a.phase = listens b.phase + e.isReceived.toNat := by
  cases o with
  | rests hr =>
    rw [hr.isReceived hb]
    exact Nat.add_comm _ _
  | ends | unfiltered | unjoined => exact absurd rfl hb
  | fails hd =>
    obtain ⟨hp, he⟩ := hd.not_active
    simp [listens, hp, he]
  | opens hd =>
    obtain ⟨hp, he⟩ := hd.not_active
    rw [phase_want, he, listens, decide_eq_false hp]
    rfl
  | ticks hp =>
    rw [phase_want, receives_wanted]
    exact Nat.add_comm _ _
  | answers hp =>
    have hq : (a.want k).listen.phase = a.phase := phase_want k a
    rw [hq, Operation.begun_append, receives_wanted, Nat.zero_add]
    exact Nat.add_comm _ _
  | ignores => exact Nat.add_comm _ _
  | follows hg =>
    rw [phase_want]
    exact Nat.add_comm _ _
  | waits => exact Nat.add_comm _ _

/-- Nothing is begun at the end, or after it. -/
theorem Outcome.receives_of_closed (o : Outcome now k a e b acts) (hb : b.phase = .closed) :
    Advertiser.receives.begun acts = 0 := by
  cases o with
  | rests => rfl
  | ends => exact Advertiser.receives.begun_farewell _ _
  | fails => cases hb
  | unfiltered | unjoined =>
    rw [Operation.begun_append, Operation.begun_farewell]
    rfl
  | opens =>
    rw [phase_want] at hb
    cases hb
  | ticks => exact receives_wanted k a
  | answers hp =>
    have hq : (a.want k).listen.phase = a.phase := phase_want k a
    cases hb.symm.trans (hq.trans hp)
  | ignores hp => cases hb.symm.trans hp
  | follows | waits => rfl

/-- When something was received, the next receive is the last act, after all answers. -/
theorem Outcome.receives_last {x : Except ErrorCode Bytes}
    (o : Outcome now k a (.received x) b acts) :
    Advertiser.receives.begun acts = 0 ∨
      ∃ work, acts = work ++ [.call .receive none] ∧ Advertiser.receives.begun work = 0 := by
  cases o with
  | rests => exact Or.inl rfl
  | ends => exact Or.inl (Advertiser.receives.begun_farewell _ _)
  | fails hd | unfiltered hd | unjoined hd | opens hd => cases hd.not_active.2
  | answers => exact Or.inr ⟨_, rfl, receives_wanted k a⟩
  | ignores => exact Or.inr ⟨[], rfl, rfl⟩

end Outcomes

namespace Life

variable {r : Profile} {l l' : Life}

/-- The receives that were begun. -/
def opened (l : Life) : Nat := receives.begun l.acts

/-- The ends of receives that were handled. -/
def heard (l : Life) : Nat := l.deeds.countP (·.event.isReceived)

/-- There is one receive in the active phase, and none before it; some may be left at the end. -/
structure Hearing (a : Advertiser) : Prop where
  live : a.phase ≠ .closed → a.receiving = listens a.phase
  le_one : a.receiving ≤ 1

theorem Step.hearing (s : Step l l') (h : Sound l.advertiser) (hl : Hearing l.advertiser) :
    Hearing l'.advertiser := by
  cases s with
  | pass => exact hl
  | @stir a hs =>
    have hp : a.phase = l.advertiser.phase := hs.phase
    have hr : a.receiving = l.advertiser.receiving := receives.pending_stir hs
    constructor
    · intro hc
      change a.receiving = listens a.phase
      rw [hr, hp]
      exact hl.live (hp ▸ hc)
    · exact hr ▸ hl.le_one
  | @handle k e rest t hm hk =>
    obtain ⟨hs, o⟩ := outcome_of_step? h hm hk
    have hf : l.advertiser.receiving =
        (l.deed k e rest t).before.receiving + e.isReceived.toNat :=
      (congrArg receiving (eq_facing hm)).trans (receiving_facing e _)
    have hb : t.state.receiving = (l.deed k e rest t).before.receiving + receives.begun t.acts :=
      receives.pending_outcome o hs
    have hle := hl.le_one
    by_cases hc : t.state.phase = .closed
    · have hz := o.receives_of_closed hc
      constructor
      · exact fun hn => absurd hc hn
      · change t.state.receiving ≤ 1
        omega
    · have ha : l.advertiser.phase ≠ .closed := fun ha => hc (o.of_closed ha).2
      have hn : receives.begun t.acts + listens l.advertiser.phase =
          listens t.state.phase + e.isReceived.toNat := o.receives hc
      have hlive := hl.live ha
      have hone : listens t.state.phase ≤ 1 := Bool.toNat_le _
      have heq : t.state.receiving = listens t.state.phase := by omega
      constructor
      · exact fun _ => heq
      · change t.state.receiving ≤ 1
        omega

theorem Reachable.hearing (h : Reachable r l) : Hearing l.advertiser := by
  induction h with
  | new => exact ⟨fun _ => rfl, Nat.zero_le 1⟩
  | step h s ih => exact s.hearing h.sound ih

/-- A receive is begun only when no other one is left, nor one whose end has not been handled. -/
theorem Reachable.begun_le_one (h : Reachable r l) {d : Deed} (hd : d ∈ l.deeds) :
    receives.begun d.after.acts + d.before.receiving ≤ 1 := by
  obtain ⟨xs, ys, hxy⟩ := List.append_of_mem hd
  obtain ⟨l₀, hr₀, -, -, hst, -⟩ := h.cut hxy
  have hle : d.after.state.receiving ≤ 1 := (hr₀.step hst).hearing.le_one
  obtain ⟨hs, o⟩ := h.outcome d hd
  have hb : d.after.state.receiving = d.before.receiving + receives.begun d.after.acts :=
    receives.pending_outcome o hs
  omega

/-- An advertiser has one advertisement in flight at most, and knows while it is active whether
there is one; one receive at most, which is there all the time while it is active and not before;
and one connection at most. A buffer is handed over when nothing else uses it and what came in has
been dealt with. -/
theorem single_flight (h : Reachable r l) :
    (l.issued = l.completed + l.advertiser.inFlight ∧ l.advertiser.inFlight ≤ 1 ∧
      (l.advertiser.phase = .active →
        (l.advertiser.sending = true ↔ l.advertiser.inFlight = 1) ∧
          (l.advertiser.sendPending = true → l.advertiser.sending = true))) ∧
    (l.opened = l.heard + l.advertiser.receiving ∧ l.advertiser.receiving ≤ 1 ∧
      (l.advertiser.phase = .active → l.advertiser.receiving = 1) ∧
      (l.advertiser.phase = .idle ∨ l.advertiser.phase = .connecting →
        l.advertiser.receiving = 0)) ∧
    l.connections ≤ 1 ∧
    ∀ d ∈ l.deeds, receives.begun d.after.acts + d.before.receiving ≤ 1 ∧
      ∀ x, d.event = .received x → receives.begun d.after.acts = 0 ∨
        ∃ work, d.after.acts = work ++ [.call .receive none] ∧ receives.begun work = 0 := by
  obtain ⟨hi, hf⟩ := h.balanced
  obtain ⟨hlive, hle⟩ := h.hearing
  have hone : l.advertiser.inFlight ≤ 1 := by
    rw [hf]
    exact Bool.toNat_le _
  refine ⟨⟨hi, hone, fun hp => ⟨?_, h.owing hp⟩⟩, ⟨receives.begun_eq h, hle, fun hp => ?_,
    fun hp => ?_⟩, ?_, fun d hd => ⟨h.begun_le_one hd, fun x hx => ?_⟩⟩
  · rw [hf]
    cases l.advertiser.sending <;> decide
  · rw [hlive (by simp [hp]), hp]
    rfl
  · rcases hp with hp | hp <;> rw [hlive (by simp [hp]), hp] <;> rfl
  · rw [h.ending.connections]
    exact Bool.toNat_le _
  · obtain ⟨-, o⟩ := h.outcome d hd
    rw [hx] at o
    exact o.receives_last

/-- Of two datagrams that come in together the second one takes the place of the first one when that
has been read. -/
theorem single_flight_of_two_datagrams :
    ∃ l : Life, Reachable ⟨{}, [], 200, 5⟩ l ∧ l.advertiser.mailbox = [.received (.ok [2])] ∧
      l.opened = 2 ∧ l.heard = 1 ∧ l.advertiser.receiving = 1 := by
  let k : Conditions := { dial := .ok { source := ⟨.unspecified, 0⟩ } }
  have opened := ((Reachable.new (p := ⟨{}, [], 200, 5⟩) 0).step
    (.stir (.start .deregister))).step (.handle k rfl rfl)
  have came := (opened.step (.stir (.arrive (x := .ok ⟨[1], .unspecified⟩) rfl))).step
    (.stir (.arrive (x := .ok ⟨[2], .unspecified⟩) rfl))
  have sent := came.step (.handle k rfl rfl)
  have read := sent.step (.handle k rfl rfl)
  obtain ⟨-, ⟨-, -, hone, -⟩, -⟩ := single_flight read
  exact ⟨_, read, rfl, rfl, rfl, hone rfl⟩

end Life

end Advertiser

end RouterAdvert
