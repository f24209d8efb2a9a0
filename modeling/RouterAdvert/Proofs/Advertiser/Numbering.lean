import RouterAdvert.Proofs.Advertiser.Sound

/-! The number of its connection does not matter to an advertiser: without the numbers, an event is
handled in the same way and has the same effects. -/
namespace RouterAdvert

/-- As if it had been dialed first. -/
def Endpoint.unnumbered (e : Endpoint) : Endpoint := { e with number := 0 }

namespace Connection

def unnumbered (c : Connection) : Connection := { c with number := 0 }

/-- An operation that does not look at the number. -/
def Blind (f : Connection → Connection × List Completion) : Prop :=
  ∀ c, f c.unnumbered = ((f c).1.unnumbered, (f c).2)

theorem blind_keep : Blind fun c => (c, []) := fun _ => rfl

theorem blind_close : Blind close := fun _ => rfl

theorem blind_receive (room : Nat) : Blind (receive room) := by
  intro c
  cases ho : c.isOpen with
  | false => simp [receive, unnumbered, ho]
  | true =>
    cases hi : c.inbox with
    | nil => simp [receive, unnumbered, ho, hi]
    | cons x rest => cases x <;> simp [receive, unnumbered, ho, hi, deliver]

theorem blind_arrive (x : Arrival) : Blind (arrive x) := by
  intro c
  cases hw : c.waiting with
  | nil => cases ho : c.isOpen <;> simp [arrive, unnumbered, hw, ho]
  | cons room rest => cases x <;> simp [arrive, unnumbered, hw, deliver]

theorem blind_send (fault : Option ErrorCode) : Blind (send fault) := by
  intro c
  cases ho : c.isOpen with
  | false => simp [send, unnumbered, ho]
  | true =>
    by_cases hf : fault.isNone ∧ c.holdSends = true
    · simp [send, unnumbered, ho, hf]
    · simp only [send, unnumbered, ho, hf, Bool.not_true, Bool.false_eq_true, if_false]

theorem release?_unnumbered (e : Option ErrorCode) (c : Connection) :
    c.unnumbered.release? e = (c.release? e).map fun x => (x.1.unnumbered, x.2) := by
  unfold release?
  by_cases h : c.held = 0 <;> simp [unnumbered, h]

end Connection

namespace Advertiser

def unnumbered (a : Advertiser) : Advertiser :=
  { a with connection := a.connection.map (·.unnumbered) }

def Conditions.unnumbered (k : Conditions) : Conditions :=
  { k with dial := k.dial.map (·.unnumbered) }

theorem ring_unnumbered (a : Advertiser) : a.unnumbered.ring = a.ring.unnumbered := by
  cases h : a.alarm <;> simp [ring, unnumbered, h, post]

theorem arrive?_unnumbered (x : Arrival) (a : Advertiser) :
    a.unnumbered.arrive? x = (a.arrive? x).map (·.unnumbered) := by
  cases h : a.connection with
  | none => simp [arrive?, unnumbered, h]
  | some c => simp [arrive?, unnumbered, h, Connection.blind_arrive x c]

theorem inject?_unnumbered (x : Arrival) (a : Advertiser) :
    a.unnumbered.inject? x = (a.inject? x).map (·.unnumbered) := by
  have hw : (a.unnumbered.connection.any fun c => !c.waiting.isEmpty) =
      a.connection.any fun c => !c.waiting.isEmpty := by
    cases h : a.connection <;> simp [unnumbered, h, Connection.unnumbered]
  unfold inject?
  rw [hw, arrive?_unnumbered]
  split <;> rfl

theorem release?_unnumbered (e : Option ErrorCode) (a : Advertiser) :
    a.unnumbered.release? e = (a.release? e).map (·.unnumbered) := by
  cases h : a.connection with
  | none => simp [release?, unnumbered, h]
  | some c =>
    have hc := Connection.release?_unnumbered e c
    cases hr : c.release? e <;> simp [release?, unnumbered, h, hc, hr]

namespace Turn

def unnumbered (t : Turn) : Turn := { t with state := t.state.unnumbered }

theorem unnumbered_note (n : Notice) (t : Turn) :
    (t.note n).unnumbered = t.unnumbered.note n := rfl

theorem unnumbered_call (c : ConnectionCall) (fault : Option ErrorCode)
    {f : Connection → Connection × List Completion} (hf : Connection.Blind f) (t : Turn) :
    (t.call c fault f).unnumbered = t.unnumbered.call c fault f := by
  cases h : t.state.connection with
  | none => simp [call, unnumbered, Advertiser.unnumbered, h]
  | some x => simp [call, unnumbered, Advertiser.unnumbered, h, hf x, emit]

theorem unnumbered_leave (code : ErrorCode) (t : Turn) :
    (t.leave code).unnumbered = t.unnumbered.leave code := by
  cases h : t.state.onExit <;> simp [leave, unnumbered, Advertiser.unnumbered, h, emit]

theorem unnumbered_finish (code : ErrorCode) (t : Turn) :
    (t.finish code).unnumbered = t.unnumbered.finish code := by
  by_cases h : t.state.phase = .closed
  · simp [finish, unnumbered, Advertiser.unnumbered, h]
  · have h' : ¬t.unnumbered.state.phase = .closed := h
    rw [finish, finish, if_neg h, if_neg h', unnumbered_leave,
      unnumbered_call _ _ Connection.blind_close]
    rfl

theorem unnumbered_receive (t : Turn) : t.receive.unnumbered = t.unnumbered.receive :=
  unnumbered_call _ _ (Connection.blind_receive _) t

theorem unnumbered_sendAdvert (k : Conditions) (t : Turn) :
    (t.sendAdvert k).unnumbered = t.unnumbered.sendAdvert k.unnumbered := by
  unfold sendAdvert
  by_cases h : t.state.sending = true
  · rw [if_pos h, if_pos (by exact h)]
    rfl
  · rw [if_neg h, if_neg (by exact h), unnumbered_call _ _ (Connection.blind_send _)]
    rfl

theorem unnumbered_activate (k : Conditions) (c : Connection) (t : Turn) :
    (t.activate k c).unnumbered = t.unnumbered.activate k.unnumbered c.unnumbered := by
  have hcall (x : ConnectionCall) (fault : Option ErrorCode) (t : Turn) :=
    unnumbered_call x fault Connection.blind_keep t
  have hfilter : k.unnumbered.filter = k.filter := rfl
  have hjoin : k.unnumbered.join = k.join := rfl
  simp only [activate, hfilter, hjoin]
  cases k.filter with
  | some e =>
    simp only [unnumbered_finish, unnumbered_note, ← hcall]
    rfl
  | none =>
    cases k.join with
    | some e =>
      simp only [unnumbered_finish, unnumbered_note, ← hcall]
      rfl
    | none =>
      simp only [unnumbered_sendAdvert, unnumbered_receive, unnumbered_note, ← hcall]
      rfl

theorem unnumbered_dial (now : Nat) (k : Conditions) (t : Turn) :
    (t.dial now k).unnumbered = t.unnumbered.dial now k.unnumbered := by
  have hcanceled : t.unnumbered.state.canceled = t.state.canceled := rfl
  simp only [dial, hcanceled]
  split
  · exact unnumbered_finish ..
  · cases hd : k.dial with
    | error e => simp only [Conditions.unnumbered, hd, Except.map]; rfl
    | ok e =>
      simp only [Conditions.unnumbered, hd, Except.map, unnumbered_activate]
      rfl

theorem unnumbered_solicit (k : Conditions) (data : Bytes) (t : Turn) :
    (t.solicit k data).unnumbered = t.unnumbered.solicit k.unnumbered data := by
  have hsender : t.unnumbered.state.connection.map (·.sender) =
      t.state.connection.map (·.sender) := by
    cases h : t.state.connection <;> simp [unnumbered, Advertiser.unnumbered, h,
      Connection.unnumbered]
  simp only [solicit, hsender]
  generalize Ndp.Solicitation.check data _ = v
  cases v with
  | ok => exact unnumbered_sendAdvert ..
  | _ => rfl

theorem unnumbered_afterSend (now : Nat) (k : Conditions) (t : Turn) :
    (t.afterSend now k).unnumbered = t.unnumbered.afterSend now k.unnumbered := by
  have hpending : t.unnumbered.state.sendPending = t.state.sendPending := rfl
  simp only [afterSend, hpending]
  split
  · exact unnumbered_sendAdvert ..
  · rfl

theorem unnumbered_sent (now : Nat) (k : Conditions) (e : Option ErrorCode) (t : Turn) :
    (t.sent now k e).unnumbered = t.unnumbered.sent now k.unnumbered e := by
  have hphase : t.unnumbered.state.phase = t.state.phase := rfl
  simp only [sent, hphase]
  split
  · rfl
  · cases e with
    | none => exact unnumbered_afterSend ..
    | some e =>
      dsimp only
      split
      · exact unnumbered_finish ..
      · split
        · exact unnumbered_afterSend ..
        · exact unnumbered_finish ..

theorem unnumbered_received (k : Conditions) (r : Except ErrorCode Bytes) (t : Turn) :
    (t.received k r).unnumbered = t.unnumbered.received k.unnumbered r := by
  have hphase : t.unnumbered.state.phase = t.state.phase := rfl
  simp only [received, hphase]
  split
  · rfl
  · cases r with
    | ok data => exact (unnumbered_receive _).trans (congrArg _ (unnumbered_solicit k data t))
    | error e =>
      dsimp only
      split
      · exact unnumbered_finish ..
      · exact unnumbered_finish ..

theorem unnumbered_alarmed (now : Nat) (k : Conditions) (p : Purpose) (aborted : Bool)
    (t : Turn) :
    (t.alarmed now k p aborted).unnumbered =
      t.unnumbered.alarmed now k.unnumbered p aborted := by
  have hphase : t.unnumbered.state.phase = t.state.phase := rfl
  have hcanceled : t.unnumbered.state.canceled = t.state.canceled := rfl
  simp only [alarmed, hphase, hcanceled]
  split
  · rfl
  · cases p with
    | retry =>
      dsimp only
      split
      · exact unnumbered_finish ..
      · exact unnumbered_dial ..
    | advertise =>
      dsimp only
      split
      · rfl
      · exact unnumbered_sendAdvert ..

theorem unnumbered_started (now : Nat) (k : Conditions) (h : ExitHandler) (t : Turn) :
    (t.started now k h).unnumbered = t.unnumbered.started now k.unnumbered h := by
  have hphase : t.unnumbered.state.phase = t.state.phase := rfl
  simp only [started, hphase]
  split
  · exact unnumbered_dial ..
  · rfl

theorem unnumbered_cancel (t : Turn) : t.cancel.unnumbered = t.unnumbered.cancel := by
  have hphase : t.unnumbered.state.phase = t.state.phase := rfl
  simp only [cancel, hphase]
  split
  · rfl
  · exact unnumbered_finish ..

theorem unnumbered_handle (now : Nat) (k : Conditions) (e : Event) (t : Turn) :
    (t.handle now k e).unnumbered = t.unnumbered.handle now k.unnumbered e := by
  cases e with
  | start h => exact unnumbered_started ..
  | cancel => exact unnumbered_cancel t
  | alarm p aborted => exact unnumbered_alarmed ..
  | received r => exact unnumbered_received ..
  | sent e => exact unnumbered_sent ..

end Turn

/-- Handling an event does not depend on the numbers of connections, but that they are passed on. -/
theorem step?_unnumbered (now : Nat) (k : Conditions) (a : Advertiser) :
    a.unnumbered.step? now k.unnumbered = (a.step? now k).map (·.unnumbered) := by
  cases h : a.mailbox with
  | nil => simp [step?, unnumbered, h]
  | cons e rest =>
    simp only [step?, unnumbered, h, Option.map_some, Turn.unnumbered_handle]
    rfl

end Advertiser

end RouterAdvert
