import RouterAdvert.Proofs.Advertiser.Sound

/-! What each piece of a turn comes to: the advertiser afterwards and what was done, messages
apart. -/
namespace RouterAdvert.Advertiser

namespace Effect

def isNote : Effect → Bool
  | note _ => true
  | _ => false

end Effect

/-- The events that tell of what was pending when it was canceled. -/
def abortedAlarm (a : Advertiser) : List Event :=
  a.alarm.toList.map fun x => .alarm x.purpose true

def abortedCalls (a : Advertiser) : List Event :=
  a.connection.toList.flatMap fun c => c.close.2.map .ofCompletion

/-- What an advertiser takes down when it comes to an event, before anything follows. -/
def accept (e : Event) (a : Advertiser) : Advertiser :=
  { a with
    onExit := match e with
      | .start h => if a.phase = .idle then some h else a.onExit
      | _ => a.onExit
    canceled := e.isCancel || a.canceled
    sending := !e.isSent && a.sending }

theorem accept_start_of_idle {a : Advertiser} (h : a.phase = .idle) (x : ExitHandler) :
    a.accept (.start x) = { a with onExit := some x } := by
  simp [accept, h, Event.isCancel, Event.isSent]

theorem accept_start_of_ne_idle {a : Advertiser} (h : a.phase ≠ .idle) (x : ExitHandler) :
    a.accept (.start x) = a := by
  simp [accept, h, Event.isCancel, Event.isSent]

/-- An advertiser that has just come to its end. -/
def ended (a : Advertiser) : Advertiser :=
  { a with
    phase := .closed
    alarm := none
    onExit := none
    connection := a.connection.map fun c => c.close.1
    mailbox := a.mailbox ++ a.abortedAlarm ++ a.abortedCalls }

/-- What it does to come there. -/
def farewell (code : ErrorCode) (a : Advertiser) : List Effect :=
  (a.connection.toList.map fun _ => .call .close none) ++ a.onExit.toList.map (.exit · code)

def listen (a : Advertiser) : Advertiser := a.operate (Connection.receive receiveRoom)

/-- After a trigger: an advertisement goes out, or follows the one that is on its way. -/
def want (k : Conditions) (a : Advertiser) : Advertiser :=
  if a.sending then { a with sendPending := true }
  else { a with sending := true }.operate (Connection.send k.send)

def wanted (k : Conditions) (a : Advertiser) : List Effect :=
  if a.sending then [] else [.call (.send a.profile.advert) k.send]

/-- After a dial that succeeded. -/
def dialed (d : Endpoint) (a : Advertiser) : Advertiser :=
  { a with phase := .connecting, dials := a.dials + 1, connection := some d.connect }

/-- Whether what was received asks for an advertisement. -/
def solicited (data : Bytes) (a : Advertiser) : Bool :=
  let sender := (a.connection.map (·.sender)).getD .unspecified
  Ndp.Solicitation.check data sender.isUnspecified = .ok

namespace Turn

/-- What was done, messages apart. -/
def acts (t : Turn) : List Effect := t.effects.filter fun e => !e.isNote

@[simp] theorem acts_new (a : Advertiser) : acts { state := a } = [] := rfl

@[simp] theorem acts_mk (a : Advertiser) (t : Turn) :
    acts { state := a, effects := t.effects } = t.acts := rfl

@[simp] theorem state_emit (e : Effect) (t : Turn) : (t.emit e).state = t.state := rfl

@[simp] theorem acts_emit (e : Effect) (t : Turn) :
    (t.emit e).acts = t.acts ++ [e].filter fun e => !e.isNote := by
  simp only [acts, emit, List.filter_append]

@[simp] theorem state_note (n : Notice) (t : Turn) : (t.note n).state = t.state := rfl

@[simp] theorem acts_note (n : Notice) (t : Turn) : (t.note n).acts = t.acts := by
  simp [note, Effect.isNote]

@[simp] theorem state_arm (now delay : Nat) (p : Purpose) (t : Turn) :
    (t.arm now delay p).state = { t.state with
      alarm := some ⟨p, now + delay⟩
      mailbox := t.state.mailbox ++ t.state.abortedAlarm } := rfl

@[simp] theorem acts_arm (now delay : Nat) (p : Purpose) (t : Turn) :
    (t.arm now delay p).acts = t.acts ++ [.armed] := by
  simp [arm, acts, emit, Effect.isNote]

theorem state_call (c : ConnectionCall) (fault : Option ErrorCode)
    (f : Connection → Connection × List Completion) (t : Turn) :
    (t.call c fault f).state = t.state.operate f := by
  unfold call
  cases hc : t.state.connection with
  | none => simp [operate_of_none hc]
  | some c => simp [operate_of_some hc]

theorem acts_call (c : ConnectionCall) (fault : Option ErrorCode)
    (f : Connection → Connection × List Completion) (t : Turn) :
    (t.call c fault f).acts = t.acts ++ t.state.connection.toList.map fun _ => .call c fault := by
  unfold call
  cases t.state.connection <;> simp [acts, emit, Effect.isNote]

@[simp] theorem state_receive (t : Turn) : t.receive.state = t.state.listen := state_call ..

@[simp] theorem state_sendAdvert (k : Conditions) (t : Turn) :
    (t.sendAdvert k).state = t.state.want k := by
  unfold sendAdvert want
  split
  · rfl
  · exact state_call ..

theorem acts_sendAdvert {k : Conditions} {t : Turn} (hc : t.state.connection.isSome) :
    (t.sendAdvert k).acts = t.acts ++ t.state.wanted k := by
  obtain ⟨c, hc⟩ := Option.isSome_iff_exists.mp hc
  unfold sendAdvert wanted
  split
  · simp [acts]
  · rw [acts_call]
    simp [hc, acts]

theorem state_finish {t : Turn} (h : t.state.phase ≠ .closed) (code : ErrorCode) :
    (t.finish code).state = t.state.ended := by
  unfold finish leave
  rw [if_neg h]
  cases hc : t.state.connection <;> cases hx : t.state.onExit <;>
    simp [call, disarm, emit, hc, hx, ended, abortedAlarm, abortedCalls]

theorem acts_finish {t : Turn} (h : t.state.phase ≠ .closed) (code : ErrorCode) :
    (t.finish code).acts = t.acts ++ t.state.farewell code := by
  unfold finish leave
  rw [if_neg h]
  cases hc : t.state.connection <;> cases hx : t.state.onExit <;>
    simp [call, disarm, emit, hc, hx, farewell, acts, Effect.isNote]

variable {now : Nat} {k : Conditions} {t : Turn}

theorem dial_fails {code : ErrorCode} (hc : t.state.canceled = false) (ha : t.state.alarm = none)
    (hk : k.dial = .error code) :
    (t.dial now k).state =
        { t.state with
          phase := .connecting
          dials := t.state.dials + 1
          alarm := some ⟨.retry, now + t.state.profile.backoff⟩ } ∧
      (t.dial now k).acts = t.acts ++ [.dial, .armed] := by
  simp only [dial, hc, hk, Bool.false_eq_true, if_false]
  constructor
  · simp [abortedAlarm, ha]
  · simp [Effect.isNote]

/-- A dial that succeeds leads straight to the activation. -/
theorem dial_connects (now : Nat) {d : Endpoint} (hc : t.state.canceled = false)
    (hk : k.dial = .ok d) : ∃ u : Turn, t.dial now k = u.activate k d.connect ∧
      u.state = t.state.dialed d ∧ u.acts = t.acts ++ [.dial] := by
  simp only [dial, hc, hk, Bool.false_eq_true, if_false]
  exact ⟨_, rfl, by simp [dialed, hc], by simp [Effect.isNote]⟩

theorem activate_unfiltered {c : Connection} {code : ErrorCode}
    (hc : t.state.connection.isSome) (hp : t.state.phase ≠ .closed) (hf : k.filter = some code) :
    (t.activate k c).state = t.state.ended ∧
      (t.activate k c).acts =
        t.acts ++ [.call .filter (some code)] ++ t.state.farewell code := by
  obtain ⟨x, hc⟩ := Option.isSome_iff_exists.mp hc
  simp only [activate, hf]
  rw [state_finish (by simpa [state_call] using hp), acts_finish (by simpa [state_call] using hp)]
  simp [state_call, acts_call, hc]

theorem activate_unjoined {c : Connection} {code : ErrorCode}
    (hc : t.state.connection.isSome) (hp : t.state.phase ≠ .closed) (hf : k.filter = none)
    (hj : k.join = some code) :
    (t.activate k c).state = t.state.ended ∧
      (t.activate k c).acts =
        t.acts ++ [.call .filter none, .call .join (some code)] ++ t.state.farewell code := by
  obtain ⟨x, hc⟩ := Option.isSome_iff_exists.mp hc
  simp only [activate, hf, hj]
  rw [state_finish (by simpa [state_call] using hp), acts_finish (by simpa [state_call] using hp)]
  simp [state_call, acts_call, hc]

theorem activate_opens {c : Connection} (hc : t.state.connection.isSome)
    (hs : t.state.sending = false) (hf : k.filter = none) (hj : k.join = none) :
    (t.activate k c).state = ({ t.state with phase := .active }.listen).want k ∧
      (t.activate k c).acts =
        t.acts ++ [.call .filter none, .call .join none, .call .receive none,
          .call (.send t.state.profile.advert) k.send] := by
  obtain ⟨x, hc⟩ := Option.isSome_iff_exists.mp hc
  simp only [activate, hf, hj]
  constructor
  · simp [state_call]
  · rw [acts_sendAdvert (by simp [state_call, listen, operate, hc])]
    simp [state_call, acts_call, operate, hc, hs, wanted, receive]

theorem solicit_answers {data : Bytes} (hc : t.state.connection.isSome)
    (hs : t.state.solicited data = true) :
    (t.solicit k data).state = t.state.want k ∧
      (t.solicit k data).acts = t.acts ++ t.state.wanted k := by
  have hv := of_decide_eq_true hs
  simp only [solicit, hv]
  refine ⟨state_sendAdvert .., (acts_sendAdvert (by exact hc)).trans ?_⟩
  rw [acts_note, state_note]

theorem solicit_ignores {data : Bytes} (hs : t.state.solicited data = false) :
    (t.solicit k data).state = t.state ∧ (t.solicit k data).acts = t.acts := by
  have hv := of_decide_eq_false hs
  simp only [solicit]
  exact ⟨state_note .., acts_note ..⟩

/-- A received datagram is looked at, and the next receive follows. -/
theorem acts_receive (hc : t.state.connection.isSome) :
    t.receive.acts = t.acts ++ [.call .receive none] := by
  obtain ⟨c, hc⟩ := Option.isSome_iff_exists.mp hc
  simp [receive, acts_call, hc]

theorem afterSend_follows (now : Nat) (hc : t.state.connection.isSome)
    (hs : t.state.sending = false) (hp : t.state.sendPending = true) :
    (t.afterSend now k).state = { t.state with sendPending := false }.want k ∧
      (t.afterSend now k).acts = t.acts ++ [.call (.send t.state.profile.advert) k.send] := by
  simp only [afterSend, hp, if_true]
  refine ⟨state_sendAdvert .., (acts_sendAdvert (by exact hc)).trans ?_⟩
  simp [wanted, hs]

theorem afterSend_waits (now : Nat) (hp : t.state.sendPending = false) :
    (t.afterSend now k).state = { t.state with
        alarm := some ⟨.advertise, now + t.state.profile.interval⟩
        mailbox := t.state.mailbox ++ t.state.abortedAlarm } ∧
      (t.afterSend now k).acts = t.acts ++ [.armed] := by
  simp [afterSend, hp]

end Turn

end RouterAdvert.Advertiser
