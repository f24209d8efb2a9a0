import RouterAdvert.Advertiser

/-! What is true of an advertiser between events, whatever happens around it: which events can wait
for it in each phase, and what it holds on to. Nothing is said here about how many operations are
pending. -/
namespace RouterAdvert.Advertiser

/-- The phase in which an alarm is set. -/
def Purpose.phase : Purpose → Phase
  | .retry => .connecting
  | .advertise => .active

namespace Event

def isCancel : Event → Bool
  | cancel => true
  | _ => false

def isAlarm : Event → Bool
  | alarm _ _ => true
  | _ => false

def isSent : Event → Bool
  | sent _ => true
  | _ => false

/-- Whether an event can wait for an advertiser in this phase. A wait to dial again is never taken
back but at the end. -/
def Fits (p : Phase) : Event → Prop
  | start _ | cancel => True
  | alarm .retry aborted => p = .closed ∨ p = .connecting ∧ aborted = false
  | alarm .advertise _ | received _ | sent _ => p = .closed ∨ p = .active

theorem fits_closed (e : Event) : e.Fits .closed := by
  cases e with
  | alarm p _ => cases p <;> exact Or.inl rfl
  | received _ | sent _ => exact Or.inl rfl
  | start _ | cancel => trivial

/-- What can wait at the beginning can wait at any time. -/
theorem Fits.of_idle {e : Event} (h : e.Fits .idle) (p : Phase) : e.Fits p := by
  cases e with
  | alarm q _ => cases q <;> simp [Fits] at h
  | received _ | sent _ => simp [Fits] at h
  | start _ | cancel => trivial

theorem Fits.not_alarm {e : Event} (h : e.Fits .idle) : e.isAlarm = false := by
  cases e with
  | alarm q _ => cases q <;> simp [Fits] at h
  | start _ | cancel | received _ | sent _ => rfl

/-- Apart from the alarm, nothing that waits while connecting is particular to it. -/
theorem Fits.of_connecting {e : Event} (h : e.Fits .connecting) (ha : e.isAlarm = false) :
    e.Fits .idle := by
  cases e with
  | alarm _ _ => simp [isAlarm] at ha
  | received _ | sent _ => simp [Fits] at h
  | start _ | cancel => trivial

theorem fits_ofCompletion (c : Completion) : (ofCompletion c).Fits .active := by
  cases c <;> exact Or.inr rfl

theorem isAlarm_ofCompletion (c : Completion) : (ofCompletion c).isAlarm = false := by
  cases c <;> rfl

end Event

/-- After an operation on the connection, if there is one. -/
def operate (f : Connection → Connection × List Completion) (a : Advertiser) : Advertiser :=
  { a with
    connection := a.connection.map fun c => (f c).1
    mailbox := a.mailbox ++ a.connection.toList.flatMap fun c => (f c).2.map .ofCompletion }

theorem operate_of_none {a : Advertiser} (h : a.connection = none)
    (f : Connection → Connection × List Completion) : a.operate f = a := by
  cases a
  subst h
  simp [operate]

theorem operate_of_some {a : Advertiser} {c : Connection} (h : a.connection = some c)
    (f : Connection → Connection × List Completion) :
    a.operate f =
      { a with connection := some (f c).1, mailbox := a.mailbox ++ (f c).2.map .ofCompletion } := by
  simp [operate, h]

/-- A call that completes nothing and leaves the connection as it is. -/
@[simp] theorem operate_id (a : Advertiser) : a.operate (fun c => (c, [])) = a := by
  cases h : a.connection with
  | none => exact operate_of_none h _
  | some c => simp [operate_of_some h, ← h]

theorem operate_of_arrive {a b : Advertiser} {x : Arrival} (h : a.arrive? x = some b) :
    a.connection.isSome ∧ b = a.operate (Connection.arrive x) := by
  obtain ⟨c, hc, rfl⟩ := Option.map_eq_some_iff.mp h
  exact ⟨by simp [hc], (operate_of_some hc (Connection.arrive x)).symm⟩

theorem operate_of_release {a b : Advertiser} {e : Option ErrorCode} (h : a.release? e = some b) :
    a.connection.isSome ∧ b = a.operate fun c => (c.release? e).getD (c, []) := by
  cases hc : a.connection with
  | none => simp [release?, hc] at h
  | some c =>
    cases hr : c.release? e with
    | none => simp [release?, hc, hr] at h
    | some r =>
      obtain rfl : _ = b := by simpa [release?, hc, hr] using h
      exact ⟨rfl, by simp [operate_of_some hc, hr]⟩

theorem ring_eq {a : Advertiser} {x : Alarm} (h : a.alarm = some x) :
    a.ring = { a with alarm := none, mailbox := a.mailbox ++ [.alarm x.purpose false] } := by
  simp [ring, h, post]

structure Sound (a : Advertiser) : Prop where
  fits : ∀ e ∈ a.mailbox, e.Fits a.phase
  alarm : ∀ x, a.alarm = some x → x.purpose.phase = a.phase
  /-- There is no connection, and nothing to send, before the dial succeeds. -/
  unconnected : a.phase = .idle ∨ a.phase = .connecting →
    a.connection = none ∧ a.sending = false ∧ a.sendPending = false
  connected : a.phase = .active → a.connection.isSome
  starter : a.onExit.isSome ↔ a.phase = .connecting ∨ a.phase = .active
  /-- A cancellation that was handled is waiting for the start, or has ended everything. -/
  canceled : a.canceled = true → a.phase = .idle ∨ a.phase = .closed
  /-- While connecting there is one wait: its alarm is set, or has gone off. -/
  retry : a.phase = .connecting → a.alarm.toList.length + a.mailbox.countP (·.isAlarm) = 1

namespace Sound

variable {a : Advertiser}

theorem new (p : Profile) : Sound { profile := p } where
  fits := by simp
  alarm := by simp
  unconnected _ := ⟨rfl, rfl, rfl⟩
  connected := by simp
  starter := by simp
  canceled := by simp
  retry := by simp

theorem alarm_eq_none (h : Sound a) (hp : a.phase = .idle ∨ a.phase = .closed) :
    a.alarm = none := by
  refine Option.eq_none_iff_forall_ne_some.mpr fun x hx => ?_
  have hx := h.alarm x hx
  rcases hp with hp | hp <;> rw [hp] at hx <;> cases hq : x.purpose <;> rw [hq] at hx <;> cases hx

theorem canceled_eq_false (h : Sound a) (hp : a.phase = .connecting ∨ a.phase = .active) :
    a.canceled = false := by
  cases hc : a.canceled with
  | false => rfl
  | true => rcases hp with hp | hp <;> simpa [hp] using h.canceled hc

/-- Events that fit may be added, and the connection may change, as long as no alarm is added. -/
theorem enqueue (h : Sound a) (es : List Event) {c : Option Connection}
    (hf : ∀ e ∈ es, e.Fits a.phase) (ha : ∀ e ∈ es, e.isAlarm = false)
    (hc : c.isSome = a.connection.isSome) :
    Sound { a with connection := c, mailbox := a.mailbox ++ es } where
  fits e he := (List.mem_append.mp he).elim (h.fits e) (hf e)
  alarm := h.alarm
  unconnected hp := by
    obtain ⟨hn, hs⟩ := h.unconnected hp
    refine ⟨?_, hs⟩
    rw [hn] at hc
    simpa using hc
  connected hp := hc.trans (h.connected hp)
  starter := h.starter
  canceled := h.canceled
  retry hp := by
    have hz : es.countP (·.isAlarm) = 0 := List.countP_eq_zero.mpr fun e he => by simp [ha e he]
    have hr := h.retry hp
    simp only [List.countP_append]
    omega

theorem start (h : Sound a) (x : ExitHandler) : Sound (a.start x) :=
  h.enqueue [.start x] (c := a.connection) (by simp [Event.Fits])
    (by simp [Event.isAlarm]) rfl

theorem cancel (h : Sound a) : Sound a.cancel :=
  h.enqueue [.cancel] (c := a.connection) (by simp [Event.Fits])
    (by simp [Event.isAlarm]) rfl

theorem ring (h : Sound a) : Sound a.ring := by
  cases hx : a.alarm with
  | none => simpa only [Advertiser.ring, hx] using h
  | some x =>
    have hp := h.alarm x hx
    rw [ring_eq hx]
    refine ⟨fun e he => ?_, by simp, h.unconnected, h.connected, h.starter, h.canceled,
      fun hc => ?_⟩
    · rcases List.mem_append.mp he with he | he
      · exact h.fits e he
      · obtain rfl := List.mem_singleton.mp he
        cases hq : x.purpose <;> rw [hq] at hp <;> exact Or.inr (by simp [← hp, Purpose.phase])
    · have hr : 1 + a.mailbox.countP (·.isAlarm) = 1 := by simpa [hx] using h.retry hc
      have hn : [Event.alarm x.purpose false].countP (·.isAlarm) = 1 := rfl
      change 0 + (a.mailbox ++ [Event.alarm x.purpose false]).countP (·.isAlarm) = 1
      rw [List.countP_append, hn]
      omega

/-- What completes on a connection can wait for an advertiser that has one. -/
theorem complete (h : Sound a) {c : Connection} (hc : a.connection = some c) (c' : Connection)
    (done : List Completion) :
    Sound { a with connection := some c', mailbox := a.mailbox ++ done.map .ofCompletion } := by
  refine h.enqueue _ (fun e he => ?_) (fun e he => ?_) (by simp [hc])
  · obtain ⟨d, -, rfl⟩ := List.mem_map.mp he
    cases hp : a.phase with
    | idle => exact absurd (h.unconnected (Or.inl hp)).1 (by simp [hc])
    | connecting => exact absurd (h.unconnected (Or.inr hp)).1 (by simp [hc])
    | active => exact Event.fits_ofCompletion d
    | closed => exact Event.fits_closed _
  · obtain ⟨d, -, rfl⟩ := List.mem_map.mp he
    exact Event.isAlarm_ofCompletion d

theorem operate (h : Sound a) (f : Connection → Connection × List Completion) :
    Sound (a.operate f) := by
  cases hc : a.connection with
  | none => rwa [operate_of_none hc]
  | some c =>
    rw [operate_of_some hc]
    exact h.complete hc _ _

theorem arrive {x : Arrival} {b : Advertiser} (h : Sound a) (hb : a.arrive? x = some b) :
    Sound b := by
  rw [(operate_of_arrive hb).2]
  exact h.operate _

theorem release {e : Option ErrorCode} {b : Advertiser} (h : Sound a)
    (hb : a.release? e = some b) : Sound b := by
  rw [(operate_of_release hb).2]
  exact h.operate _

end Sound

/-- What can happen around an advertiser: something is asked of it, its alarm goes off, at its time
or later, or something arrives or completes on its connection. -/
inductive Stir (now : Nat) (a : Advertiser) : Advertiser → Prop
  | start (h : ExitHandler) : Stir now a (a.start h)
  | cancel : Stir now a a.cancel
  | ring {x : Alarm} (hx : a.alarm = some x) (hd : x.expiry ≤ now) : Stir now a a.ring
  | arrive {x : Arrival} {b : Advertiser} (h : a.arrive? x = some b) : Stir now a b
  | release {e : Option ErrorCode} {b : Advertiser} (h : a.release? e = some b) : Stir now a b

namespace Stir

variable {now : Nat} {a b : Advertiser}

theorem sound (s : Stir now a b) (h : Sound a) : Sound b := by
  cases s with
  | start x => exact h.start x
  | cancel => exact h.cancel
  | ring => exact h.ring
  | arrive ha => exact h.arrive ha
  | release ha => exact h.release ha

/-- Only what is pending changes. -/
theorem frame (s : Stir now a b) :
    b = { a with alarm := b.alarm, connection := b.connection, mailbox := b.mailbox } := by
  cases s with
  | start | cancel => rfl
  | ring hx => rw [ring_eq hx]
  | arrive ha =>
    rw [(operate_of_arrive ha).2]
    rfl
  | release ha =>
    rw [(operate_of_release ha).2]
    rfl

theorem profile (s : Stir now a b) : b.profile = a.profile := by rw [s.frame]

theorem phase (s : Stir now a b) : b.phase = a.phase := by rw [s.frame]

theorem canceled (s : Stir now a b) : b.canceled = a.canceled := by rw [s.frame]

theorem sending (s : Stir now a b) : b.sending = a.sending := by rw [s.frame]

theorem onExit (s : Stir now a b) : b.onExit = a.onExit := by rw [s.frame]

/-- Nothing that waits is lost. -/
theorem mailbox (s : Stir now a b) : ∃ es, b.mailbox = a.mailbox ++ es := by
  cases s with
  | start | cancel => exact ⟨_, rfl⟩
  | ring hx =>
    rw [ring_eq hx]
    exact ⟨_, rfl⟩
  | arrive ha =>
    rw [(operate_of_arrive ha).2]
    exact ⟨_, rfl⟩
  | release ha =>
    rw [(operate_of_release ha).2]
    exact ⟨_, rfl⟩

end Stir

end RouterAdvert.Advertiser
