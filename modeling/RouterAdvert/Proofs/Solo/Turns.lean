import RouterAdvert.DialScript
import RouterAdvert.Proofs.Advertiser.Work
import RouterAdvert.Solo

/-! The turns of a single advertiser whose medium follows a script: a dial that fails, one that
succeeds, an advertisement that leaves at once, and the answer to a solicitation. -/
namespace RouterAdvert

open Advertiser

namespace Entry

def isDial : Entry → Bool
  | dial _ _ => true
  | _ => false

def isSend : Entry → Bool
  | call _ c => c.isSend
  | _ => false

end Entry

namespace Journal

/-- The times of certain entries, in order. -/
def timesOf (p : Entry → Bool) (j : Journal) : List Nat :=
  (j.rows.reverse.filter fun row => p row.2).map (·.1.time)

theorem timesOf_record (p : Entry → Bool) (stamp : Stamp) (e : Entry) (j : Journal) :
    (j.record stamp e).timesOf p = j.timesOf p ++ if p e then [stamp.time] else [] := by
  cases h : p e <;> simp [timesOf, record, List.filter_append, h]

theorem timesOf_note {p : Entry → Bool} (hp : ∀ b s m, p (.log b s m) = false) (stamp : Stamp)
    (n : Notice) (j : Journal) : (j.note stamp n).timesOf p = j.timesOf p := by
  unfold note say
  split
  · rw [write, timesOf_record, hp]
    exact List.append_nil _
  · rfl

end Journal

namespace Solo

/-- When there were dials. -/
def dialTimes (s : Solo DialScript) : List Nat := s.journal.timesOf Entry.isDial

/-- When there were advertisements. -/
def sendTimes (s : Solo DialScript) : List Nat := s.journal.timesOf Entry.isSend

/-- A number of turns at one time, with the dials and the advertisements in them. -/
structure Leads (now turns dials sends : Nat) (s s' : Solo DialScript) : Prop where
  steps : Reactor.steps now turns s = s'
  dials : s'.dialTimes = s.dialTimes ++ List.replicate dials now
  sends : s'.sendTimes = s.sendTimes ++ List.replicate sends now

variable {now : Nat} {s s' s'' : Solo DialScript}

theorem Leads.trans {m n d d' x x' : Nat} (h : Leads now m d x s s')
    (h' : Leads now n d' x' s' s'') :
    Leads now (m + n) (d + d') (x + x') s s'' := by
  refine ⟨?_, ?_, ?_⟩
  · rw [Reactor.steps_add, h.steps, h'.steps]
  · rw [h'.dials, h.dials, List.append_assoc, List.replicate_append_replicate]
  · rw [h'.sends, h.sends, List.append_assoc, List.replicate_append_replicate]

/-- The script after some acts. -/
def follow (m : DialScript) (es : List Effect) : DialScript :=
  es.foldl (fun m e => if e.isDial then m.afterDial else m) m

/-- What is seen of an act, by an advertiser that has its connection if it sends. -/
theorem perform_spec (stamp : Stamp) (a : Advertiser) (e : Effect) (j : Journal) (m : DialScript)
    (hc : a.connection.isSome = true ∨ e.isSend = false) :
    (e.perform stamp a (j, m)).1.timesOf Entry.isDial =
        j.timesOf Entry.isDial ++ List.replicate (if e.isDial then 1 else 0) stamp.time ∧
      (e.perform stamp a (j, m)).1.timesOf Entry.isSend =
        j.timesOf Entry.isSend ++ List.replicate (if e.isSend then 1 else 0) stamp.time ∧
      (e.perform stamp a (j, m)).2 = if e.isDial then m.afterDial else m := by
  have hnone (q : List Nat) : q = q ++ List.replicate 0 stamp.time := (List.append_nil q).symm
  cases e with
  | note n =>
    exact ⟨(Journal.timesOf_note (fun _ _ _ => rfl) stamp n j).trans (hnone _),
      (Journal.timesOf_note (fun _ _ _ => rfl) stamp n j).trans (hnone _), rfl⟩
  | dial => exact ⟨Journal.timesOf_record .., Journal.timesOf_record .., rfl⟩
  | armed => exact ⟨hnone _, hnone _, rfl⟩
  | exit h code => exact ⟨Journal.timesOf_record .., Journal.timesOf_record .., rfl⟩
  | call c fault =>
    cases hcon : a.connection with
    | none =>
      have hs : Effect.isSend (.call c fault) = false := by
        rcases hc with hc | hc
        · rw [hcon] at hc
          cases hc
        · exact hc
      simp only [Effect.perform, hcon, hs]
      exact ⟨hnone _, hnone _, rfl⟩
    | some x =>
      have hr (p : Entry → Bool) := Journal.timesOf_record p stamp (.call x.number c) j
      simp only [Effect.perform, hcon]
      refine ⟨(hr _).trans rfl, (hr _).trans ?_, rfl⟩
      cases c <;> rfl

theorem performAll_spec (stamp : Stamp) (a : Advertiser) (es : List Effect)
    (s : Journal × DialScript) (hc : a.connection.isSome = true ∨ ∀ e ∈ es, e.isSend = false) :
    let r := es.foldl (fun js e => e.perform stamp a js) s
    r.1.timesOf Entry.isDial =
        s.1.timesOf Entry.isDial ++ List.replicate (es.countP (·.isDial)) stamp.time ∧
      r.1.timesOf Entry.isSend =
        s.1.timesOf Entry.isSend ++ List.replicate (es.countP (·.isSend)) stamp.time ∧
      r.2 = follow s.2 es := by
  induction es generalizing s with
  | nil => exact ⟨(List.append_nil _).symm, (List.append_nil _).symm, rfl⟩
  | cons e es ih =>
    obtain ⟨hd, hs, hm⟩ := perform_spec stamp a e s.1 s.2 (hc.imp_right fun h => h e (by simp))
    obtain ⟨hd', hs', hm'⟩ := ih (e.perform stamp a s)
      (hc.imp_right fun h x hx => h x (List.mem_cons_of_mem e hx))
    refine ⟨hd'.trans ?_, hs'.trans ?_, hm'.trans ?_⟩
    · rw [hd, List.append_assoc, List.replicate_append_replicate, List.countP_cons, Nat.add_comm]
    · rw [hs, List.append_assoc, List.replicate_append_replicate, List.countP_cons, Nat.add_comm]
    · rw [hm]
      rfl

/-- Messages do not count. -/
theorem acts_spec (u : Turn) (m : DialScript) :
    u.effects.countP (·.isDial) = u.acts.countP (·.isDial) ∧
      u.effects.countP (·.isSend) = u.acts.countP (·.isSend) ∧
      follow m u.effects = follow m u.acts := by
  refine ⟨?_, ?_, ?_⟩
  · rw [Turn.acts, List.countP_filter]
    exact congrArg (u.effects.countP ·) (funext fun e => by cases e <;> rfl)
  · rw [Turn.acts, List.countP_filter]
    exact congrArg (u.effects.countP ·)
      (funext fun e => by cases e <;> simp [Effect.isSend, Effect.isNote])
  · rw [Turn.acts, follow, follow, List.foldl_filter]
    refine congrArg (List.foldl · m u.effects) (funext fun m => funext fun e => ?_)
    cases e <;> rfl

/-- A turn of the advertiser. -/
theorem exists_leads {u : Turn}
    (hu : s.advertiser.step? now (Medium.conditions s.advertiser.profile.link s.medium) = some u)
    (hc : u.state.connection.isSome = true ∨ ∀ e ∈ u.acts, e.isSend = false) :
    ∃ s', Leads now 1 (u.acts.countP (·.isDial)) (u.acts.countP (·.isSend)) s s' ∧
      s'.advertiser = u.state ∧ s'.medium = follow s.medium u.acts := by
  have hc : u.state.connection.isSome = true ∨ ∀ e ∈ u.effects, e.isSend = false := by
    refine hc.imp_right fun h e he => ?_
    cases hn : e.isNote with
    | true => cases e <;> simp_all [Effect.isNote, Effect.isSend]
    | false => exact h e (List.mem_filter.mpr ⟨he, by simp [hn]⟩)
  obtain ⟨hd, hs, hm⟩ := performAll_spec ⟨now, none⟩ u.state u.effects (s.journal, s.medium) hc
  obtain ⟨hcd, hcs, hcm⟩ := acts_spec u s.medium
  rw [hcd] at hd
  rw [hcs] at hs
  rw [hcm] at hm
  let r := u.effects.foldl (fun js e => e.perform ⟨now, none⟩ u.state js) (s.journal, s.medium)
  have hstep : Reactor.step? now s =
      some { s with advertiser := u.state, journal := r.1, medium := r.2 } :=
    congrArg (Option.map _) hu
  refine ⟨{ s with advertiser := u.state, journal := r.1, medium := r.2 }, ⟨?_, hd, hs⟩, rfl, hm⟩
  simp only [Reactor.steps, hstep]

/-- An advertiser that has no connection yet, and is not told to stop. -/
structure Dialing (p : Profile) (phase : Phase) (alarm : Option Alarm) (mailbox : List Event)
    (a : Advertiser) : Prop where
  profile : a.profile = p
  phase : a.phase = phase
  canceled : a.canceled = false
  sending : a.sending = false
  sendPending : a.sendPending = false
  connection : a.connection = none
  alarm : a.alarm = alarm
  mailbox : a.mailbox = mailbox

/-- An advertiser whose connection is open and does not hold sends. -/
structure Active (p : Profile) (sending : Bool) (alarm : Option Alarm) (waiting : List Nat)
    (mailbox : List Event) (a : Advertiser) : Prop where
  profile : a.profile = p
  phase : a.phase = .active
  sending : a.sending = sending
  sendPending : a.sendPending = false
  connection : ∃ c, a.connection = some c ∧ c.isOpen = true ∧ c.holdSends = false ∧
    c.inbox = [] ∧ c.waiting = waiting
  alarm : a.alarm = alarm
  mailbox : a.mailbox = mailbox

variable {p : Profile} {alarm : Option Alarm} {waiting : List Nat} {mailbox : List Event}
  {a : Advertiser}

/-- A script by which the next `n` dials fail, and nothing else does. -/
structure Fails (n : Nat) (m : DialScript) : Prop where
  failing : m.failing = n
  alwaysFail : m.alwaysFail = false
  holdSends : m.holdSends = false
  filterErrno : m.filterErrno = 0
  joinErrno : m.joinErrno = 0

theorem step?_of_mailbox {e : Event} (k : Conditions) (h : a.mailbox = [e]) :
    a.step? now k = some (Turn.handle now k e { state := { a with mailbox := [] } }) := by
  simp [Advertiser.step?, h]

theorem exists_dial {phase : Phase} {e : Event} (h : Dialing p phase none [e] a) (he : a.Dials e)
    (now : Nat) (k : Conditions) :
    ∃ b, Dialing p phase none [] b ∧ a.step? now k = some (Turn.dial now k { state := b }) := by
  rw [step?_of_mailbox k h.mailbox]
  rcases he with ⟨⟨x, rfl⟩, hi, -⟩ | ⟨rfl, hp⟩
  · refine ⟨{ a with mailbox := [], onExit := some x }, ?_, congrArg some (if_pos hi)⟩
    exact { h with mailbox := rfl }
  · refine ⟨{ a with mailbox := [] }, { h with mailbox := rfl }, ?_⟩
    simp [Turn.handle, Turn.alarmed, hp, h.canceled]

/-- A dial that fails is tried again after the backoff. -/
theorem exists_fails {phase : Phase} {e : Event} {n : Nat}
    (h : Dialing p phase none [e] s.advertiser) (he : s.advertiser.Dials e)
    (hm : Fails (n + 1) s.medium) (now : Nat) :
    ∃ s', Leads now 1 1 0 s s' ∧ Fails n s'.medium ∧
      Dialing p .connecting (some ⟨.retry, now + p.backoff⟩) [] s'.advertiser := by
  let k := Medium.conditions s.advertiser.profile.link s.medium
  obtain ⟨b, hb, hu⟩ := exists_dial h he now k
  have hf : s.medium.fails = true := by simp [DialScript.fails, hm.failing]
  have hk : k.dial = .error ⟨.generic, Errno.addressNotAvailable⟩ := if_pos hf
  obtain ⟨hst, hac⟩ : (Turn.dial now k { state := b }).state = _ ∧
      (Turn.dial now k { state := b }).acts = [] ++ [.dial, .armed] :=
    Turn.dial_fails hb.canceled hb.alarm hk
  obtain ⟨s', hl, ha, hm'⟩ := exists_leads hu (Or.inr (by simp [hac, Effect.isSend]))
  rw [hac] at hl hm'
  refine ⟨s', hl, ?_, ?_⟩
  · have hm' : s'.medium = { s.medium with failing := s.medium.failing - 1 } :=
      hm'.trans (if_pos hf)
    rw [hm']
    exact { hm with failing := by simp [hm.failing] }
  · rw [ha, hst]
    exact { hb with phase := rfl, alarm := by simp [hb.profile] }

/-- A turn after which the connection is open. -/
theorem exists_active {u : Turn} {sending : Bool} {acts : List Effect}
    (hu : s.advertiser.step? now (Medium.conditions s.advertiser.profile.link s.medium) = some u)
    (h : Active p sending alarm waiting mailbox u.state) (hac : u.acts = acts) :
    ∃ s', Leads now 1 (acts.countP (·.isDial)) (acts.countP (·.isSend)) s s' ∧
      Active p sending alarm waiting mailbox s'.advertiser := by
  obtain ⟨c, hc, -⟩ := h.connection
  obtain ⟨s', hl, ha, -⟩ := exists_leads hu (Or.inl (Option.isSome_of_eq_some hc))
  rw [hac] at hl
  exact ⟨s', hl, ha ▸ h⟩

/-- The connection is there, whatever else happens. -/
theorem Active.isSome {sending : Bool} (h : Active p sending alarm waiting mailbox a) :
    a.connection.isSome = true := by
  obtain ⟨c, hc, -⟩ := h.connection
  exact Option.isSome_of_eq_some hc

/-- A receive waits, since nothing has arrived before it. -/
theorem Active.listen {sending : Bool} (h : Active p sending alarm waiting mailbox a) :
    Active p sending alarm (waiting ++ [receiveRoom]) mailbox a.listen := by
  obtain ⟨c, hc, ho, hh, hi, hw⟩ := h.connection
  have hr : c.receive receiveRoom = ({ c with waiting := c.waiting ++ [receiveRoom] }, []) := by
    simp [Connection.receive, ho, hi]
  have ha : a.listen = { a with
      connection := some { c with waiting := c.waiting ++ [receiveRoom] }
      mailbox := a.mailbox } := by
    rw [Advertiser.listen, operate_of_some hc, hr]
    simp
  rw [ha]
  exact { h with connection := ⟨_, rfl, ho, hh, hi, by rw [hw]⟩ }

/-- An advertisement leaves at once. -/
theorem Active.want (h : Active p false alarm waiting mailbox a) {k : Conditions}
    (hk : k.send = none) :
    Active p true alarm waiting (mailbox ++ [.sent none]) (a.want k) ∧
      a.wanted k = [.call (.send p.advert) none] := by
  obtain ⟨c, hc, ho, hh, hi, hw⟩ := h.connection
  have hs : c.send k.send = (c, [.sent none]) := by simp [Connection.send, ho, hh, hk]
  have ha : a.want k = { a with
      sending := true
      connection := some c
      mailbox := a.mailbox ++ [.sent none] } := by
    have hc : ({ a with sending := true } : Advertiser).connection = some c := hc
    rw [Advertiser.want, h.sending, if_neg Bool.false_ne_true, operate_of_some hc, hs]
    rfl
  rw [ha]
  refine ⟨{ h with
    sending := rfl
    connection := ⟨c, rfl, ho, hh, hi, hw⟩
    mailbox := by rw [h.mailbox] }, ?_⟩
  simp [wanted, h.sending, h.profile, hk]

/-- A dial that succeeds leads to the first advertisement. -/
theorem exists_opens {phase : Phase} {e : Event} (h : Dialing p phase none [e] s.advertiser)
    (he : s.advertiser.Dials e) (hm : Fails 0 s.medium) (now : Nat) :
    ∃ s', Leads now 1 1 1 s s' ∧
      Active p true none [receiveRoom] [.sent none] s'.advertiser := by
  obtain ⟨b, hb, hu⟩ := exists_dial h he now (Medium.conditions s.advertiser.profile.link s.medium)
  have hf : s.medium.fails = false := by simp [DialScript.fails, hm.failing, hm.alwaysFail]
  let d : Endpoint :=
    { number := s.medium.dialed
      source := ⟨DialScript.localAddress, 0⟩
      holdSends := s.medium.holdSends }
  let k := Medium.conditions s.advertiser.profile.link s.medium
  have hd : k.dial = .ok d := if_neg (by simp [hf])
  have hfilter : k.filter = none := if_pos hm.filterErrno
  have hjoin : k.join = none := if_pos hm.joinErrno
  obtain ⟨u, hu', hst, hac⟩ := Turn.dial_connects now (t := { state := b }) hb.canceled hd
  have hopen : Active p false none [] [] { u.state with phase := .active } := by
    rw [hst]
    exact
      { profile := hb.profile
        phase := rfl
        sending := hb.sending
        sendPending := hb.sendPending
        connection := ⟨d.connect, rfl, rfl, hm.holdSends, rfl, rfl⟩
        alarm := hb.alarm
        mailbox := hb.mailbox }
  obtain ⟨hst', hac'⟩ := Turn.activate_opens (c := d.connect) (k := k) (t := u)
    hopen.isSome hopen.sending hfilter hjoin
  obtain ⟨hactive, -⟩ := hopen.listen.want (k := k) rfl
  rw [← hst'] at hactive
  rw [hac] at hac'
  exact exists_active (hu.trans (congrArg some hu')) hactive hac'

/-- An alarm that goes off leads to an advertisement. -/
theorem exists_ticks
    (h : Active p false none waiting [.alarm .advertise false] s.advertiser) (now : Nat) :
    ∃ s', Leads now 1 0 1 s s' ∧ Active p true none waiting [.sent none] s'.advertiser := by
  let k := Medium.conditions s.advertiser.profile.link s.medium
  let a : Advertiser := { s.advertiser with mailbox := [] }
  have ha : Active p false none waiting [] a := { h with mailbox := rfl }
  have hu : s.advertiser.step? now k = some (Turn.sendAdvert k { state := a }) := by
    rw [step?_of_mailbox k h.mailbox]
    simp [Turn.handle, Turn.alarmed, h.phase, a]
  obtain ⟨hactive, hwanted⟩ := ha.want (k := k) rfl
  have hac := Turn.acts_sendAdvert (k := k) (t := { state := a }) ha.isSome
  rw [hwanted] at hac
  rw [← Turn.state_sendAdvert k { state := a }] at hactive
  exact exists_active hu hactive hac

section Receiving

variable {data : Bytes}

theorem step?_of_received
    (h : Active p false alarm waiting [.received (.ok data)] s.advertiser) (k : Conditions) :
    s.advertiser.step? now k =
      some (Turn.solicit k data { state := { s.advertiser with mailbox := [] } }).receive := by
  rw [step?_of_mailbox k h.mailbox]
  simp [Turn.handle, Turn.received, h.phase]

/-- A solicitation is answered, and the next receive follows. -/
theorem exists_answers (h : Active p false alarm waiting [.received (.ok data)] s.advertiser)
    (hs : s.advertiser.solicited data = true) (now : Nat) :
    ∃ s', Leads now 1 0 1 s s' ∧
      Active p true alarm (waiting ++ [receiveRoom]) [.sent none] s'.advertiser := by
  let k := Medium.conditions s.advertiser.profile.link s.medium
  let a : Advertiser := { s.advertiser with mailbox := [] }
  have ha : Active p false alarm waiting [] a := { h with mailbox := rfl }
  obtain ⟨hactive, hwanted⟩ := ha.want (k := k) rfl
  obtain ⟨hst, hac⟩ := Turn.solicit_answers (k := k) (t := { state := a }) ha.isSome hs
  rw [← hst] at hactive
  have hlisten := hactive.listen
  rw [← Turn.state_receive] at hlisten
  have hreceive := Turn.acts_receive hactive.isSome
  rw [hac, hwanted] at hreceive
  exact exists_active (step?_of_received h k) hlisten hreceive

/-- Anything else is not. -/
theorem exists_ignores (h : Active p false alarm waiting [.received (.ok data)] s.advertiser)
    (hs : s.advertiser.solicited data = false) (now : Nat) :
    ∃ s', Leads now 1 0 0 s s' ∧
      Active p false alarm (waiting ++ [receiveRoom]) [] s'.advertiser := by
  let k := Medium.conditions s.advertiser.profile.link s.medium
  let a : Advertiser := { s.advertiser with mailbox := [] }
  have ha : Active p false alarm waiting [] a := { h with mailbox := rfl }
  obtain ⟨hst, hac⟩ := Turn.solicit_ignores (k := k) (t := { state := a }) hs
  have hactive : Active p false alarm waiting [] (Turn.solicit k data { state := a }).state :=
    hst ▸ ha
  have hlisten := hactive.listen
  rw [← Turn.state_receive] at hlisten
  have hreceive := Turn.acts_receive hactive.isSome
  rw [hac] at hreceive
  exact exists_active (step?_of_received h k) hlisten hreceive

end Receiving

/-- When an advertisement has left, the next one is due after the interval. -/
theorem exists_rearms (h : Active p true alarm waiting [.sent none] s.advertiser) (now : Nat) :
    ∃ s', Leads now 1 0 0 s s' ∧
      Active p false (some ⟨.advertise, now + p.interval⟩) waiting s.advertiser.abortedAlarm
        s'.advertiser := by
  let k := Medium.conditions s.advertiser.profile.link s.medium
  let a : Advertiser := { s.advertiser with sending := false, mailbox := [] }
  have hu : s.advertiser.step? now k = some (Turn.afterSend now k { state := a }) := by
    rw [step?_of_mailbox k h.mailbox]
    simp [Turn.handle, Turn.sent, h.phase, a]
  obtain ⟨hst, hac⟩ := Turn.afterSend_waits (k := k) (t := { state := a }) now h.sendPending
  have hactive : Active p false (some ⟨.advertise, now + p.interval⟩) waiting
      s.advertiser.abortedAlarm (Turn.afterSend now k { state := a }).state := by
    rw [hst]
    exact { h with sending := rfl, alarm := by simp [a, h.profile], mailbox := rfl }
  exact exists_active hu hactive hac

/-- An alarm that was taken back leads to nothing. -/
theorem exists_rests
    (h : Active p false alarm waiting [.alarm .advertise true] s.advertiser) (now : Nat) :
    ∃ s', Leads now 1 0 0 s s' ∧ Active p false alarm waiting [] s'.advertiser := by
  let k := Medium.conditions s.advertiser.profile.link s.medium
  let a : Advertiser := { s.advertiser with mailbox := [] }
  have hu : s.advertiser.step? now k = some { state := a } := by
    rw [step?_of_mailbox k h.mailbox]
    simp [Turn.handle, Turn.alarmed, h.phase, a]
  exact exists_active hu { h with mailbox := rfl } rfl

/-- Once an advertisement has left, and the alarm before it was taken back, only the next one is
waited for. -/
theorem exists_settles (h : Active p true alarm waiting [.sent none] s.advertiser)
    (ha : ∀ x ∈ alarm, x.purpose = .advertise) (now : Nat) :
    ∃ n s', n ≤ 2 ∧ Leads now n 0 0 s s' ∧
      Active p false (some ⟨.advertise, now + p.interval⟩) waiting [] s'.advertiser := by
  obtain ⟨s', hl, h'⟩ := exists_rearms h now
  rw [abortedAlarm, h.alarm] at h'
  cases alarm with
  | none => exact ⟨1, s', by omega, hl, h'⟩
  | some x =>
    rw [Option.toList_some, List.map_singleton, ha x rfl] at h'
    obtain ⟨s'', hl', h''⟩ := exists_rests h' now
    exact ⟨2, s'', Nat.le_refl 2, hl.trans hl', h''⟩

/-- The dials and the advertisements until nothing is left to do. -/
structure Drains (now dials sends : Nat) (s s' : Solo DialScript) : Prop where
  drain : Reactor.drain now s = s'
  dials : s'.dialTimes = s.dialTimes ++ List.replicate dials now
  sends : s'.sendTimes = s.sendTimes ++ List.replicate sends now

theorem weight_le_work {e : Event} (h : a.mailbox = [e]) : e.weight ≤ a.work := by
  rw [work_eq, h, total_cons]
  omega

theorem step?_of_mailbox_nil (h : s.advertiser.mailbox = []) (now : Nat) :
    Reactor.step? now s = none := by
  change Option.map _ (s.advertiser.step? _ _) = none
  rw [Advertiser.step?, h]
  rfl

theorem Leads.drain {n dials sends : Nat} {e : Event} (h : Leads now n dials sends s s')
    (he : s.advertiser.mailbox = [e]) (hn : n ≤ e.weight) (hm : s'.advertiser.mailbox = []) :
    Drains now dials sends s s' := by
  have hq : Reactor.step? now s' = none := step?_of_mailbox_nil hm now
  exact ⟨Reactor.drain_eq_of_steps h.steps hq (Nat.le_trans hn (weight_le_work he)), h.dials,
    h.sends⟩

section Dials

variable {phase : Phase} {e : Event}

theorem drain_fails {n : Nat} (h : Dialing p phase none [e] s.advertiser)
    (he : s.advertiser.Dials e) (hm : Fails (n + 1) s.medium) (now : Nat) :
    ∃ s', Drains now 1 0 s s' ∧ Fails n s'.medium ∧
      Dialing p .connecting (some ⟨.retry, now + p.backoff⟩) [] s'.advertiser := by
  obtain ⟨s', hl, hm', h'⟩ := exists_fails h he hm now
  exact ⟨s', hl.drain h.mailbox (one_le_weight e) h'.mailbox, hm', h'⟩

theorem drain_opens (h : Dialing p phase none [e] s.advertiser) (he : s.advertiser.Dials e)
    (hm : Fails 0 s.medium) (now : Nat) :
    ∃ s', Drains now 1 1 s s' ∧
      Active p false (some ⟨.advertise, now + p.interval⟩) [receiveRoom] [] s'.advertiser := by
  obtain ⟨s', hl, h'⟩ := exists_opens h he hm now
  obtain ⟨n, s'', hn, hl', h''⟩ := exists_settles h' (by simp) now
  have hw := he.weight
  exact ⟨s'', (hl.trans hl').drain h.mailbox (by omega) h''.mailbox, h''⟩

end Dials

theorem drain_ticks (h : Active p false none waiting [.alarm .advertise false] s.advertiser)
    (now : Nat) :
    ∃ s', Drains now 0 1 s s' ∧
      Active p false (some ⟨.advertise, now + p.interval⟩) waiting [] s'.advertiser := by
  obtain ⟨s', hl, h'⟩ := exists_ticks h now
  obtain ⟨n, s'', hn, hl', h''⟩ := exists_settles h' (by simp) now
  have hw : (Event.alarm .advertise false).weight = 5 := rfl
  exact ⟨s'', (hl.trans hl').drain h.mailbox (by omega) h''.mailbox, h''⟩

theorem drain_answers {data : Bytes} {t : Nat}
    (h : Active p false (some ⟨.advertise, t⟩) waiting [.received (.ok data)] s.advertiser)
    (hs : s.advertiser.solicited data = true) (now : Nat) :
    ∃ s', Drains now 0 1 s s' ∧
      Active p false (some ⟨.advertise, now + p.interval⟩) (waiting ++ [receiveRoom]) []
        s'.advertiser := by
  obtain ⟨s', hl, h'⟩ := exists_answers h hs now
  obtain ⟨n, s'', hn, hl', h''⟩ := exists_settles h' (by simp) now
  have hw : (Event.received (.ok data)).weight = 5 := rfl
  exact ⟨s'', (hl.trans hl').drain h.mailbox (by omega) h''.mailbox, h''⟩

theorem drain_ignores {data : Bytes}
    (h : Active p false alarm waiting [.received (.ok data)] s.advertiser)
    (hs : s.advertiser.solicited data = false) (now : Nat) :
    ∃ s', Drains now 0 0 s s' ∧
      Active p false alarm (waiting ++ [receiveRoom]) [] s'.advertiser := by
  obtain ⟨s', hl, h'⟩ := exists_ignores h hs now
  exact ⟨s', hl.drain h.mailbox (one_le_weight _) h'.mailbox, h'⟩

end Solo

end RouterAdvert
