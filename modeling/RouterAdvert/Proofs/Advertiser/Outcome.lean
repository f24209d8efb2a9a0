import RouterAdvert.Proofs.Advertiser.Turn

/-! What handling one event comes to: the advertiser afterwards and what it did, messages apart.
`Sound.outcome` says that there is nothing else; what holds of every run follows from it case by
case. -/
namespace RouterAdvert.Advertiser

/-- Whether an advertiser dials when it comes to an event. -/
def Dials (a : Advertiser) (e : Event) : Prop :=
  (∃ h, e = .start h) ∧ a.phase = .idle ∧ a.canceled = false ∨
    e = .alarm .retry false ∧ a.phase = .connecting

/-- Whether an event is, by itself, the end of an advertiser, and with which code. -/
def Ends (a : Advertiser) (e : Event) (code : ErrorCode) : Prop :=
  match e with
  | .start _ => a.phase = .idle ∧ a.canceled = true ∧ code = .canceled
  | .cancel => (a.phase = .connecting ∨ a.phase = .active) ∧ code = .canceled
  | .received (.error x) => a.phase = .active ∧ code = x
  | .sent (some x) => a.phase = .active ∧ Turn.isPassing x = false ∧ code = x
  | _ => False

/-- Whether nothing follows from an event. -/
def Rests (a : Advertiser) (e : Event) : Prop :=
  match e with
  | .start _ => a.phase ≠ .idle
  | .cancel => a.phase = .idle ∨ a.phase = .closed
  | .alarm .advertise true => a.phase = .active ∨ a.phase = .closed
  | _ => a.phase = .closed

/-- Whether a send that has completed leaves the advertiser at work. -/
def Goes (a : Advertiser) (r : Option ErrorCode) : Prop :=
  a.phase = .active ∧ ∀ x, r = some x → Turn.isPassing x = true

/-- What an event comes to for an advertiser that has taken it from its mailbox: the advertiser
afterwards and its acts. -/
inductive Outcome (now : Nat) (k : Conditions) (a : Advertiser) :
    Event → Advertiser → List Effect → Prop
  | rests {e : Event} (h : a.Rests e) : Outcome now k a e (a.accept e) []
  | ends {e : Event} {code : ErrorCode} (h : a.Ends e code) :
    Outcome now k a e (a.accept e).ended ((a.accept e).farewell code)
  | fails {e : Event} {code : ErrorCode} (h : a.Dials e) (hk : k.dial = .error code) :
    Outcome now k a e
      { a.accept e with
        phase := .connecting
        dials := a.dials + 1
        alarm := some ⟨.retry, now + a.profile.backoff⟩ }
      [.dial, .armed]
  | unfiltered {e : Event} {d : Endpoint} {code : ErrorCode} (h : a.Dials e) (hk : k.dial = .ok d)
    (hf : k.filter = some code) :
    Outcome now k a e ((a.accept e).dialed d).ended
      ([.dial, .call .filter (some code)] ++ ((a.accept e).dialed d).farewell code)
  | unjoined {e : Event} {d : Endpoint} {code : ErrorCode} (h : a.Dials e) (hk : k.dial = .ok d)
    (hf : k.filter = none) (hj : k.join = some code) :
    Outcome now k a e ((a.accept e).dialed d).ended
      ([.dial, .call .filter none, .call .join (some code)] ++
        ((a.accept e).dialed d).farewell code)
  | opens {e : Event} {d : Endpoint} (h : a.Dials e) (hk : k.dial = .ok d)
    (hf : k.filter = none) (hj : k.join = none) :
    Outcome now k a e (({ (a.accept e).dialed d with phase := .active }.listen).want k)
      [.dial, .call .filter none, .call .join none, .call .receive none,
        .call (.send a.profile.advert) k.send]
  | ticks (h : a.phase = .active) :
    Outcome now k a (.alarm .advertise false) (a.want k) (a.wanted k)
  | answers {data : Bytes} (h : a.phase = .active) (hs : a.solicited data = true) :
    Outcome now k a (.received (.ok data)) (a.want k).listen (a.wanted k ++ [.call .receive none])
  | ignores {data : Bytes} (h : a.phase = .active) (hs : a.solicited data = false) :
    Outcome now k a (.received (.ok data)) a.listen [.call .receive none]
  | follows {r : Option ErrorCode} (h : a.Goes r) (hp : a.sendPending = true) :
    Outcome now k a (.sent r) ({ a with sending := false, sendPending := false }.want k)
      [.call (.send a.profile.advert) k.send]
  | waits {r : Option ErrorCode} (h : a.Goes r) (hp : a.sendPending = false) :
    Outcome now k a (.sent r)
      { a with
        sending := false
        alarm := some ⟨.advertise, now + a.profile.interval⟩
        mailbox := a.mailbox ++ a.abortedAlarm }
      [.armed]

theorem isSome_connection_want (a : Advertiser) (k : Conditions) :
    (a.want k).connection.isSome = a.connection.isSome := by
  unfold want
  split
  · rfl
  · exact Option.isSome_map

/-- The advertiser when `e` is its oldest event, before it takes it. -/
def facing (e : Event) (a : Advertiser) : Advertiser := { a with mailbox := e :: a.mailbox }

variable {a : Advertiser} {e : Event} {now : Nat} {k : Conditions}

theorem eq_facing {rest : List Event} (h : a.mailbox = e :: rest) :
    a = facing e { a with mailbox := rest } := by
  rw [facing, ← h]

theorem Outcome.of_dial (h : a.Dials e) (hc : (a.accept e).canceled = false)
    (ha : a.alarm = none) (hs : (a.accept e).sending = false) :
    Outcome now k a e (Turn.dial now k { state := a.accept e }).state
      (Turn.dial now k { state := a.accept e }).acts := by
  cases hk : k.dial with
  | error code =>
    obtain ⟨hst, hac⟩ := Turn.dial_fails (t := { state := a.accept e }) hc ha hk
    rw [hst, hac]
    exact .fails h hk
  | ok d =>
    obtain ⟨u, hu, hst, hac⟩ := Turn.dial_connects now (t := { state := a.accept e }) hc hk
    have hcon : u.state.connection.isSome := by rw [hst]; rfl
    have hp : u.state.phase ≠ .closed := by simp [hst, dialed]
    rw [hu]
    cases hf : k.filter with
    | some code =>
      obtain ⟨hst', hac'⟩ := Turn.activate_unfiltered (c := d.connect) hcon hp hf
      rw [hst', hac', hst, hac, Turn.acts_new]
      exact .unfiltered h hk hf
    | none =>
      cases hj : k.join with
      | some code =>
        obtain ⟨hst', hac'⟩ := Turn.activate_unjoined (c := d.connect) hcon hp hf hj
        rw [hst', hac', hst, hac, Turn.acts_new]
        exact .unjoined h hk hf hj
      | none =>
        obtain ⟨hst', hac'⟩ :=
          Turn.activate_opens (c := d.connect) hcon (by rw [hst]; exact hs) hf hj
        rw [hst', hac', hst, hac, Turn.acts_new]
        exact .opens h hk hf hj

theorem Outcome.of_finish {code : ErrorCode} {t : Turn} (h : a.Ends e code)
    (ht : t.state = a.accept e) (hn : t.acts = []) (hp : a.phase ≠ .closed) :
    Outcome now k a e (t.finish code).state (t.finish code).acts := by
  have hp' : t.state.phase ≠ .closed := by rwa [ht]
  rw [Turn.state_finish hp', Turn.acts_finish hp', ht, hn]
  exact .ends h

/-- What follows a send that leaves the advertiser at work. -/
theorem Outcome.of_afterSend {r : Option ErrorCode} {t : Turn} (hg : a.Goes r)
    (hc : a.connection.isSome) (ht : t.state = { a with sending := false }) (hn : t.acts = []) :
    Outcome now k a (.sent r) (t.afterSend now k).state (t.afterSend now k).acts := by
  cases hs : a.sendPending with
  | true =>
    obtain ⟨hst, hac⟩ := Turn.afterSend_follows now (k := k) (t := t)
      (by rw [ht]; exact hc) (by rw [ht]) (by rw [ht]; exact hs)
    rw [hst, hac, ht, hn]
    exact .follows hg hs
  | false =>
    obtain ⟨hst, hac⟩ := Turn.afterSend_waits now (k := k) (t := t) (by rw [ht]; exact hs)
    rw [hst, hac, ht, hn]
    exact .waits hg hs

namespace Sound

theorem alarm_of_dials (h : Sound (a.facing e)) (hd : a.Dials e) : a.alarm = none := by
  rcases hd with ⟨-, hi, -⟩ | ⟨rfl, hc⟩
  · exact h.alarm_eq_none (Or.inl hi)
  · -- The wait has gone off, so that no other one can be set.
    have hr := h.retry hc
    rw [facing, List.countP_cons_of_pos rfl] at hr
    cases hx : a.alarm with
    | none => rfl
    | some y => simp [hx] at hr

theorem outcome_start {x : ExitHandler} (h : Sound (a.facing (.start x))) :
    let t := Turn.started now k x { state := a }
    Outcome now k a (.start x) t.state t.acts := by
  intro t
  by_cases hi : a.phase = .idle
  · have hb : a.accept (.start x) = { a with onExit := some x } := accept_start_of_idle hi x
    have ht : t = Turn.dial now k { state := a.accept (.start x) } := by
      rw [hb]
      exact if_pos hi
    obtain ⟨-, hs, -⟩ := h.unconnected (Or.inl hi)
    cases hc : a.canceled with
    | false =>
      rw [ht]
      exact .of_dial (Or.inl ⟨⟨x, rfl⟩, hi, hc⟩) (by rw [hb]; exact hc)
        (h.alarm_eq_none (Or.inl hi)) (by rw [hb]; exact hs)
    | true =>
      have hf : t = Turn.finish .canceled { state := a.accept (.start x) } := by
        rw [ht, hb]
        exact if_pos hc
      rw [hf]
      exact .of_finish ⟨hi, hc, rfl⟩ rfl rfl (by simp [hi])
  · have hb : a.accept (.start x) = a := accept_start_of_ne_idle hi x
    have ht : t = { state := a.accept (.start x) } := by
      rw [hb]
      exact if_neg hi
    rw [ht]
    exact .rests (e := .start x) hi

theorem outcome_cancel (a : Advertiser) (now : Nat) (k : Conditions) :
    let t := Turn.cancel { state := a }
    Outcome now k a .cancel t.state t.acts := by
  intro t
  by_cases hi : a.phase = .idle
  · have ht : t = { state := a.accept .cancel } := if_pos hi
    rw [ht]
    exact .rests (e := .cancel) (Or.inl hi)
  · have ht : t = Turn.finish .canceled { state := a.accept .cancel } := if_neg hi
    by_cases hc : a.phase = .closed
    · have hf : t = { state := a.accept .cancel } := ht.trans (if_pos hc)
      rw [hf]
      exact .rests (e := .cancel) (Or.inr hc)
    · rw [ht]
      refine .of_finish ⟨?_, rfl⟩ rfl rfl hc
      cases hp : a.phase <;> simp_all

theorem outcome_alarm {p : Purpose} {aborted : Bool} (h : Sound (a.facing (.alarm p aborted))) :
    let t := Turn.alarmed now k p aborted { state := a }
    Outcome now k a (.alarm p aborted) t.state t.acts := by
  intro t
  have hfit : (Event.alarm p aborted).Fits a.phase := h.fits _ List.mem_cons_self
  by_cases hc : a.phase = .closed
  · have ht : t = { state := a } := if_pos hc
    rw [ht]
    exact .rests (e := .alarm p aborted) (by cases p <;> cases aborted <;> simp [Rests, hc])
  cases p with
  | retry =>
    obtain ⟨hp, rfl⟩ := hfit.resolve_left hc
    have hcan : a.canceled = false := h.canceled_eq_false (Or.inl hp)
    have ht : t = Turn.dial now k { state := a } := by simp [t, Turn.alarmed, hp, hcan]
    obtain ⟨-, hs, -⟩ := h.unconnected (Or.inr hp)
    have hd : a.Dials (.alarm .retry false) := Or.inr ⟨rfl, hp⟩
    rw [ht]
    exact .of_dial hd hcan (h.alarm_of_dials hd) hs
  | advertise =>
    have hp := hfit.resolve_left hc
    cases aborted with
    | true =>
      have ht : t = { state := a } := by simp [t, Turn.alarmed, hp]
      rw [ht]
      exact .rests (e := .alarm .advertise true) (Or.inl hp)
    | false =>
      have ht : t = Turn.sendAdvert k { state := a } := by simp [t, Turn.alarmed, hp]
      rw [ht, Turn.state_sendAdvert, Turn.acts_sendAdvert (h.connected hp), Turn.acts_new]
      exact .ticks hp

theorem outcome_received {r : Except ErrorCode Bytes} (h : Sound (a.facing (.received r))) :
    let t := Turn.received k r { state := a }
    Outcome now k a (.received r) t.state t.acts := by
  intro t
  have hfit : (Event.received r).Fits a.phase := h.fits _ List.mem_cons_self
  by_cases hc : a.phase = .closed
  · have ht : t = { state := a } := if_pos hc
    rw [ht]
    exact .rests (e := .received r) hc
  have hp := hfit.resolve_left hc
  have hcon : a.connection.isSome := h.connected hp
  cases r with
  | error x =>
    by_cases hx : x = .canceled
    · have ht : t = Turn.finish x { state := a } := by simp [t, Turn.received, hp, hx]
      rw [ht]
      exact .of_finish ⟨hp, rfl⟩ rfl rfl hc
    · have ht : t = (Turn.note (.receiveFailed a.profile.link.name x) { state := a }).finish x := by
        simp [t, Turn.received, hp, hx, Turn.name]
      rw [ht]
      exact .of_finish ⟨hp, rfl⟩ rfl (by simp) hc
  | ok data =>
    have ht : t = (Turn.solicit k data { state := a }).receive := by
      simp [t, Turn.received, hp]
    rw [ht, Turn.state_receive]
    cases hs : a.solicited data with
    | true =>
      obtain ⟨hst, hac⟩ := Turn.solicit_answers (k := k) (t := { state := a }) hcon hs
      rw [Turn.acts_receive (by rw [hst, isSome_connection_want]; exact hcon), hst, hac]
      exact .answers hp hs
    | false =>
      obtain ⟨hst, hac⟩ := Turn.solicit_ignores (k := k) (t := { state := a }) hs
      rw [Turn.acts_receive (by rw [hst]; exact hcon), hst, hac]
      exact .ignores hp hs

theorem outcome_sent {r : Option ErrorCode} (h : Sound (a.facing (.sent r))) :
    let t := Turn.sent now k r { state := a }
    Outcome now k a (.sent r) t.state t.acts := by
  intro t
  have hfit : (Event.sent r).Fits a.phase := h.fits _ List.mem_cons_self
  by_cases hc : a.phase = .closed
  · have ht : t = { state := a.accept (.sent r) } := if_pos hc
    rw [ht]
    exact .rests (e := .sent r) hc
  have hp := hfit.resolve_left hc
  have hcon : a.connection.isSome := h.connected hp
  have hb : a.accept (.sent r) = { a with sending := false } := rfl
  cases r with
  | none =>
    have ht : t = Turn.afterSend now k { state := a.accept (.sent none) } := if_neg hc
    rw [ht]
    exact .of_afterSend ⟨hp, by simp⟩ hcon rfl rfl
  | some x =>
    cases hx : Turn.isPassing x with
    | true =>
      have hne : x ≠ .canceled := fun hxc => by
        rw [hxc] at hx
        exact absurd hx (by decide)
      have ht : t = (Turn.note (.advertDropped a.profile.link.name x)
          { state := a.accept (.sent (some x)) }).afterSend now k := by
        simp [t, Turn.sent, hp, hne, hx, hb, Turn.name]
      rw [ht]
      exact .of_afterSend ⟨hp, by simp [hx]⟩ hcon rfl (by simp)
    | false =>
      by_cases hxc : x = .canceled
      · subst hxc
        have ht : t = Turn.finish .canceled { state := a.accept (.sent (some .canceled)) } := by
          simp [t, Turn.sent, hp, hb]
        rw [ht]
        exact .of_finish ⟨hp, hx, rfl⟩ rfl rfl hc
      · have ht : t = (Turn.note (.sendFailed a.profile.link.name x)
            { state := a.accept (.sent (some x)) }).finish x := by
          simp [t, Turn.sent, hp, hxc, hx, hb, Turn.name]
        rw [ht]
        exact .of_finish ⟨hp, hx, rfl⟩ rfl (by simp) hc

/-- Handling the oldest event of a sound advertiser has one of the outcomes above. -/
theorem outcome (h : Sound (a.facing e)) (now : Nat) (k : Conditions) :
    let t := Turn.handle now k e { state := a }
    Outcome now k a e t.state t.acts := by
  cases e with
  | start x => exact h.outcome_start
  | cancel => exact outcome_cancel a now k
  | alarm p aborted => exact h.outcome_alarm
  | received r => exact h.outcome_received
  | sent r => exact h.outcome_sent

theorem connected_of_facing (h : Sound (a.facing e)) (hp : a.phase = .active) :
    a.connection.isSome := h.connected hp

theorem of_facing (h : Sound (a.facing e)) (he : a.phase = .connecting → e.isAlarm = false) :
    Sound a where
  fits x hx := h.fits x (List.mem_cons_of_mem e hx)
  alarm := h.alarm
  unconnected := h.unconnected
  connected := h.connected
  starter := h.starter
  canceled := h.canceled
  retry hp := by
    have hr := h.retry hp
    rwa [facing, List.countP_cons_of_neg (by simp [he hp])] at hr

theorem ended (a : Advertiser) : Sound a.ended where
  fits e _ := e.fits_closed
  alarm x hx := by simp [Advertiser.ended] at hx
  unconnected hp := by simp [Advertiser.ended] at hp
  connected hp := by simp [Advertiser.ended] at hp
  starter := by simp [Advertiser.ended]
  canceled _ := Or.inr rfl
  retry hp := by simp [Advertiser.ended] at hp

/-- What is under way can change freely once there is a connection. -/
theorem sends (h : Sound a) (hp : a.phase = .active) (s p : Bool) :
    Sound { a with sending := s, sendPending := p } where
  fits := h.fits
  alarm := h.alarm
  unconnected hq := by simp [hp] at hq
  connected := h.connected
  starter := h.starter
  canceled := h.canceled
  retry := h.retry

theorem want (h : Sound a) (hp : a.phase = .active) (k : Conditions) : Sound (a.want k) := by
  unfold Advertiser.want
  split
  · exact h.sends hp _ _
  · exact (h.sends hp _ _).operate _

/-- Setting the alarm again reports the old one. -/
theorem rearm (h : Sound a) (hp : a.phase = .active) (t : Nat) :
    Sound { a with
      alarm := some ⟨.advertise, t⟩
      mailbox := a.mailbox ++ a.abortedAlarm } where
  fits e he := by
    rcases List.mem_append.mp he with he | he
    · exact h.fits e he
    · obtain ⟨x, hx, rfl⟩ := List.mem_map.mp he
      have hq := h.alarm x (Option.mem_toList.mp hx)
      rw [hp] at hq
      cases hr : x.purpose with
      | retry => rw [hr] at hq; cases hq
      | advertise => exact Or.inr hp
  alarm x hx := by
    obtain rfl := Option.some.inj hx
    exact hp.symm
  unconnected hq := by simp [hp] at hq
  connected := h.connected
  starter := h.starter
  canceled := h.canceled
  retry hq := by simp [hp] at hq

/-- A dial leaves only starts and cancellations behind it. -/
theorem fits_of_dials (h : Sound (a.facing e)) (hd : a.Dials e) :
    ∀ x ∈ a.mailbox, x.Fits .idle := by
  intro x hx
  have hf : x.Fits a.phase := h.fits x (List.mem_cons_of_mem e hx)
  rcases hd with ⟨-, hi, -⟩ | ⟨rfl, hc⟩
  · rwa [hi] at hf
  · rw [hc] at hf
    refine hf.of_connecting ?_
    have hr := h.retry hc
    rw [facing, List.countP_cons_of_pos rfl] at hr
    have hz : a.mailbox.countP (·.isAlarm) = 0 := by omega
    simpa using List.countP_eq_zero.mp hz x hx

/-- An advertiser that dials has a starter and nothing else yet. -/
theorem accept_of_dials (h : Sound (a.facing e)) (hd : a.Dials e) :
    (a.accept e).onExit.isSome ∧ (a.accept e).canceled = false ∧ (a.accept e).connection = none ∧
      (a.accept e).sending = false ∧ (a.accept e).sendPending = false := by
  rcases hd with ⟨⟨x, rfl⟩, hi, hc⟩ | ⟨rfl, hc⟩
  · rw [accept_start_of_idle hi]
    exact ⟨rfl, hc, h.unconnected (Or.inl hi)⟩
  · exact ⟨h.starter.mpr (Or.inl hc), h.canceled_eq_false (Or.inl hc), h.unconnected (Or.inr hc)⟩

theorem opened (h : Sound (a.facing e)) (hd : a.Dials e) (d : Endpoint) :
    Sound { (a.accept e).dialed d with phase := .active } where
  fits x hm := (h.fits_of_dials hd x hm).of_idle _
  alarm x hx := by
    have hx : a.alarm = some x := hx
    rw [h.alarm_of_dials hd] at hx
    cases hx
  unconnected hp := by simp at hp
  connected _ := rfl
  starter := by simp [dialed, (h.accept_of_dials hd).1]
  canceled hc := by simp [dialed, (h.accept_of_dials hd).2.1] at hc
  retry hp := by simp at hp

theorem accept_of_rests (h : Sound a) (hr : a.Rests e) : Sound (a.accept e) := by
  cases e with
  | start x =>
    rw [accept_start_of_ne_idle hr]
    exact h
  | cancel =>
    exact ⟨h.fits, h.alarm, h.unconnected, h.connected, h.starter, fun _ => hr, h.retry⟩
  | alarm _ _ | received _ => exact h
  | sent r =>
    have hc : a.phase = .closed := hr
    refine ⟨h.fits, h.alarm, fun hp => ?_, h.connected, h.starter, h.canceled, h.retry⟩
    rcases hp with hp | hp <;> cases hc.symm.trans hp

theorem of_outcome (h : Sound (a.facing e)) {b : Advertiser} {acts : List Effect}
    (o : Outcome now k a e b acts) : Sound b := by
  cases o with
  | rests hr =>
    refine (h.of_facing fun hp => ?_).accept_of_rests hr
    cases e with
    | alarm p x => cases p <;> cases x <;> simp [Rests, hp] at hr
    | start _ | cancel | received _ | sent _ => rfl
  | ends | unfiltered | unjoined => exact ended _
  | fails hd hk =>
    obtain ⟨hx, hc, hn⟩ := h.accept_of_dials hd
    have hf := h.fits_of_dials hd
    refine ⟨fun x hm => (hf x hm).of_idle _, ?_, fun _ => hn, by simp, by simp [hx],
      by simp [hc], fun _ => ?_⟩
    · intro x hx
      obtain rfl := Option.some.inj hx
      rfl
    · have hz : a.mailbox.countP (·.isAlarm) = 0 :=
        List.countP_eq_zero.mpr fun x hm => by simp [(hf x hm).not_alarm]
      change 1 + a.mailbox.countP (·.isAlarm) = 1
      rw [hz]
  | opens hd hk hf hj => exact ((h.opened hd _).operate _).want rfl k
  | ticks hp => exact (h.of_facing fun hq => by cases hq.symm.trans hp).want hp k
  | answers hp hs => exact ((h.of_facing fun _ => rfl).want hp k).operate _
  | ignores hp hs => exact (h.of_facing fun _ => rfl).operate _
  | follows hg hs => exact ((h.of_facing fun _ => rfl).sends hg.1 false false).want hg.1 k
  | waits hg hs => exact ((h.of_facing fun _ => rfl).sends hg.1 false a.sendPending).rearm hg.1 _

end Sound

end RouterAdvert.Advertiser
