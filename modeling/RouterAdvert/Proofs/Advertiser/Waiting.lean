import RouterAdvert.Proofs.Advertiser.Flight

/-! An advertiser never falls silent. While it connects, a wait to dial again goes on since its last
dial; while it is active, either an advertisement is in flight or a wait for the next one goes on
since the last advertisement was seen to leave. -/
namespace RouterAdvert.Advertiser

namespace Effect

def isDial : Effect → Bool
  | dial => true
  | _ => false

end Effect

/-- Whether a wait until time `t` goes on: its alarm is set, or it went off when `t` had come and
has not been handled. -/
def Waits (now : Nat) (p : Purpose) (t : Nat) (a : Advertiser) : Prop :=
  a.alarm = some ⟨p, t⟩ ∨ t ≤ now ∧ .alarm p false ∈ a.mailbox

variable {now t : Nat} {p : Purpose} {k : Conditions} {a b : Advertiser} {e : Event}
  {acts : List Effect}

theorem Waits.mono (h : a.Waits now p t) {later : Nat} (hl : now ≤ later)
    (ha : b.alarm = a.alarm) (hm : ∀ x ∈ a.mailbox, x ∈ b.mailbox) : b.Waits later p t :=
  h.imp ha.trans fun ⟨ht, hx⟩ => ⟨Nat.le_trans ht hl, hm _ hx⟩

/-- A wait outlasts every event but its own. -/
theorem Waits.of_facing (h : (a.facing e).Waits now p t) (he : e ≠ .alarm p false) :
    a.Waits now p t :=
  h.imp id fun ⟨ht, hx⟩ => ⟨ht, (List.mem_cons.mp hx).resolve_left fun hq => he hq.symm⟩

theorem Stir.waits (s : Stir now a b) (h : a.Waits now p t) : b.Waits now p t := by
  obtain ⟨es, hes⟩ := s.mailbox
  have hm : ∀ x ∈ a.mailbox, x ∈ b.mailbox := fun x hx => hes ▸ List.mem_append_left es hx
  cases s with
  | start | cancel => exact h.mono (Nat.le_refl _) rfl hm
  | arrive ha =>
    obtain ⟨-, rfl⟩ := operate_of_arrive ha
    exact h.mono (Nat.le_refl _) rfl hm
  | release ha =>
    obtain ⟨-, rfl⟩ := operate_of_release ha
    exact h.mono (Nat.le_refl _) rfl hm
  | @ring x hx hd =>
    rcases h with h | ⟨ht, hp⟩
    · obtain rfl := Option.some.inj (hx.symm.trans h)
      rw [ring_eq hx]
      exact Or.inr ⟨hd, by simp⟩
    · exact Or.inr ⟨ht, hm _ hp⟩

theorem profile_want (k : Conditions) (a : Advertiser) : (a.want k).profile = a.profile := by
  unfold want
  split <;> rfl

theorem phase_want (k : Conditions) (a : Advertiser) : (a.want k).phase = a.phase := by
  unfold want
  split <;> rfl

theorem Outcome.profile (o : Outcome now k a e b acts) : b.profile = a.profile := by
  cases o with
  | rests | ends | fails | unfiltered | unjoined | ignores | waits => rfl
  | opens | ticks | answers | follows => exact profile_want k _

/-- An advertiser that connects has just dialed, or has been waiting all the time. -/
theorem Outcome.connecting (o : Outcome now k a e b acts) (hp : b.phase = .connecting) :
    acts.any (·.isDial) = true ∧ b.alarm = some ⟨.retry, now + b.profile.backoff⟩ ∨
      acts.any (·.isDial) = false ∧ a.phase = .connecting ∧ e ≠ .alarm .retry false ∧
        b.alarm = a.alarm ∧ b.mailbox = a.mailbox := by
  cases o with
  | rests hr =>
    have hp : a.phase = .connecting := hp
    refine Or.inr ⟨rfl, hp, ?_, rfl, rfl⟩
    rintro rfl
    cases hp.symm.trans hr
  | ends | unfiltered | unjoined => cases hp
  | fails => exact Or.inl ⟨rfl, rfl⟩
  | opens => rw [phase_want] at hp; cases hp
  | ticks ha => rw [phase_want, ha] at hp; cases hp
  | answers ha =>
    change (a.want k).phase = .connecting at hp
    rw [phase_want, ha] at hp
    cases hp
  | ignores ha => cases ha.symm.trans hp
  | follows hg =>
    rw [phase_want] at hp
    cases hg.1.symm.trans hp
  | waits hg => cases hg.1.symm.trans hp

/-- An active advertiser that sends nothing has just seen the end of a send, or has been waiting all
the time. -/
theorem Outcome.active (o : Outcome now k a e b acts) (hp : b.phase = .active)
    (hs : b.sending = false) :
    e.isSent = true ∧ b.alarm = some ⟨.advertise, now + b.profile.interval⟩ ∨
      e.isSent = false ∧ a.phase = .active ∧ a.sending = false ∧ e ≠ .alarm .advertise false ∧
        b.alarm = a.alarm ∧ ∀ x ∈ a.mailbox, x ∈ b.mailbox := by
  cases o with
  | rests hr =>
    have hp : a.phase = .active := hp
    cases e with
    | start _ => exact Or.inr ⟨rfl, hp, hs, by simp, rfl, fun _ => id⟩
    | cancel => rcases hr with hr | hr <;> cases hp.symm.trans hr
    | alarm q aborted =>
      cases aborted with
      | true => exact Or.inr ⟨rfl, hp, hs, by simp, rfl, fun _ => id⟩
      | false => cases q <;> cases hp.symm.trans hr
    | received _ | sent _ => cases hp.symm.trans hr
  | ends | fails | unfiltered | unjoined => cases hp
  | opens | ticks | follows => cases (sending_want k _).symm.trans hs
  | answers => cases (sending_want k a).symm.trans hs
  | ignores ha hq => exact Or.inr ⟨rfl, ha, hs, by simp, rfl, fun _ hx => List.mem_append_left _ hx⟩
  | waits => exact Or.inl ⟨rfl, rfl⟩

namespace Life

/-- When the end of a send was last handled. -/
def lastSent? (l : Life) : Option Nat := l.last? (·.event.isSent)

/-- When the advertiser last dialed. -/
def lastDial? (l : Life) : Option Nat := l.last? (·.after.acts.any (·.isDial))

variable {r : Profile} {l l' : Life}

theorem Step.profile (s : Step l l') (h : Sound l.advertiser) :
    l'.advertiser.profile = l.advertiser.profile := by
  cases s with
  | pass => rfl
  | stir hs => exact hs.profile
  | handle k hm hk => exact (outcome_of_step? h hm hk).2.profile

theorem Reachable.profile (h : Reachable r l) : l.advertiser.profile = r := by
  induction h with
  | new => rfl
  | step h s ih => exact (s.profile h.sound).trans ih

/-- There is always something that will make an advertiser go on. -/
structure Awake (l : Life) : Prop where
  connecting : l.advertiser.phase = .connecting →
    ∃ t, l.lastDial? = some t ∧
      l.advertiser.Waits l.now .retry (t + l.advertiser.profile.backoff)
  active : l.advertiser.phase = .active → l.advertiser.sending = false →
    ∃ t, l.lastSent? = some t ∧
      l.advertiser.Waits l.now .advertise (t + l.advertiser.profile.interval)

theorem lastSent?_add (k : Conditions) (e : Event) (rest : List Event) (t : Turn) (l : Life) :
    (l.add (l.deed k e rest t)).lastSent? = if e.isSent then some l.now else l.lastSent? :=
  last?_add ..

theorem lastDial?_add (k : Conditions) (e : Event) (rest : List Event) (t : Turn) (l : Life) :
    (l.add (l.deed k e rest t)).lastDial? =
      if t.acts.any (·.isDial) then some l.now else l.lastDial? := last?_add ..

/-- An event ends a wait only if a new one begins, or something is sent. -/
theorem Awake.handle (hw : l.Awake) (h : Sound l.advertiser) {k : Conditions} {e : Event}
    {rest : List Event} {t : Turn} (hm : l.advertiser.mailbox = e :: rest)
    (hk : l.advertiser.step? l.now k = some t) : (l.add (l.deed k e rest t)).Awake := by
  obtain ⟨hs, o⟩ := outcome_of_step? h hm hk
  have hw : Awake { l with advertiser := facing e { l.advertiser with mailbox := rest } } := by
    rwa [← eq_facing hm]
  have hr : t.state.profile = l.advertiser.profile := o.profile
  constructor
  case connecting =>
    intro hp
    rcases o.connecting hp with ⟨hd, ha⟩ | ⟨hd, hc, he, ha, hx⟩
    · exact ⟨l.now, by rw [lastDial?_add, if_pos hd], Or.inl ha⟩
    · obtain ⟨s, hl, hx'⟩ := hw.connecting hc
      refine ⟨s, by rw [lastDial?_add, if_neg (by simp [hd])]; exact hl, ?_⟩
      change t.state.Waits _ _ (s + t.state.profile.backoff)
      rw [hr]
      exact (hx'.of_facing he).mono (Nat.le_refl _) ha (by simp [hx])
  case active =>
    intro hp hn
    rcases o.active hp hn with ⟨hd, ha⟩ | ⟨hd, hc, hq, he, ha, hx⟩
    · exact ⟨l.now, by rw [lastSent?_add, if_pos hd], Or.inl ha⟩
    · obtain ⟨s, hl, hx'⟩ := hw.active hc hq
      refine ⟨s, by rw [lastSent?_add, if_neg (by simp [hd])]; exact hl, ?_⟩
      change t.state.Waits _ _ (s + t.state.profile.interval)
      rw [hr]
      exact (hx'.of_facing he).mono (Nat.le_refl _) ha hx

theorem Step.awake (s : Step l l') (h : Sound l.advertiser) (hw : l.Awake) : l'.Awake := by
  cases s with
  | pass delay =>
    have hn : l.now ≤ l.now + delay := Nat.le_add_right _ _
    exact {
      connecting := fun hp =>
        let ⟨t, ht, hx⟩ := hw.connecting hp
        ⟨t, ht, hx.mono hn rfl fun _ => id⟩
      active := fun hp hs =>
        let ⟨t, ht, hx⟩ := hw.active hp hs
        ⟨t, ht, hx.mono hn rfl fun _ => id⟩ }
  | stir hs =>
    exact {
      connecting := fun hc =>
        let ⟨t, ht, hx⟩ := hw.connecting (hs.phase.symm.trans hc)
        ⟨t, ht, hs.profile ▸ hs.waits hx⟩
      active := fun hc hf =>
        let ⟨t, ht, hx⟩ := hw.active (hs.phase.symm.trans hc) (hs.sending.symm.trans hf)
        ⟨t, ht, hs.profile ▸ hs.waits hx⟩ }
  | handle k hm hk => exact hw.handle h hm hk

theorem Reachable.awake (h : Reachable r l) : l.Awake := by
  induction h with
  | new now => exact ⟨by simp, by simp⟩
  | step h s ih => exact s.awake h.sound ih

/-- An active advertiser has exactly one advertisement in flight, or it sends none and waits for the
interval to pass since the last one was seen to leave. An advertiser that connects waits for the
backoff to pass since its last dial. -/
theorem never_stalls (h : Reachable r l) :
    (l.advertiser.phase = .active →
      l.advertiser.sending = true ∧ l.issued = l.completed + 1 ∧ l.advertiser.inFlight = 1 ∨
      l.advertiser.sending = false ∧ l.issued = l.completed ∧ l.advertiser.inFlight = 0 ∧
        ∃ t, l.lastSent? = some t ∧ l.advertiser.Waits l.now .advertise (t + r.interval)) ∧
    (l.advertiser.phase = .connecting →
      ∃ t, l.lastDial? = some t ∧ l.advertiser.Waits l.now .retry (t + r.backoff)) := by
  have hw := h.awake
  obtain ⟨hi, hf⟩ := h.balanced
  rw [← h.profile]
  refine ⟨fun hp => ?_, hw.connecting⟩
  cases hs : l.advertiser.sending with
  | true =>
    rw [hs] at hf
    rw [hf] at hi
    exact Or.inl ⟨rfl, hi, hf⟩
  | false =>
    rw [hs] at hf
    rw [hf] at hi
    exact Or.inr ⟨rfl, hi, hf, hw.active hp hs⟩

/-- An advertisement that was dropped for want of buffers is followed by a wait. -/
theorem waits_after_dropped_advert :
    ∃ l : Life, Reachable { link := {}, advert := [], interval := 200, backoff := 5 } l ∧
      l.advertiser.phase = .active ∧ l.now = 7 ∧
      ∃ t, l.lastSent? = some t ∧ l.advertiser.Waits 7 .advertise (t + 200) := by
  let k : Conditions :=
    { dial := .ok { source := ⟨.unspecified, 0⟩ }, send := some (.system Errno.noBufferSpace) }
  have started := (Reachable.new (p := ⟨{}, [], 200, 5⟩) 0).step (.stir (.start .deregister))
  have opened := (started.step (.handle k rfl rfl)).step (.pass 7)
  have dropped := opened.step (.handle k rfl rfl)
  refine ⟨_, dropped, rfl, rfl, ?_⟩
  rcases (never_stalls dropped).1 rfl with ⟨hs, -⟩ | ⟨-, -, -, hw⟩
  · cases hs
  · exact hw

end Life

end RouterAdvert.Advertiser
