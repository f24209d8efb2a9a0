import RouterAdvert.Proofs.Responder.Announcements
import RouterAdvert.Proofs.Responder.Running

/-! A run comes to its end. Every tap whose alarm is set is among those that ring, and an alarm that
goes off is set again for a later time, if all waits take some time. So at each time alarms go off
once, and the loop always has patience left. -/
namespace RouterAdvert

namespace Advertiser

variable {now : Nat} {k : Conditions} {a b : Advertiser} {e : Event} {acts : List Effect}

/-- What happens around an advertiser sets no alarm. -/
theorem Stir.alarm (s : Stir now a b) : b.alarm = a.alarm ∨ b.alarm = none := by
  cases s with
  | start | cancel => exact Or.inl rfl
  | ring hx =>
    rw [ring_eq hx]
    exact Or.inr rfl
  | arrive ha =>
    rw [(operate_of_arrive ha).2]
    exact Or.inl rfl
  | release ha =>
    rw [(operate_of_release ha).2]
    exact Or.inl rfl

/-- Whoever sets an alarm says so. -/
theorem Outcome.alarm (o : Outcome now k a e b acts) :
    b.alarm = a.alarm ∨ b.alarm = none ∨ .armed ∈ acts := by
  cases o with
  | rests | ignores => exact Or.inl rfl
  | ends | unfiltered | unjoined => exact Or.inr (Or.inl rfl)
  | fails | waits => exact Or.inr (Or.inr (by simp))
  | opens | ticks | follows => exact Or.inl (alarm_want _ _)
  | answers => exact Or.inl (alarm_want _ _)

end Advertiser

open Advertiser

namespace Responder

variable {σ : Type} {r r' r'' : Responder σ} {id : TapId} {x : Alarm}

/-- No alarm is set, and the waits are as long as they were, or as the timing has them. -/
structure Calm (r r' : Responder σ) : Prop where
  timing : r'.timing = r.timing
  armed : r'.armed = r.armed
  taps : ∀ id t', r'.taps.get? id = some t' →
    (∃ t, r.taps.get? id = some t ∧ t'.advertiser.profile = t.advertiser.profile ∧
      (t'.advertiser.alarm = t.advertiser.alarm ∨ t'.advertiser.alarm = none)) ∨
    ∃ l network, t'.advertiser.profile = .make l network r.timing ∧ t'.advertiser.alarm = none

namespace Calm

theorem of_eq (ht : r'.timing = r.timing) (ha : r'.armed = r.armed) (hr : r'.taps = r.taps) :
    Calm r r' where
  timing := ht
  armed := ha
  taps id t h := by
    rw [hr] at h
    exact Or.inl ⟨t, h, rfl, Or.inl rfl⟩

theorem refl (r : Responder σ) : Calm r r := of_eq rfl rfl rfl

theorem trans (h : Calm r r') (h' : Calm r' r'') : Calm r r'' where
  timing := h'.timing.trans h.timing
  armed := h'.armed.trans h.armed
  taps id t ht := by
    rcases h'.taps id t ht with ⟨u, hu, hp, ha⟩ | ⟨l, network, hp, ha⟩
    · rcases h.taps id u hu with ⟨v, hv, hp', ha'⟩ | ⟨l, network, hp', ha'⟩
      · refine Or.inl ⟨v, hv, hp.trans hp', ?_⟩
        rcases ha with ha | ha
        · rwa [ha]
        · exact Or.inr ha
      · refine Or.inr ⟨l, network, hp.trans hp', ?_⟩
        rcases ha with ha | ha
        · exact ha.trans ha'
        · exact ha
    · exact Or.inr ⟨l, network, h.timing ▸ hp, ha⟩

theorem alarm? (h : Calm r r') (hx : r'.alarm? id = some x) : r.alarm? id = some x := by
  obtain ⟨t', ht', hx⟩ := Option.bind_eq_some_iff.mp hx
  rcases h.taps id t' ht' with ⟨t, ht, -, ha | ha⟩ | ⟨-, -, -, ha⟩
  · exact Option.bind_eq_some_iff.mpr ⟨t, ht, ha ▸ hx⟩
  · rw [ha] at hx
    cases hx
  · rw [ha] at hx
    cases hx

/-- Something happens around a tap, or nothing. -/
theorem stir (now : Nat) {f : Advertiser → Advertiser}
    (hf : ∀ t, r.taps.get? id = some t →
      f t.advertiser = t.advertiser ∨ Stir now t.advertiser (f t.advertiser)) :
    Calm r (r.modifyTap id f) where
  timing := by
    unfold modifyTap
    split <;> rfl
  armed := by
    unfold modifyTap
    split <;> rfl
  taps y t ht := by
    rcases get?_modifyTap ht with ⟨rfl, u, hu, rfl⟩ | ht
    · rcases hf u hu with he | hs
      · exact Or.inl ⟨u, hu, congrArg Advertiser.profile he, Or.inl (congrArg Advertiser.alarm he)⟩
      · exact Or.inl ⟨u, hu, hs.profile, hs.alarm⟩
    · exact Or.inl ⟨t, ht, rfl, Or.inl rfl⟩

theorem cancelAll (ids : List TapId) (r : Responder σ) : Calm r (Orderly.cancelAll ids r) := by
  induction ids generalizing r with
  | nil => exact .refl r
  | cons id ids ih =>
    have hc : Calm r (r.modifyTap id .cancel) := .stir 0 fun _ _ => Or.inr .cancel
    exact hc.trans (ih _)

theorem close (i : Int32) (r : Responder σ) : Calm r (r.close i) := by
  cases hi : r.registry.get? i with
  | none => simpa [Responder.close, hi] using Calm.refl r
  | some id =>
    have hr : Calm r { r with registry := r.registry.erase i } := of_eq rfl rfl rfl
    rw [Orderly.close_of_some hi]
    exact hr.trans (cancelAll [id] _)

theorem closeAll (r : Responder σ) : Calm r r.closeAll := by
  have hr : Calm r { r with registry := .empty } := of_eq rfl rfl rfl
  exact hr.trans (cancelAll r.registry.values _)

theorem install {now : Nat} {i : Int32} {t : Tap} {l : Link} {network : Option Address}
    (ht : t.advertiser = { profile := .make l network r.timing }) :
    Calm r (r.install now i t) := by
  have hput : Calm r
      ({ r with registry := r.registry.insert i (r.freshId i) }.setTap (r.freshId i) t) := by
    refine ⟨rfl, rfl, fun id u hu => ?_⟩
    rcases Table.get?_insert_eq_some_iff.mp hu with ⟨-, rfl⟩ | ⟨-, hu⟩
    · exact Or.inr ⟨l, network, by rw [ht], by rw [ht]⟩
    · exact Or.inl ⟨u, hu, rfl, Or.inl rfl⟩
  have hreplace (q : Responder σ) (previous : Option TapId) :
      Calm q (Orderly.replace now t.link.name previous q) := by
    cases previous with
    | none => exact .refl q
    | some p =>
      have hn : Calm q (q.note ⟨now, none⟩ (.tapReplaced t.link.name)) := of_eq rfl rfl rfl
      exact hn.trans (.stir now fun _ _ => Or.inr .cancel)
  rw [Orderly.install_eq]
  exact (hput.trans (hreplace _ _)).trans (.stir now fun _ _ => Or.inr (.start _))

theorem receiveLinks (r : Responder σ) : Calm r r.receiveLinks := by
  unfold Responder.receiveLinks
  split <;> exact of_eq rfl rfl rfl

theorem comeBack (e : Netlink.Message.Ending) (r : Responder σ) : Calm r (r.comeBack e) := by
  unfold Responder.comeBack
  split
  · exact .refl r
  · exact of_eq rfl rfl rfl

variable [Host σ]

theorem build (now : Nat) (i : Int32) (r : Responder σ) :
    Calm r (r.build now i).1 ∧ ∀ t, (r.build now i).2 = .ok t →
      ∃ l network, t.advertiser = { profile := .make l network (r.build now i).1.timing } := by
  dsimp only [Responder.build]
  split
  · exact ⟨of_eq rfl rfl rfl, by simp⟩
  · split
    · exact ⟨of_eq rfl rfl rfl, by simp⟩
    · exact ⟨of_eq rfl rfl rfl, by simp⟩
    · split
      · exact ⟨of_eq rfl rfl rfl, by simp⟩
      · refine ⟨?_, fun t ht => ?_⟩
        · dsimp only [noteFindings]
          split <;> split <;> exact of_eq rfl rfl rfl
        · obtain rfl := Except.ok.inj ht
          dsimp only [noteFindings]
          split <;> split <;> exact ⟨_, _, rfl⟩

theorem add (now : Nat) (i : Int32) (r : Responder σ) : Calm r (r.add now i).1 := by
  obtain ⟨hc, hb⟩ := build now i r
  rw [add_eq]
  cases hr : r.build now i with
  | mk q o =>
    rw [hr] at hc hb
    cases o with
    | ok t =>
      obtain ⟨l, network, ht⟩ := hb t rfl
      exact hc.trans (install ht)
    | error o =>
      cases o with
      | impossibleRoute => exact hc.trans (of_eq rfl rfl rfl)
      | refused e => cases e <;> exact hc.trans (of_eq rfl rfl rfl)

theorem processMessage (now : Nat) (m : Netlink.Message) (r : Responder σ) :
    Calm r (r.processMessage now m) := by
  have hh := heard_processMessage now m r
  generalize r.processMessage now m = q at hh
  have hnote (n : Notice) : Calm r (r.note ⟨now, none⟩ n) := of_eq rfl rfl rfl
  cases hh with
  | removed => exact (hnote _).trans (close _ _)
  | appeared => exact (hnote _).trans (add now _ _)
  | ignored => exact of_eq rfl rfl rfl

theorem processAll (now : Nat) (ms : List Netlink.Message) (r : Responder σ) :
    Calm r (r.processAll now ms) := by
  unfold Responder.processAll Factory.processAll
  induction ms generalizing r with
  | nil => exact .refl r
  | cons m ms ih =>
    refine Calm.trans ?_ (ih _)
    dsimp only
    split
    · exact .refl r
    · exact processMessage now m r

theorem processBuffer (now : Nat) (buffer : Bytes) (count : Nat) (r : Responder σ) :
    Calm r (r.processBuffer now buffer count) :=
  (processAll now (Netlink.Message.inBuffer buffer count) r).trans (comeBack _ _)

theorem startWatch (now : Nat) (r : Responder σ) : Calm r (r.startWatch now).1 := by
  dsimp only [Responder.startWatch]
  split
  · exact of_eq rfl rfl rfl
  · split <;> exact of_eq rfl rfl rfl

theorem requestLinks (now : Nat) (r : Responder σ) : Calm r (r.requestLinks now) := by
  dsimp only [Responder.requestLinks]
  split
  · exact of_eq rfl rfl rfl
  · split
    · exact of_eq rfl rfl rfl
    · split <;> exact of_eq rfl rfl rfl

theorem handleWatch (now : Nat) (e : LinkWatch.Event) (r : Responder σ) :
    Calm r (r.handleWatch now e) := by
  have hask (q : Responder σ) : Calm q (q.requestLinks now).receiveLinks :=
    (requestLinks now q).trans (receiveLinks _)
  cases e with
  | begin => exact hask r
  | received x =>
    dsimp only [Responder.handleWatch, linksReceived]
    split
    · exact .refl r
    · split
      · split
        · have hn : Calm r (r.note ⟨now, none⟩ .linksOverrun) := of_eq rfl rfl rfl
          exact hn.trans (hask _)
        · exact of_eq rfl rfl rfl
      · exact (processBuffer now _ _ r).trans (receiveLinks _)
  | shutdown =>
    refine Calm.trans ?_ (closeAll _)
    exact of_eq rfl rfl rfl

theorem watchTurn (now : Nat) (rest : List Actor) (r : Responder σ) :
    Calm r ({ r with schedule := rest }.stepWatch now) := by
  unfold stepWatch
  split
  · exact of_eq rfl rfl rfl
  · refine Calm.trans ?_ (handleWatch now _ _)
    exact of_eq rfl rfl rfl

end Calm

/-- Every wait takes some time, and every tap whose alarm is set is among those that ring. -/
structure Paced (r : Responder σ) : Prop where
  timing : 0 < r.timing.retryBackoff ∧ 0 < r.timing.advertInterval
  waits : ∀ id t, r.taps.get? id = some t →
    0 < t.advertiser.profile.backoff ∧ 0 < t.advertiser.profile.interval
  armed : ∀ id x, r.alarm? id = some x → id ∈ r.armed

theorem Calm.paced (h : Calm r r') (hp : Paced r) : Paced r' where
  timing := by
    rw [h.timing]
    exact hp.timing
  waits id t' ht' := by
    rcases h.taps id t' ht' with ⟨t, ht, he, -⟩ | ⟨l, network, he, -⟩
    · rw [he]
      exact hp.waits id t ht
    · rw [he]
      exact hp.timing
  armed id x hx := by
    rw [h.armed]
    exact hp.armed id x (h.alarm? hx)

theorem calm_ring (t : Nat) (r : Responder σ) : Calm r (r.ring t) :=
  ring_induction (fun _ _ _ h hf => h.trans (.stir t hf)) (.refl r) (Nat.le_refl t)

/-- An alarm is not set any more when it has gone off. -/
theorem alarm?_ringAll {ids : List TapId}
    (hx : (ids.foldl (fun r id => r.modifyTap id .ring) r).alarm? id = some x) :
    r.alarm? id = some x ∧ id ∉ ids := by
  induction ids generalizing r with
  | nil => exact ⟨hx, List.not_mem_nil⟩
  | cons y ids ih =>
    obtain ⟨hx, hids⟩ := ih hx
    obtain ⟨t, ht, hx⟩ := Option.bind_eq_some_iff.mp hx
    by_cases hy : id = y
    · subst hy
      rw [get?_modifyTap_self] at ht
      obtain ⟨u, -, rfl⟩ := Option.map_eq_some_iff.mp ht
      cases hu : u.advertiser.alarm <;> simp [Advertiser.ring, Advertiser.post, hu] at hx
    · rcases get?_modifyTap ht with ⟨he, -⟩ | ht
      · exact absurd he hy
      · exact ⟨Option.bind_eq_some_iff.mpr ⟨t, ht, hx⟩, by simp [hy, hids]⟩

/-- No tap has its alarm set for a time before this one. -/
def Awaiting (time : Nat) (r : Responder σ) : Prop :=
  ∀ id x, r.alarm? id = some x → time ≤ x.expiry

theorem Calm.awaiting (h : Calm r r') {time : Nat} (hr : Awaiting time r) : Awaiting time r' :=
  fun id x hx => hr id x (h.alarm? hx)

/-- The alarms that are due go off, all of them. -/
theorem Paced.awaiting_ring (h : Paced r) {t : Nat} (hr : Awaiting t r) :
    Awaiting (t + 1) (r.ring t) := by
  intro id x hx
  obtain ⟨hx, hids⟩ := alarm?_ringAll hx
  refine Nat.lt_of_le_of_ne (hr id x hx) fun he => hids ?_
  obtain ⟨u, hu, hux⟩ := Option.bind_eq_some_iff.mp hx
  exact List.mem_filter.mpr ⟨h.armed id x hx,
    isDue_eq_true.mpr ⟨u, x, hu, hux, Nat.le_of_eq he.symm⟩⟩

variable [Host σ] {now : Nat}

theorem perform_armed (now : Nat) (id : TapId) (a : Advertiser) (r : Responder σ)
    (e : Advertiser.Effect) :
    (perform now id a r e).timing = r.timing ∧
      (∀ y ∈ r.armed, y ∈ (perform now id a r e).armed) ∧
      (e = .armed → id ∈ (perform now id a r e).armed) := by
  cases e with
  | note | dial | call => exact ⟨rfl, fun _ hy => hy, by simp⟩
  | armed =>
    refine ⟨rfl, fun y hy => ?_, fun _ => by simp [perform]⟩
    by_cases h : y = id <;> simp [perform, h, hy]
  | exit h code =>
    cases h with
    | numbered | announce => exact ⟨rfl, fun _ hy => hy, by simp⟩
    | deregister =>
      dsimp only [perform, deregister]
      split <;> split <;> exact ⟨rfl, fun _ hy => hy, by simp⟩

theorem performAll_armed (now : Nat) (id : TapId) (a : Advertiser) (es : List Advertiser.Effect)
    (r : Responder σ) :
    (es.foldl (perform now id a) r).timing = r.timing ∧
      (∀ y ∈ r.armed, y ∈ (es.foldl (perform now id a) r).armed) ∧
      (.armed ∈ es → id ∈ (es.foldl (perform now id a) r).armed) := by
  induction es generalizing r with
  | nil => exact ⟨rfl, fun _ hy => hy, by simp⟩
  | cons e es ih =>
    obtain ⟨ht, hk, ha⟩ := perform_armed now id a r e
    obtain ⟨ht', hk', ha'⟩ := ih (perform now id a r e)
    refine ⟨ht'.trans ht, fun y hy => hk' y (hk y hy), fun he => ?_⟩
    rcases List.mem_cons.mp he with rfl | he
    · exact hk' id (ha rfl)
    · exact ha' he

/-- A tap that sets its alarm sets it for a later time. -/
theorem Paced.stepTap (h : Paced r) (ho : Orderly r) {rest : List Actor}
    (hs : r.schedule = .tap id :: rest) :
    Paced ({ r with schedule := rest }.stepTap now id) ∧
      ∀ time, time ≤ now + 1 → Awaiting time r →
        Awaiting time ({ r with schedule := rest }.stepTap now id) := by
  obtain ⟨t, u, ht, hk⟩ := ho.tended.exists_turn now hs
  obtain ⟨e, events, hm⟩ := exists_of_step? hk
  have o := (Life.outcome_of_step? (ho.tended.taps id t ht).sound hm hk).2
  have hwaits := h.waits id t ht
  have hprofile : u.state.profile = t.advertiser.profile := o.profile
  obtain ⟨htaps, -, -⟩ := performAll_spec now id u.state u.effects
    ({ r with schedule := rest }.setTap id { t with advertiser := u.state })
  obtain ⟨htiming, hkept, harmed⟩ := performAll_armed now id u.state u.effects
    ({ r with schedule := rest }.setTap id { t with advertiser := u.state })
  rw [← stepTap_eq (r := { r with schedule := rest }) ht hk] at htaps htiming hkept harmed
  generalize { r with schedule := rest }.stepTap now id = q at htaps htiming hkept harmed
  have hget (y : TapId) (v : Tap) (hv : q.taps.get? y = some v) :
      y = id ∧ v.advertiser = u.state ∨ y ≠ id ∧ r.taps.get? y = some v := by
    rw [htaps] at hv
    rcases Table.get?_insert_eq_some_iff.mp hv with ⟨hy, rfl⟩ | hv
    · exact Or.inl ⟨hy, rfl⟩
    · exact Or.inr hv
  refine ⟨⟨?_, fun y v hv => ?_, fun y x hx => ?_⟩, fun time hle hr y x hx => ?_⟩
  · rw [htiming]
    exact h.timing
  · rcases hget y v hv with ⟨-, hv⟩ | ⟨-, hv⟩
    · rw [hv, hprofile]
      exact hwaits
    · exact h.waits y v hv
  · obtain ⟨v, hv, hx⟩ := Option.bind_eq_some_iff.mp hx
    rcases hget y v hv with ⟨rfl, hv⟩ | ⟨-, hv⟩
    · rw [hv] at hx
      rcases o.alarm with ha | ha | ha
      · have hx' : t.advertiser.alarm = some x := ha.symm.trans hx
        exact hkept y (h.armed y x (Option.bind_eq_some_iff.mpr ⟨t, ht, hx'⟩))
      · rw [ha] at hx
        cases hx
      · exact harmed (List.mem_filter.mp ha).1
    · exact hkept y (h.armed y x (Option.bind_eq_some_iff.mpr ⟨v, hv, hx⟩))
  · obtain ⟨v, hv, hx⟩ := Option.bind_eq_some_iff.mp hx
    rcases hget y v hv with ⟨rfl, hv⟩ | ⟨-, hv⟩
    · have ha : Awaits time t.advertiser := fun z hz =>
        hr y z (Option.bind_eq_some_iff.mpr ⟨t, ht, hz⟩)
      have hw : Awaits time u.state :=
        o.awaits (by dsimp only; omega) (by dsimp only; omega) (ha.of_eq rfl)
      exact hw x (hv ▸ hx)
    · exact hr y x (Option.bind_eq_some_iff.mpr ⟨v, hv, hx⟩)

theorem Paced.step? (h : Paced r) (ho : Orderly r) (hq : r.step? now = some r') :
    Paced r' ∧ ∀ time, time ≤ now + 1 → Awaiting time r → Awaiting time r' := by
  obtain ⟨-, rest, ⟨hs, rfl⟩ | ⟨id, hs, rfl⟩⟩ := step?_cases hq
  · have hc := Calm.watchTurn now rest r
    exact ⟨hc.paced h, fun _ _ hr => hc.awaiting hr⟩
  · exact h.stepTap ho hs

theorem Paced.drain (h : Paced r) {start : Nat} (hw : Working start r) (hle : start ≤ now) :
    Paced (Reactor.drain now r) ∧
      ∀ time, time ≤ now + 1 → Awaiting time r → Awaiting time (Reactor.drain now r) := by
  refine (Reactor.steps_induction (P := fun q => Working start q ∧ Paced q ∧
    ∀ time, time ≤ now + 1 → Awaiting time r → Awaiting time q) (fun q q' hq hs => ?_) _
    ⟨hw, h, fun _ _ hr => hr⟩).2
  obtain ⟨hw, h, hr⟩ := hq
  obtain ⟨h', hr'⟩ := h.step? hw.orderly hs
  exact ⟨(hw.step? hle hs).1, h', fun time ht ha => hr' time ht (hr time ht ha)⟩

/-- If alarms can still go off without the clock, or none is due now, the run comes to its end. -/
theorem Paced.settled_runUntil {limit rounds : Nat} (h : Paced r) (hw : Working now r)
    (hr : 0 < rounds ∨ Awaiting (now + 1) r) :
    Settled limit (Reactor.runUntil limit now rounds r) ∧
      Paced (Reactor.runUntil limit now rounds r) := by
  fun_induction Reactor.runUntil limit now rounds r with
  | case1 now _ r s ht =>
    refine ⟨fun t hs => ?_, (h.drain hw (Nat.le_refl now)).1⟩
    cases ht.symm.trans hs
  | case2 now _ r s t ht hl =>
    refine ⟨fun u hs => ?_, (h.drain hw (Nat.le_refl now)).1⟩
    obtain rfl := Option.some.inj (ht.symm.trans hs)
    exact hl
  | case3 now _ r s t ht hl hlt ih =>
    have hs := (h.drain hw (Nat.le_refl now)).1
    have hws := ((hw.drain (Nat.le_refl now)).nextAlarm ht).2
    exact ih ((calm_ring t s).paced hs) (hws.ring (Nat.le_refl t))
      (Or.inl (Nat.succ_pos _))
  | case4 now r s t ht hl hlt =>
    have ha := (h.drain hw (Nat.le_refl now)).2 (now + 1) (Nat.le_refl _)
      (hr.resolve_left (Nat.lt_irrefl 0))
    obtain ⟨-, id, x, hx, rfl⟩ := nextAlarm?_spec ht
    exact absurd (ha id x hx) hlt
  | case5 now r s t ht hl hlt _ ih =>
    have hs := (h.drain hw (Nat.le_refl now)).1
    obtain ⟨hle, hws⟩ := (hw.drain (Nat.le_refl now)).nextAlarm ht
    obtain rfl : now = t := Nat.le_antisymm hle (Nat.not_lt.mp hlt)
    have ha : Awaiting now s := fun id x hx => hws.alarm hx
    exact ih ((calm_ring now s).paced hs) (hws.ring (Nat.le_refl now))
      (Or.inr (hs.awaiting_ring ha))

/-- Every run comes to its end if all waits take some time. -/
theorem Paced.runFor (h : Paced r) (hw : Working now r) (ms : Nat) :
    Settled (now + ms) (Reactor.runFor ms now r) ∧ Paced (Reactor.runFor ms now r) :=
  h.settled_runUntil hw (Or.inl (Nat.succ_pos _))

end Responder

end RouterAdvert
