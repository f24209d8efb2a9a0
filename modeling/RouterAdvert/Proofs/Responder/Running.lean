import RouterAdvert.Proofs.Responder.Watched

/-! A responder at work: it takes turns until all is handled, and then the clock moves to the next
alarm. No alarm is ever set for a time that has passed, so that the next one is never overdue. -/
namespace RouterAdvert

namespace Advertiser

/-- No alarm is set for a time before this one. -/
def Awaits (time : Nat) (a : Advertiser) : Prop := ∀ x, a.alarm = some x → time ≤ x.expiry

variable {now time : Nat} {k : Conditions} {a b : Advertiser} {e : Event} {acts : List Effect}

theorem Awaits.of_eq (h : Awaits time a) (he : b.alarm = a.alarm) : Awaits time b := by
  unfold Awaits
  rw [he]
  exact h

theorem awaits_of_none (h : a.alarm = none) : Awaits time a := by
  intro x hx
  rw [h] at hx
  cases hx

theorem awaits_of_some {x : Alarm} (h : a.alarm = some x) (hx : time ≤ x.expiry) :
    Awaits time a := by
  intro y hy
  obtain rfl := Option.some.inj (h.symm.trans hy)
  exact hx

theorem Stir.awaits (s : Stir now a b) (h : Awaits time a) : Awaits time b := by
  cases s with
  | start | cancel => exact h.of_eq rfl
  | ring hx =>
    rw [ring_eq hx]
    exact awaits_of_none rfl
  | arrive ha =>
    rw [(operate_of_arrive ha).2]
    exact h.of_eq rfl
  | release ha =>
    rw [(operate_of_release ha).2]
    exact h.of_eq rfl

theorem alarm_want (k : Conditions) (a : Advertiser) : (a.want k).alarm = a.alarm := by
  unfold want
  split <;> rfl

/-- An alarm is set for the end of a wait that begins now. -/
theorem Outcome.awaits (o : Outcome now k a e b acts) (hb : time ≤ now + a.profile.backoff)
    (hi : time ≤ now + a.profile.interval) (h : Awaits time a) : Awaits time b := by
  cases o with
  | rests | ignores => exact h.of_eq rfl
  | ends | unfiltered | unjoined => exact awaits_of_none rfl
  | fails => exact awaits_of_some rfl hb
  | waits => exact awaits_of_some rfl hi
  | opens | ticks | follows => exact h.of_eq (alarm_want _ _)
  | answers => exact h.of_eq (alarm_want _ _)

end Advertiser

open Advertiser Responder

namespace Course

variable {σ : Type} [Host σ]

theorem Invariant.awaits (time : Nat) :
    Invariant (σ := σ) fun now _ r =>
      time ≤ now ∧ Orderly r ∧ Tended (fun _ => Awaits time) r where
  orderly h := h.2.1
  pass h delay := ⟨Nat.le_add_right_of_le h.1, h.2⟩
  kept now _ := by
    have hk : Kept (σ := σ) now fun r => Orderly r ∧ Tended (fun _ => Awaits time) r :=
      (kept_orderly now).tended (fun _ h => h) (fun _ _ _ ha s => s.awaits ha)
        fun _ _ _ _ => awaits_of_none rfl
    exact
      { aside := fun h ha => ⟨h.1, hk.aside h.2 ha⟩
        add := fun h i => ⟨h.1, hk.add h.2 i⟩
        close := fun h i => ⟨h.1, hk.close h.2 i⟩
        closeAll := fun h => ⟨h.1, hk.closeAll h.2⟩ }
  stir h hf := ⟨h.1, h.2.1.stir hf, h.2.2.stir (fun _ _ _ ha s => s.awaits ha) hf⟩
  turn := by
    intro now acts r id rest t u h hs ht hk
    obtain ⟨e, events, hm⟩ := exists_of_step? hk
    have hserv := h.2.1.tended.taps id t ht
    obtain ⟨-, -, hes⟩ := hserv.handle hm hk
    have hw : Awaits time u.state :=
      (Life.outcome_of_step? hserv.sound hm hk).2.awaits (Nat.le_add_right_of_le h.1)
        (Nat.le_add_right_of_le h.1) ((h.2.2.taps id t ht).of_eq rfl)
    exact ⟨h.1, h.2.1.turn hs ht hk, h.2.2.turn hs ht hk hm hes hw fun _ _ _ ha => ha⟩

end Course

namespace Responder

variable {σ : Type} {r : Responder σ} {id : TapId} {x : Alarm} {t : Nat}

def alarm? (id : TapId) (r : Responder σ) : Option Alarm :=
  (r.taps.get? id).bind fun t => t.advertiser.alarm

theorem nextAlarm?_spec (h : r.nextAlarm? = some t) :
    r.halt = none ∧ ∃ id x, r.alarm? id = some x ∧ x.expiry = t := by
  unfold nextAlarm? at h
  split at h
  · cases h
  · rename_i hh
    refine ⟨by simpa using hh, ?_⟩
    obtain ⟨u, hu, hx⟩ := List.mem_filterMap.mp (List.min?_mem h)
    obtain ⟨x, hx, he⟩ := Option.map_eq_some_iff.mp hx
    obtain ⟨id, hid⟩ := Table.exists_get?_of_mem_values hu
    exact ⟨id, x, Option.bind_eq_some_iff.mpr ⟨u, hid, hx⟩, he⟩

/-- The next alarm comes no later than any that is set. -/
theorem exists_nextAlarm? (hh : r.halt = none) (hx : r.alarm? id = some x) :
    ∃ t, r.nextAlarm? = some t ∧ t ≤ x.expiry := by
  obtain ⟨u, hu, hx⟩ := Option.bind_eq_some_iff.mp hx
  have hm : x.expiry ∈ r.taps.values.filterMap fun t => t.advertiser.alarm.map (·.expiry) :=
    List.mem_filterMap.mpr ⟨u, Table.mem_values_of_get? hu, by rw [hx]; rfl⟩
  unfold nextAlarm?
  rw [hh, if_neg (by simp)]
  cases hmin : (r.taps.values.filterMap fun t => t.advertiser.alarm.map (·.expiry)).min? with
  | none =>
    rw [List.min?_eq_none_iff.mp hmin] at hm
    cases hm
  | some t => exact ⟨t, rfl, (List.min?_eq_some_iff.mp hmin).2 _ hm⟩

/-- What is true of a responder in any course, with no alarm set for a time before this one. -/
structure Working (time : Nat) (r : Responder σ) : Prop where
  orderly : Orderly r
  watched : Watched r
  awaits : Tended (fun _ => Awaits time) r

namespace Working

variable {time : Nat}

theorem alarm (h : Working time r) (hx : r.alarm? id = some x) : time ≤ x.expiry := by
  obtain ⟨u, hu, hx⟩ := Option.bind_eq_some_iff.mp hx
  exact h.awaits.taps id u hu x hx

theorem later (h : Working time r) (ht : ∀ id x, r.alarm? id = some x → t ≤ x.expiry) :
    Working t r where
  orderly := h.orderly
  watched := h.watched
  awaits := h.awaits.imp fun id u hu _ x hx =>
    ht id x (Option.bind_eq_some_iff.mpr ⟨u, hu, hx⟩)

/-- No alarm is overdue, and none is set for a time before the next one. -/
theorem nextAlarm (h : Working time r) (ht : r.nextAlarm? = some t) :
    time ≤ t ∧ Working t r := by
  obtain ⟨hh, id, x, hx, rfl⟩ := nextAlarm?_spec ht
  refine ⟨h.alarm hx, h.later fun y u hu => ?_⟩
  obtain ⟨_, ht', hle⟩ := exists_nextAlarm? hh hu
  obtain rfl := Option.some.inj (ht.symm.trans ht')
  exact hle

end Working

variable [Host σ] {q z : Responder σ} {now time limit : Nat}

/-- When the program has ended, nobody takes a turn. -/
theorem step?_of_halt (h : r.halt.isSome = true) (now : Nat) : r.step? now = none := if_pos h

theorem exists_step? (hh : r.halt = none) {a : Actor} {rest : List Actor}
    (hs : r.schedule = a :: rest) (now : Nat) : ∃ q, r.step? now = some q := by
  cases a <;> simp [step?, hs, hh]

/-- Whether it is anybody's turn does not depend on the time. -/
theorem step?_eq_none_at (h : r.step? now = none) (t : Nat) : r.step? t = none := by
  cases hh : r.halt with
  | some x => exact step?_of_halt (by rw [hh]; rfl) t
  | none => simp [step?, schedule_of_step?_eq_none h hh]

theorem drain_of_step?_eq_none (h : r.step? now = none) : Reactor.drain now r = r :=
  Reactor.steps_of_step?_eq_none h _

/-- Had it failed before, it would have failed in the end. -/
theorem halt_of_drain (h : (Reactor.drain now r).halt ≠ some .failed) :
    r.halt ≠ some .failed := by
  intro hf
  rw [drain_of_step?_eq_none (step?_of_halt (by rw [hf]; rfl) now)] at h
  exact h hf

namespace Working

theorem step {c c' : Course σ} (h : Working time c.responder) (ht : time ≤ c.now)
    (s : Course.Step c c') : Working time c'.responder := by
  obtain ⟨-, ho, ha⟩ := (Course.Invariant.awaits time).step ⟨ht, h.orderly, h.awaits⟩ s
  exact ⟨ho, s.watched h.orderly h.watched, ha⟩

theorem step? (h : Working time r) (ht : time ≤ now) (hq : r.step? now = some q) :
    Working time q ∧ q.work < r.work :=
  ⟨h.step (c := { now := now, responder := r }) ht (.turn hq),
    (h.watched.step? h.orderly hq).2⟩

theorem step?_drain (h : Working time r) (ht : time ≤ now) :
    (Reactor.drain now r).step? now = none :=
  Reactor.step?_drain_eq_none (fun _ _ h hq => h.step? ht hq) h

theorem drain (h : Working time r) (ht : time ≤ now) : Working time (Reactor.drain now r) :=
  Reactor.steps_induction (fun _ _ h hq => (h.step? ht hq).1) _ h

/-- Draining begins with the first turn. -/
theorem drain_eq (h : Working time r) (ht : time ≤ now) (hq : r.step? now = some q) :
    Reactor.drain now r = Reactor.drain now q := by
  obtain ⟨hw, hlt⟩ := h.step? ht hq
  obtain ⟨k, hk⟩ := Nat.exists_eq_add_of_lt hlt
  have hwork : Reactor.work r = Reactor.work q + k + 1 := hk
  have hq' : Reactor.step? now r = some q := hq
  have hsteps : Reactor.drain now r = Reactor.steps now (Reactor.work q + k) q := by
    rw [Reactor.drain, hwork, Reactor.steps, hq']
  rw [hsteps, Reactor.steps_add]
  exact Reactor.steps_of_step?_eq_none (hw.step?_drain ht) k

theorem ring (h : Working time r) (ht : time ≤ t) : Working time (r.ring t) :=
  ring_induction (fun r id _ h hf =>
    h.step (c := { now := t, responder := r }) ht (.stir id hf)) h (Nat.le_refl t)

end Working

/-- Nothing is left to be done up to this time. -/
def Settled (limit : Nat) (r : Responder σ) : Prop := ∀ t, r.nextAlarm? = some t → limit < t

/-- From a responder that has handled all it has: the alarms go off in order, and what follows is
handled, up to this time. -/
inductive Runs (limit : Nat) : Responder σ → Responder σ → Prop
  | rest {r : Responder σ} (h : Settled limit r) : Runs limit r r
  | next {r z : Responder σ} {t : Nat} (ht : r.nextAlarm? = some t) (hl : t ≤ limit)
    (h : Runs limit (Reactor.drain t (r.ring t)) z) : Runs limit r z

/-- The loop runs, unless alarms without delay keep it from going on. -/
theorem Working.runs (h : Working now r) {rounds : Nat}
    (hs : Settled limit (Reactor.runUntil limit now rounds r)) :
    Runs limit (Reactor.drain now r) (Reactor.runUntil limit now rounds r) := by
  fun_induction Reactor.runUntil limit now rounds r with
  | case1 | case2 => exact .rest hs
  | case3 now _ r s t ht hl hlt ih =>
    have hw := ((h.drain (Nat.le_refl now)).nextAlarm ht).2
    exact .next ht (Nat.not_lt.mp hl) (ih (hw.ring (Nat.le_refl t)) hs)
  | case4 now r s t ht hl _ => exact absurd (hs t ht) hl
  | case5 now r s t ht hl hlt _ ih =>
    obtain ⟨hle, hw⟩ := (h.drain (Nat.le_refl now)).nextAlarm ht
    obtain rfl : now = t := Nat.le_antisymm hle (Nat.not_lt.mp hlt)
    exact .next ht (Nat.not_lt.mp hl) (ih (hw.ring (Nat.le_refl now)) hs)

theorem Runs.working (h : Runs limit r z) (hr : Working time r) : Working time z := by
  induction h with
  | rest => exact hr
  | next ht _ _ ih =>
    have hle := (hr.nextAlarm ht).1
    exact ih ((hr.ring hle).drain hle)

/-- When a run has come to its end, no alarm is left that is due. -/
theorem Working.runFor (h : Working now r) {ms : Nat}
    (hs : Settled (now + ms) (Reactor.runFor ms now r))
    (hh : (Reactor.runFor ms now r).halt = none) :
    Working (now + ms) (Reactor.runFor ms now r) := by
  have hrun := (h.runs hs).working (h.drain (Nat.le_refl now))
  refine hrun.later fun id x hx => ?_
  obtain ⟨t, ht, hle⟩ := exists_nextAlarm? hh hx
  exact Nat.le_of_lt (Nat.lt_of_lt_of_le (hs t ht) hle)

/-- Had it failed before, it would have failed in the end. -/
theorem Runs.halt (h : Runs limit r z) (hz : z.halt ≠ some .failed) : r.halt ≠ some .failed := by
  cases h with
  | rest => exact hz
  | next ht => simp [(nextAlarm?_spec ht).1]

end Responder

end RouterAdvert
