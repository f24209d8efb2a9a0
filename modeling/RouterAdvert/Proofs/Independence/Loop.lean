import RouterAdvert.Proofs.Independence.Turns

/-! Runs of responders that are alike for an interface. Alarms of its taps go off at the same times
in both; in between alarms of other taps go off, at different times in each, which change nothing.
So the responders are alike when each has run up to the same time. -/
namespace RouterAdvert.Responder

variable {σ : Type} {same : σ → σ → Prop} {i : Int32} {r r' z z' : Responder σ}

namespace Alike

theorem alarm? (h : Alike same i r r') {id : TapId} (hid : id.index = i) :
    r.alarm? id = r'.alarm? id := by
  have hbind (q : Responder σ) : q.alarm? id =
      ((q.taps.get? id).map (·.unnumbered)).bind fun t => t.advertiser.alarm := by
    rw [Option.bind_map]
    rfl
  rw [hbind, hbind, h.taps id hid]

/-- None of its alarms are due, so those that go off are not its own. -/
theorem ring_left (h : Alike same i r r') {t : Nat}
    (hq : ∀ id x, id.index = i → r.alarm? id = some x → t < x.expiry) :
    Alike same i (r.ring t) r' := by
  have hr := h.modifyAll_left blind_ring (r.armed.filter (r.isDue t ·))
  have hnone : (r.armed.filter (r.isDue t ·)).filter (·.index = i) = [] := by
    rw [List.filter_filter]
    refine List.filter_eq_nil_iff.mpr fun id _ hid => ?_
    rw [Bool.and_eq_true, decide_eq_true_eq] at hid
    obtain ⟨u, x, hu, hx, hle⟩ := isDue_eq_true.mp hid.2
    have hlt := hq id x hid.1 (Option.bind_eq_some_iff.mpr ⟨u, hu, hx⟩)
    omega
  rw [hnone] at hr
  exact hr

variable [Host σ]

theorem ring (S : Steady same) (h : Alike same i r r') (t : Nat) :
    Alike same i (r.ring t) (r'.ring t) := by
  have hdue (id : TapId) (hid : id.index = i) : r.isDue t id = r'.isDue t id :=
    congrArg (Option.any _) (h.alarm? hid)
  have hcomm (q : Responder σ) : (q.armed.filter (q.isDue t ·)).filter (·.index = i) =
      (q.armed.filter (·.index = i)).filter (q.isDue t ·) := by
    rw [List.filter_filter, List.filter_filter]
    exact List.filter_congr fun x _ => Bool.and_comm ..
  refine h.modifyAll S blind_ring ?_
  rw [hcomm, hcomm, ← h.armed]
  refine List.filter_congr fun id hid => hdue id ?_
  exact of_decide_eq_true (List.mem_filter.mp hid).2

/-- Alarms of other taps go off, and what follows from that is handled. -/
theorem next_left (S : Steady same) (h : Alike same i r r') {time now t : Nat}
    (hr : Working time r) (hr' : Working time r') (hidle' : r'.step? now = none)
    (ht : r.nextAlarm? = some t)
    (hq : ∀ id x, id.index = i → r.alarm? id = some x → t < x.expiry)
    (hn : (Reactor.drain t (r.ring t)).halt ≠ some .failed) :
    Alike same i (Reactor.drain t (r.ring t)) r' := by
  have hle := (hr.nextAlarm ht).1
  have hrest := drain_of_step?_eq_none (step?_eq_none_at hidle' t)
  have hn' : (Reactor.drain t r').halt ≠ some .failed := by
    rw [hrest, ← h.halt, (nextAlarm?_spec ht).1]
    simp
  have hd := (h.ring_left hq).drain S (hr.ring hle) hr' hle hn hn'
  rwa [hrest] at hd

end Alike

variable [Host σ] {limit time now : Nat}

namespace Runs

/-- While no alarm of the interface's taps is due, only alarms of other taps go off. -/
theorem catch_up (S : Steady same) (hrun : Runs limit r' z') (h : Alike same i r r')
    (hr : Working time r) (hr' : Working time r') (hidle : r.step? now = none)
    (hidle' : r'.step? now = none) (hz' : z'.halt ≠ some .failed) {t : Nat}
    (hq : ∀ id x, id.index = i → r.alarm? id = some x → t ≤ x.expiry) :
    ∃ q, Alike same i r q ∧ Working time q ∧ q.step? now = none ∧ Runs limit q z' ∧
      ∀ u, q.nextAlarm? = some u → u ≤ limit → t ≤ u := by
  induction hrun with
  | @rest r' hs =>
    exact ⟨r', h, hr', hidle', .rest hs, fun u hu hl => absurd (hs u hu) (Nat.not_lt.mpr hl)⟩
  | @next r' z' s hs hl hrun ih =>
    by_cases hts : t ≤ s
    · refine ⟨r', h, hr', hidle', .next hs hl hrun, fun u hu _ => ?_⟩
      obtain rfl := Option.some.inj (hs.symm.trans hu)
      exact hts
    · have hle := (hr'.nextAlarm hs).1
      have hquiet (id : TapId) (x : Advertiser.Alarm) (hid : id.index = i)
          (hx : r'.alarm? id = some x) : s < x.expiry := by
        have hx := hq id x hid ((h.alarm? hid).trans hx)
        omega
      have hnext := (h.symm S).next_left S hr' hr hidle hs hquiet (hrun.halt hz')
      have hring := hr'.ring hle
      exact ih (hnext.symm S) (hring.drain hle) (step?_eq_none_at (hring.step?_drain hle) now) hz'

/-- Runs up to the same time end alike. -/
theorem alike (S : Steady same) (hrun : Runs limit r z) (hrun' : Runs limit r' z')
    (h : Alike same i r r') (hr : Working time r) (hr' : Working time r')
    (hidle : r.step? now = none) (hidle' : r'.step? now = none) (hz : z.halt ≠ some .failed)
    (hz' : z'.halt ≠ some .failed) : Alike same i z z' := by
  -- The rounds in which alarms of the interface go off pair up; the others are taken alone.
  induction hrun generalizing r' with
  | @rest r hs =>
    cases hh : r.halt with
    | some x =>
      cases hrun' with
      | rest => exact h
      | next ht =>
        have hn := (nextAlarm?_spec ht).1
        rw [← h.halt, hh] at hn
        cases hn
    | none =>
      obtain ⟨q, hq, -, -, hrunq, hlate⟩ :=
        hrun'.catch_up (t := limit + 1) S h hr hr' hidle hidle' hz' fun id x _ hx => by
          obtain ⟨t, ht, hle⟩ := exists_nextAlarm? hh hx
          exact Nat.lt_of_lt_of_le (hs t ht) hle
      cases hrunq with
      | rest => exact hq
      | next ht hl =>
        have hlt := hlate _ ht hl
        omega
  | @next r z t ht hl hrun ih =>
    have hle := (hr.nextAlarm ht).1
    have hring := hr.ring hle
    have hhalt := (nextAlarm?_spec ht).1
    have hfirst (id : TapId) (x : Advertiser.Alarm) (hx : r.alarm? id = some x) :
        t ≤ x.expiry := by
      obtain ⟨u, hu, hle⟩ := exists_nextAlarm? hhalt hx
      obtain rfl := Option.some.inj (ht.symm.trans hu)
      exact hle
    by_cases hown : ∃ id x, id.index = i ∧ r.alarm? id = some x ∧ x.expiry ≤ t
    · obtain ⟨id, x, hid, hx, hxt⟩ := hown
      obtain ⟨q, hq, hwq, hidleq, hrunq, hlate⟩ :=
        hrun'.catch_up S h hr hr' hidle hidle' hz' fun id x _ hx => hfirst id x hx
      obtain ⟨u, hu, hux⟩ := exists_nextAlarm? (hq.halt ▸ hhalt) ((hq.alarm? hid).symm.trans hx)
      cases hrunq with
      | rest hs =>
        have hlt := hs u hu
        omega
      | @next _ _ s hs hsl hrunq =>
        have hts := hlate s hs hsl
        obtain rfl := Option.some.inj (hs.symm.trans hu)
        obtain rfl : t = s := by omega
        have hringq := hwq.ring hle
        have hboth := (hq.ring S t).drain S hring hringq hle (hrun.halt hz) (hrunq.halt hz')
        exact ih hrunq hboth (hring.drain hle) (hringq.drain hle)
          (step?_eq_none_at (hring.step?_drain hle) now)
          (step?_eq_none_at (hringq.step?_drain hle) now) hz
    · have hquiet (id : TapId) (x : Advertiser.Alarm) (hid : id.index = i)
          (hx : r.alarm? id = some x) : t < x.expiry :=
        Nat.not_le.mp fun hxt => hown ⟨id, x, hid, hx, hxt⟩
      exact ih hrun' (h.next_left S hr hr' hidle' ht hquiet (hrun.halt hz)) (hring.drain hle) hr'
        (step?_eq_none_at (hring.step?_drain hle) now) hidle' hz

end Runs

/-- Both run for the same time, and each comes to the end of it. -/
theorem Alike.runFor (S : Steady same) (h : Alike same i r r') (hr : Working now r)
    (hr' : Working now r') {ms : Nat}
    (hs : Settled (now + ms) (Reactor.runFor ms now r))
    (hs' : Settled (now + ms) (Reactor.runFor ms now r'))
    (hn : (Reactor.runFor ms now r).halt ≠ some .failed)
    (hn' : (Reactor.runFor ms now r').halt ≠ some .failed) :
    Alike same i (Reactor.runFor ms now r) (Reactor.runFor ms now r') := by
  have hle := Nat.le_refl now
  have hrun := hr.runs hs
  have hrun' := hr'.runs hs'
  have hd := h.drain S hr hr' hle (hrun.halt hn) (hrun'.halt hn')
  exact hrun.alike S hrun' hd (hr.drain hle) (hr'.drain hle) (hr.step?_drain hle)
    (hr'.step?_drain hle) hn hn'

end RouterAdvert.Responder
