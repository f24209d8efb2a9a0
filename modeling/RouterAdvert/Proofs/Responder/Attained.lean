import RouterAdvert.Proofs.Loop
import RouterAdvert.Proofs.Responder.Kept
import RouterAdvert.Proofs.Responder.Service

/-! Whatever the responder does by itself is made of the steps of a service: the turns of its taps
and of the watch, alarms that go off, and the loop that runs it for some time. -/
namespace RouterAdvert.Responder

open Service

variable {σ : Type}

/-- What is kept by all that can happen to a tap is kept while alarms that are due go off one after
the other. -/
theorem ringAll_induction {P : Responder σ → Prop} {now : Nat}
    (hstir : ∀ (r : Responder σ) (id : TapId) (f : Advertiser → Advertiser), P r →
      (∀ t, r.taps.get? id = some t →
        f t.advertiser = t.advertiser ∨ Advertiser.Stir now t.advertiser (f t.advertiser)) →
      P (r.modifyTap id f))
    {r : Responder σ} (h : P r) (ids : List TapId)
    (hd : ∀ id ∈ ids, ∀ t x, r.taps.get? id = some t → t.advertiser.alarm = some x →
      x.expiry ≤ now) :
    P (ids.foldl (fun r id => r.modifyTap id .ring) r) := by
  induction ids generalizing r with
  | nil => exact h
  | cons id ids ih =>
    refine ih (hstir r id .ring h fun t ht => ?_) fun y hy t x ht hx => ?_
    · cases hx : t.advertiser.alarm with
      | none => exact Or.inl (by simp [Advertiser.ring, hx])
      | some x => exact Or.inr (.ring hx (hd id List.mem_cons_self t x ht hx))
    · rcases get?_modifyTap ht with ⟨rfl, u, -, rfl⟩ | ht
      · cases hu : u.advertiser.alarm <;> simp [Advertiser.ring, Advertiser.post, hu] at hx
      · exact hd y (List.mem_cons_of_mem id hy) t x ht hx

theorem ring_induction {P : Responder σ → Prop} {now : Nat}
    (hstir : ∀ (r : Responder σ) (id : TapId) (f : Advertiser → Advertiser), P r →
      (∀ t, r.taps.get? id = some t →
        f t.advertiser = t.advertiser ∨ Advertiser.Stir now t.advertiser (f t.advertiser)) →
      P (r.modifyTap id f))
    {r : Responder σ} (h : P r) {time : Nat} (ht : time ≤ now) : P (r.ring time) := by
  refine ringAll_induction hstir h _ fun id hid t x hget hx => ?_
  obtain ⟨u, y, hu, hy, hexp⟩ := isDue_eq_true.mp (List.mem_filter.mp hid).2
  obtain rfl := Option.some.inj (hget.symm.trans hu)
  obtain rfl := Option.some.inj (hx.symm.trans hy)
  exact Nat.le_trans hexp ht

variable [Host σ]

/-- Whether there is a service that comes to this responder at this time. -/
def Attained (now : Nat) (r : Responder σ) : Prop :=
  ∃ hs, Reachable { now := now, responder := r, history := hs }

namespace Attained

variable {now : Nat} {r r' : Responder σ}

theorem new (now : Nat) (host : σ) (timing : Timing) (selects : Bytes → Bool) :
    Attained now { host := host, timing := timing, selects := selects } :=
  ⟨[], .new now host timing selects⟩

theorem orderly (h : Attained now r) : Orderly r := h.choose_spec.orderly

theorem pass (h : Attained now r) {later : Nat} (hl : now ≤ later) : Attained later r := by
  obtain ⟨hs, h⟩ := h
  obtain ⟨delay, rfl⟩ := Nat.exists_eq_add_of_le hl
  exact ⟨hs, h.step (.pass delay)⟩

theorem aside (h : Attained now r) (ha : Aside r r') : Attained now r' :=
  ⟨_, h.choose_spec.step (.aside ha)⟩

theorem add (h : Attained now r) (i : Int32) : Attained now (r.add now i).1 :=
  ⟨_, h.choose_spec.step (.add i)⟩

theorem close (h : Attained now r) (i : Int32) : Attained now (r.close i) :=
  ⟨_, h.choose_spec.step (.close i)⟩

theorem closeAll (h : Attained now r) : Attained now r.closeAll :=
  ⟨_, h.choose_spec.step .closeAll⟩

theorem stir (h : Attained now r) (id : TapId) {f : Advertiser → Advertiser}
    (hf : ∀ t, r.taps.get? id = some t →
      f t.advertiser = t.advertiser ∨ Advertiser.Stir now t.advertiser (f t.advertiser)) :
    Attained now (r.modifyTap id f) :=
  ⟨_, h.choose_spec.step (.stir id hf)⟩

theorem turn (h : Attained now r) {id : TapId} {rest : List Actor}
    (hs : r.schedule = .tap id :: rest) :
    Attained now ({ r with schedule := rest }.stepTap now id) := by
  obtain ⟨t, u, ht, hk⟩ := h.orderly.tended.exists_turn now hs
  exact ⟨_, h.choose_spec.step (.turn hs ht hk)⟩

theorem kept (now : Nat) : Kept now (Attained (σ := σ) now) := ⟨aside, add, close, closeAll⟩

theorem setWatch (h : Attained now r) (w : LinkWatch) : Attained now (r.setWatch w) :=
  h.aside (aside_setWatch w r)

theorem startWatch (h : Attained now r) : Attained now (r.startWatch now).1 :=
  h.aside (aside_startWatch now r)

theorem step? (h : Attained now r) (hr : r.step? now = some r') : Attained now r' := by
  obtain ⟨-, rest, ⟨hs, rfl⟩ | ⟨id, hs, rfl⟩⟩ := step?_cases hr
  · exact (kept now).watchTurn h hs
  · exact h.turn hs

theorem ring (h : Attained now r) {time : Nat} (ht : time ≤ now) : Attained now (r.ring time) :=
  ring_induction (fun _ id _ h hf => h.stir id hf) h ht

theorem steps (h : Attained now r) (n : Nat) : Attained now (Reactor.steps now n r) :=
  Reactor.steps_induction (fun _ _ h hr => h.step? hr) n h

theorem drain (h : Attained now r) : Attained now (Reactor.drain now r) := h.steps _

/-- The clock moves to the alarms, or alarms go off without it. -/
theorem runUntil (h : Attained now r) {limit : Nat} (hl : now ≤ limit) (rounds : Nat) :
    ∃ later, later ≤ limit ∧ Attained later (Reactor.runUntil limit now rounds r) := by
  fun_induction Reactor.runUntil limit now rounds r with
  | case1 now => exact ⟨now, hl, h.drain⟩
  | case2 now => exact ⟨now, hl, h.drain⟩
  | case3 now _ r s t _ ht hlt ih =>
    exact ih ((h.drain.pass (Nat.le_of_lt hlt)).ring (Nat.le_refl t)) (Nat.not_lt.mp ht)
  | case4 now => exact ⟨now, hl, h.drain⟩
  | case5 now r s t _ _ hlt _ ih => exact ih (h.drain.ring (Nat.not_lt.mp hlt)) hl

theorem runFor (h : Attained now r) (duration : Nat) :
    Attained (now + duration) (Reactor.runFor duration now r) := by
  obtain ⟨later, hl, hr⟩ := h.runUntil (Nat.le_add_right now duration) _
  exact hr.pass hl

end Attained

end RouterAdvert.Responder
