import Mathlib.Data.Set.Card
import RouterAdvert.Bench
import RouterAdvert.Proofs.Responder.Attained

/-! The registry tells what has happened, and which taps are at work. A tap is in service from its
insertion until something ends that, whoever still holds it; when nothing is left to handle, the
taps that are not closed are those in service. -/
namespace RouterAdvert.Service

open Responder

variable {σ : Type} {s s' : Service σ}

/-- The record agrees with the registry and the taps. -/
structure Recorded (s : Service σ) : Prop where
  registry : ∀ i id, s.responder.registry.get? i = some id ↔ Serves s.history i id
  taps : ∀ i id, .inserted i id ∈ s.history ↔ i = id.index ∧ (s.responder.taps.get? id).isSome

namespace Recorded

variable {r : Responder σ}

theorem next_nil (h : Recorded s)
    (hr : ∀ i x, r.registry.get? i = some x ↔ s.responder.registry.get? i = some x)
    (ht : ∀ x, (r.taps.get? x).isSome = (s.responder.taps.get? x).isSome) :
    Recorded (s.next r []) where
  registry i x := by
    rw [next, List.append_nil]
    exact (hr i x).trans (h.registry i x)
  taps i x := by
    rw [next, List.append_nil, ht]
    exact h.taps i x

theorem next_one (h : Recorded s) {e : Happening}
    (hr : ∀ i x, r.registry.get? i = some x ↔
      e = .inserted i x ∨ s.responder.registry.get? i = some x ∧ ¬e.Ends i x)
    (ht : ∀ i x, i = x.index ∧ (r.taps.get? x).isSome ↔
      i = x.index ∧ (s.responder.taps.get? x).isSome ∨ .inserted i x = e) :
    Recorded (s.next r [e]) where
  registry i x := by
    refine (hr i x).trans (Iff.trans ?_ serves_concat.symm)
    rw [h.registry]
  taps i x := by
    refine Iff.trans ?_ (ht i x).symm
    rw [next, List.mem_append, List.mem_singleton, h.taps]

end Recorded

variable [Host σ]

theorem Step.recorded (st : Step s s') (h : Orderly s.responder) (hr : Recorded s) :
    Recorded s' := by
  cases st with
  | pass delay => exact ⟨hr.registry, hr.taps⟩
  | aside ha => exact hr.next_nil (fun _ _ => by rw [ha.registry]) fun _ => by rw [ha.taps]
  | add i =>
    rcases s.responder.add_spec s.now i with ⟨q, t, p, ha, hp, he, hb⟩ | ⟨ha, hb⟩
    · rw [hb, he, if_pos rfl]
      obtain ⟨hreg, hsome⟩ := Orderly.frame_install s.now i t q
      have hid : q.freshId i = s.responder.freshId i := by rw [freshId, freshId, ha.taps]
      rw [hid] at hreg hsome
      refine hr.next_one (fun j x => ?_) fun j x => ?_
      · rw [hreg, ha.registry, Table.get?_insert_eq_some_iff]
        simp [Happening.Ends, eq_comm, and_comm]
      · rw [hsome, ha.taps]
        constructor
        · rintro ⟨hj, rfl | hx⟩
          · exact Or.inr (by rw [hj]; rfl)
          · exact Or.inl ⟨hj, hx⟩
        · rintro (⟨hj, hx⟩ | hx)
          · exact ⟨hj, Or.inr hx⟩
          · obtain ⟨rfl, rfl⟩ := Happening.inserted.inj hx
            exact ⟨rfl, Or.inl rfl⟩
    · rw [hb, if_neg (by simp)]
      exact hr.next_nil (fun _ _ => by rw [ha.registry]) fun _ => by rw [ha.taps]
  | close i =>
    obtain ⟨hreg, hsome⟩ := Orderly.frame_close i s.responder
    refine hr.next_one (fun j x => ?_) fun j x => ?_
    · rw [hreg]
      simp [Happening.Ends, eq_comm]
    · rw [hsome]
      simp
  | closeAll =>
    obtain ⟨hreg, hsome⟩ := Orderly.frame_closeAll s.responder
    refine hr.next_one (fun j x => ?_) fun j x => ?_
    · rw [hreg]
      simp [Happening.Ends]
    · rw [hsome]
      simp
  | stir id hf =>
    exact hr.next_nil (fun _ _ => by rw [registry_modifyTap]) (isSome_get?_modifyTap id _ _)
  | @turn id t u rest hs ht hk =>
    obtain ⟨e, events, hm⟩ := Advertiser.exists_of_step? hk
    rw [((h.tended.taps id t ht).handle hm hk).1]
    have hreg := h.get?_stepTap ht hk rest
    have hsome := Orderly.isSome_get?_stepTap ht hk rest
    split <;> rename_i hd
    · refine hr.next_one (fun i x => ?_) fun i x => ?_
      · rw [hreg, hd]
        simp [Happening.Ends, eq_comm]
      · rw [hsome]
        simp
    · exact hr.next_nil (fun i x => (hreg i x).trans (by simp [hd])) hsome

theorem Reachable.recorded (h : Reachable s) : Recorded s := by
  induction h with
  | new now host timing selects => exact ⟨by simp [Serves], by simp⟩
  | step h st ih => exact st.recorded h.orderly ih

/-- With nothing left to handle, the taps that are not closed are those in service, at most one for
each interface, and each of them connects or advertises. -/
theorem live_iff_in_service (h : Reachable s) (hq : s.responder.schedule = []) :
    (∀ id, (∃ t, s.responder.taps.get? id = some t ∧ t.phase ≠ .closed) ↔
      s.responder.get? id.index = some id) ∧
    (∀ i id, s.responder.get? i = some id → i = id.index ∧
      ∃ t, s.responder.taps.get? id = some t ∧ (t.phase = .connecting ∨ t.phase = .active)) ∧
    (∀ i id, .inserted i id ∈ s.history ↔ i = id.index ∧ (s.responder.taps.get? id).isSome) ∧
    ∀ x y t u, s.responder.taps.get? x = some t → s.responder.taps.get? y = some u →
      t.phase ≠ .closed → u.phase ≠ .closed → x.index = y.index → x = y := by
  have ho := h.orderly
  have hrest (id : TapId) (t : Tap) (ht : s.responder.taps.get? id = some t) :
      (t.phase ≠ .closed ↔ s.responder.InService id) ∧
        (s.responder.InService id → t.phase = .connecting ∨ t.phase = .active) := by
    refine (ho.tended.taps id t ht).at_rest (List.eq_nil_of_length_eq_zero ?_)
    have hw := ho.tended.turns id
    rw [hq, waiting, ht] at hw
    exact hw.symm
  have hserved (i : Int32) (id : TapId) (hi : s.responder.get? i = some id) :
      i = id.index ∧ ∃ t, s.responder.taps.get? id = some t ∧
        (t.phase = .connecting ∨ t.phase = .active) := by
    obtain ⟨rfl, hs⟩ := ho.registered i id hi
    obtain ⟨t, ht⟩ := Option.isSome_iff_exists.mp hs
    exact ⟨rfl, t, ht, (hrest id t ht).2 hi⟩
  refine ⟨fun id => ⟨?_, fun hi => ?_⟩, hserved, h.recorded.taps, ?_⟩
  · rintro ⟨t, ht, hc⟩
    exact (hrest id t ht).1.mp hc
  · obtain ⟨-, t, ht, -⟩ := hserved id.index id hi
    exact ⟨t, ht, (hrest id t ht).1.mpr hi⟩
  · intro x y t u ht hu hct hcu hxy
    have hx : s.responder.get? x.index = some x := (hrest x t ht).1.mp hct
    have hy : s.responder.get? y.index = some y := (hrest y u hu).1.mp hcu
    rw [hxy, hy] at hx
    exact (Option.some.inj hx).symm

/-- A tap that was put into service for an interface is at work when all is handled. -/
theorem live_after_add :
    ∃ s : Service Bench, Reachable s ∧ s.responder.schedule = [] ∧
      ∃ t, s.responder.taps.get? ⟨5, 0⟩ = some t ∧ t.phase ≠ .closed := by
  obtain ⟨hs, h⟩ := ((Attained.new (σ := Bench) 0
    { Bench.addLink { index := 5 } {} with routes := [{ interface := 5, table := 254 }] } {}
    fun _ => true).add 5).drain
  have hlive (r : Responder Bench) (h : Reachable { now := 0, responder := r, history := hs })
      (hq : r.schedule = []) (hg : r.get? 5 = some ⟨5, 0⟩) :
      ∃ s : Service Bench, Reachable s ∧ s.responder.schedule = [] ∧
        ∃ t, s.responder.taps.get? ⟨5, 0⟩ = some t ∧ t.phase ≠ .closed :=
    ⟨_, h, hq, ((live_iff_in_service h hq).1 ⟨5, 0⟩).mpr hg⟩
  exact hlive _ h (by decide +kernel) (by decide +kernel)

/-- Whether a reference that keeps no tap alive can be followed: someone holds the tap, or the
registry does. -/
def Followed (held : TapId → Prop) (id : TapId) (r : Responder σ) : Prop :=
  held id ∨ id ∈ r.registry.values

/-- The tap in service for an interface is the last one that was put into service for it, unless the
interface or all of them have been closed or the tap has come to its end since. Nothing depends on
who holds a tap that is out of service. -/
theorem in_service_iff_serves (h : Reachable s) :
    (∀ i id, s.responder.get? i = some id ↔ Serves s.history i id) ∧
    (∀ i, s.responder.check i = true ↔ s.responder.get? i ≠ none) ∧
    s.responder.size = {i | ∃ id, Serves s.history i id}.ncard ∧
    ∀ held id, Followed held id s.responder ∧ s.responder.get? id.index = some id ↔
      s.responder.get? id.index = some id := by
  have hr := h.recorded
  refine ⟨hr.registry, fun i => Option.isSome_iff_ne_none, ?_, fun held id => ?_⟩
  · have hs : {i | ∃ id, Serves s.history i id} = s.responder.registry.keys.toFinset := by
      ext i
      simp only [Set.mem_ofPred_eq, Finset.mem_coe, List.mem_toFinset, ← Table.isSome_get?_iff,
        Option.isSome_iff_exists, hr.registry]
    have hn : s.responder.registry.keys.Nodup := s.responder.registry.nodup
    rw [hs, Set.ncard_coe_finset, List.toFinset_card_of_nodup hn]
    exact (List.length_map _).symm
  · exact and_iff_right_of_imp fun hi => Or.inr (Table.mem_values_of_get? hi)

/-- When a tap was replaced and has come to its end, the one that replaced it still serves. -/
theorem serves_after_replacement :
    ∃ s : Service Bench, Reachable s ∧ s.responder.schedule = [] ∧ Serves s.history 5 ⟨5, 1⟩ := by
  obtain ⟨hs, h⟩ := (((Attained.new (σ := Bench) 0
    { Bench.addLink { index := 5 } {} with routes := [{ interface := 5, table := 254 }] } {}
    fun _ => true).add 5).add 5).drain
  have hserves (r : Responder Bench) (h : Reachable { now := 0, responder := r, history := hs })
      (hq : r.schedule = []) (hg : r.get? 5 = some ⟨5, 1⟩) :
      ∃ s : Service Bench, Reachable s ∧ s.responder.schedule = [] ∧ Serves s.history 5 ⟨5, 1⟩ :=
    ⟨_, h, hq, ((in_service_iff_serves h).1 5 ⟨5, 1⟩).mp hg⟩
  exact hserves _ h (by decide +kernel) (by decide +kernel)

end RouterAdvert.Service
