import RouterAdvert.Proofs.Responder.Leaving
import RouterAdvert.Proofs.Responder.Running

/-! A responder that no link is announced to. With nothing for its watch to handle, the taps go on
by themselves, and only an interface that it is asked to serve can end the program. -/
namespace RouterAdvert.Responder

variable {σ : Type} {r r' : Responder σ}

theorem close_watch (i : Int32) (r : Responder σ) :
    (r.close i).watch = r.watch ∧ (r.close i).halt = r.halt := by
  cases hi : r.registry.get? i with
  | none => simp [close, hi]
  | some id =>
    rw [Orderly.close_of_some hi]
    exact cancelAll_watch [id] { r with registry := r.registry.erase i }

theorem install_watch (now : Nat) (i : Int32) (t : Tap) (r : Responder σ) :
    (r.install now i t).watch = r.watch := by
  have hreplace (q : Responder σ) (previous : Option TapId) :
      (Orderly.replace now t.link.name previous q).watch = q.watch := by
    cases previous with
    | none => rfl
    | some p => exact (modifyTap_watch p .cancel _).1
  rw [Orderly.install_eq, (modifyTap_watch _ _ _).1, hreplace]
  rfl

variable [Host σ]

theorem build_watch (now : Nat) (i : Int32) (r : Responder σ) :
    (r.build now i).1.watch = r.watch := by
  dsimp only [build]
  split
  · rfl
  · split
    · rfl
    · rfl
    · split
      · rfl
      · dsimp only [noteFindings]
        split <;> split <;> rfl

theorem add_watch (now : Nat) (i : Int32) (r : Responder σ) :
    (r.add now i).1.watch = r.watch := by
  have hb := build_watch now i r
  rw [add_eq]
  cases hr : r.build now i with
  | mk q x =>
    rw [hr] at hb
    cases x with
    | ok t => exact (install_watch now i t q).trans hb
    | error o =>
      cases o with
      | impossibleRoute => exact hb
      | refused e => cases e <;> exact hb

/-- A run in which nothing is announced. -/
theorem Working.runUntil_unannounced {time : Nat} (h : Working time r) (hm : r.watch.mailbox = [])
    (limit now rounds : Nat) :
    (Reactor.runUntil limit now rounds r).watch = r.watch ∧
      (Reactor.runUntil limit now rounds r).halt = r.halt := by
  refine (Reactor.runUntil_induction
    (P := fun q => Working 0 q ∧ q.watch = r.watch ∧ q.halt = r.halt) (fun now q q' hq hs => ?_)
    (fun t q hq => ?_) limit now rounds ⟨h.later fun _ _ _ => Nat.zero_le _, rfl, rfl⟩).2
  · obtain ⟨hq, hw, hh⟩ := hq
    obtain ⟨hw', hh', -⟩ := step?_of_idle hq.orderly hq.watched (hw ▸ hm) hs
    exact ⟨(hq.step? (Nat.zero_le now) hs).1, hw'.trans hw, hh'.trans hh⟩
  · obtain ⟨hq, hw, hh⟩ := hq
    refine ⟨hq.ring (Nat.zero_le t), ?_⟩
    refine ring_induction (P := fun q => q.watch = r.watch ∧ q.halt = r.halt)
      (fun q id f hq _ => ?_) ⟨hw, hh⟩ (Nat.le_refl t)
    obtain ⟨hw', hh'⟩ := modifyTap_watch id f q
    exact ⟨hw'.trans hq.1, hh'.trans hq.2⟩

end RouterAdvert.Responder
