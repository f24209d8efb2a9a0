import RouterAdvert.Proofs.Responder.Kept
import RouterAdvert.Proofs.Responder.Orderly

/-! What all taps have in common. If nothing that happens around an advertiser changes some property
of it, and new advertisers have it, no operation on the registry does away with it, nor does any
turn of the watch. -/
namespace RouterAdvert.Responder

open Advertiser

variable {σ : Type}

/-- The property while the new tap `id` waits for its start. -/
def Pending (id : TapId) (p : Profile) (S : TapId → Advertiser → Prop) (x : TapId)
    (a : Advertiser) : Prop :=
  (x = id → a = { profile := p }) ∧ (x ≠ id → S x a)

namespace Tended

variable {now : Nat} {S : TapId → Advertiser → Prop} {r : Responder σ} {id : TapId}

theorem cancel (h : Tended S r) (hS : Stable now S) (id : TapId) :
    Tended S (r.modifyTap id .cancel) := h.stir hS fun _ _ => Or.inr .cancel

theorem cancelAll (h : Tended S r) (hS : Stable now S) (ids : List TapId) :
    Tended S (Orderly.cancelAll ids r) := by
  induction ids generalizing r with
  | nil => exact h
  | cons id ids ih => exact ih (h.cancel hS id)

theorem close (h : Tended S r) (hS : Stable now S) (i : Int32) : Tended S (r.close i) := by
  cases hi : r.registry.get? i with
  | none => simpa [Responder.close, hi] using h
  | some id =>
    have hr : Tended S { r with registry := r.registry.erase i } := h.of_eq rfl fun _ => rfl
    rw [Orderly.close_of_some hi]
    exact hr.cancelAll hS [id]

theorem closeAll (h : Tended S r) (hS : Stable now S) : Tended S r.closeAll := by
  have hr : Tended S { r with registry := .empty } := h.of_eq rfl fun _ => rfl
  exact hr.cancelAll hS r.registry.values

theorem install (h : Tended S r) (hS : Stable now S) {i : Int32} {t : Tap} {p : Profile}
    (hp : t.advertiser = { profile := p }) (hprev : r.registry.get? i ≠ some (r.freshId i))
    (hn : S (r.freshId i) (start .deregister { profile := p })) :
    Tended S (r.install now i t) := by
  have hput : Tended (Pending (r.freshId i) p S)
      ({ r with registry := r.registry.insert i (r.freshId i) }.setTap (r.freshId i) t) :=
    (h.insert i t ⟨fun _ => hp, fun hne => absurd rfl hne⟩ fun x a hx ha =>
      ⟨fun hxi => absurd hxi hx, fun _ => ha⟩).of_eq rfl fun _ => rfl
  have hreplace : Tended (Pending (r.freshId i) p S)
      (Orderly.replace now t.link.name (r.registry.get? i)
        ({ r with registry := r.registry.insert i (r.freshId i) }.setTap (r.freshId i) t)) := by
    cases hq : r.registry.get? i with
    | none => exact hput
    | some q =>
      have hne : q ≠ r.freshId i := fun hqi => hprev (hq.trans (congrArg some hqi))
      have hnote := hput.aside (aside_note ⟨now, none⟩ (.tapReplaced t.link.name) _)
      refine hnote.modifyTap .cancel (fun _ _ => ⟨_, rfl⟩) (fun _ _ ha => ?_) fun _ _ _ ha => ha
      exact ⟨fun hqi => absurd hqi hne, fun hqi => hS q _ _ (ha.2 hqi) .cancel⟩
  rw [Orderly.install_eq]
  refine hreplace.modifyTap (.start .deregister) (fun _ _ => ⟨_, rfl⟩) (fun _ _ ha => ?_)
    fun _ _ hx ha => ha.2 hx
  rw [ha.1 rfl]
  exact hn

end Tended

variable [Host σ] {now : Nat}

theorem kept_orderly (now : Nat) : Kept now (Orderly (σ := σ)) where
  aside := Orderly.aside
  add h i := h.add now i
  close := Orderly.close
  closeAll := Orderly.closeAll

/-- A tap that was made stays. -/
theorem kept_made (now : Nat) (id : TapId) :
    Kept now fun r : Responder σ => Orderly r ∧ (r.taps.get? id).isSome where
  aside h ha := ⟨h.1.aside ha, by rw [ha.taps]; exact h.2⟩
  add := by
    intro r h i
    refine ⟨h.1.add now i, ?_⟩
    rcases r.add_spec now i with ⟨q, t, p, ha, -, he, -⟩ | ⟨ha, -⟩
    · rw [he, (Orderly.frame_install now i t q).2, ha.taps]
      exact Or.inr h.2
    · rw [ha.taps]
      exact h.2
  close := by
    intro r h i
    refine ⟨h.1.close i, ?_⟩
    rw [(Orderly.frame_close i r).2]
    exact h.2
  closeAll := by
    intro r h
    refine ⟨h.1.closeAll, ?_⟩
    rw [(Orderly.frame_closeAll r).2]
    exact h.2

/-- What all taps have in common is kept by every turn of the watch. -/
theorem Kept.tended {P : Responder σ → Prop} {S : TapId → Advertiser → Prop} (kept : Kept now P)
    (hP : ∀ r, P r → Orderly r) (hS : Stable now S)
    (hn : ∀ r, P r → ∀ i p, S (r.freshId i) (start .deregister { profile := p })) :
    Kept now fun r => P r ∧ Tended S r where
  aside h ha := ⟨kept.aside h.1 ha, h.2.aside ha⟩
  add := by
    intro r h i
    refine ⟨kept.add h.1 i, ?_⟩
    rcases r.add_spec now i with ⟨q, t, p, ha, hp, he, -⟩ | ⟨ha, -⟩
    · have hq : P q := kept.aside h.1 ha
      rw [he]
      exact (h.2.aside ha).install hS hp ((hP q hq).ne_freshId i) (hn q hq i p)
    · exact h.2.aside ha
  close h i := ⟨kept.close h.1 i, h.2.close hS i⟩
  closeAll h := ⟨kept.closeAll h.1, h.2.closeAll hS⟩

end RouterAdvert.Responder
