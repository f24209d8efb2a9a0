import RouterAdvert.Proofs.Responder.Tended

/-! What each operation on the registry keeps: every tap is served as it should be, in service or
not, and a tap in service is there under the index of its interface. -/
namespace RouterAdvert.Responder

open Advertiser

variable {σ : Type}

/-- Whether a tap is the one in service for its interface. -/
def InService (r : Responder σ) (id : TapId) : Prop := r.registry.get? id.index = some id

structure Orderly (r : Responder σ) : Prop where
  tended : Tended (fun id => Serving (r.InService id)) r
  registered : ∀ i id, r.registry.get? i = some id → id.index = i ∧ (r.taps.get? id).isSome

namespace Orderly

variable {r r' : Responder σ}

theorem inService_iff {r r' : Responder σ} (h : r'.registry = r.registry) (id : TapId) :
    r'.InService id ↔ r.InService id := by
  rw [InService, InService, h]

theorem aside (h : Orderly r) (ha : Aside r r') : Orderly r' where
  tended := (h.tended.aside ha).imp fun x _ _ hx => hx.of_iff (inService_iff ha.registry x)
  registered := by
    rw [ha.registry, ha.taps]
    exact h.registered

/-- Something happens around a tap, or nothing. -/
theorem stir {now : Nat} {id : TapId} {f : Advertiser → Advertiser} (h : Orderly r)
    (hf : ∀ t, r.taps.get? id = some t →
      f t.advertiser = t.advertiser ∨ Stir now t.advertiser (f t.advertiser)) :
    Orderly (r.modifyTap id f) := by
  constructor
  case tended =>
    have hstable : Stable now fun id => Serving (r.InService id) := fun _ _ _ ha hs => ha.stir hs
    exact (h.tended.stir hstable hf).imp fun x _ _ hx =>
      hx.of_iff (inService_iff (registry_modifyTap id f r) x)
  case registered =>
    intro i x hx
    rw [registry_modifyTap] at hx
    rw [isSome_get?_modifyTap]
    exact h.registered i x hx

/-- Cancels taps that go out of service. -/
def cancelAll (ids : List TapId) (r : Responder σ) : Responder σ :=
  ids.foldl (fun r id => r.modifyTap id .cancel) r

theorem tended_cancelAll {P : TapId → Prop} (h : Tended (fun id => Serving (P id)) r)
    (ids : List TapId) : Tended (fun id => Serving (P id ∧ id ∉ ids)) (cancelAll ids r) := by
  induction ids generalizing r P with
  | nil => exact h.imp fun x _ _ hx => hx.of_iff (by simp)
  | cons id ids ih =>
    have hc : Tended (fun x => Serving (P x ∧ x ≠ id)) (r.modifyTap id .cancel) :=
      h.modifyTap .cancel (fun _ _ => ⟨_, rfl⟩) (fun _ _ ha => ha.cancel.of_iff (by simp))
        fun x a hx ha => ha.of_iff (by simp [hx])
    refine (ih hc).imp fun x _ _ hx => hx.of_iff ?_
    simp [and_assoc]

theorem frame_cancelAll (ids : List TapId) (r : Responder σ) :
    (cancelAll ids r).registry = r.registry ∧
      ∀ x, ((cancelAll ids r).taps.get? x).isSome = (r.taps.get? x).isSome := by
  induction ids generalizing r with
  | nil => exact ⟨rfl, fun _ => rfl⟩
  | cons id ids ih =>
    obtain ⟨hr, hs⟩ := ih (r.modifyTap id .cancel)
    exact ⟨hr.trans (registry_modifyTap id .cancel r),
      fun x => (hs x).trans (isSome_get?_modifyTap id .cancel r x)⟩

theorem size_cancelAll (ids : List TapId) (r : Responder σ) :
    (cancelAll ids r).taps.size = r.taps.size := by
  induction ids generalizing r with
  | nil => rfl
  | cons id ids ih => exact (ih _).trans (size_modifyTap id .cancel r)

/-- Taps that leave the registry are canceled. -/
theorem withdrawAll (h : Orderly r) {registry : Table Int32 TapId} {ids : List TapId}
    (hr : ∀ i x, registry.get? i = some x ↔ r.registry.get? i = some x ∧ x ∉ ids) :
    Orderly (cancelAll ids { r with registry := registry }) := by
  obtain ⟨hreg, hsome⟩ := frame_cancelAll ids { r with registry := registry }
  have ht : Tended (fun id => Serving (r.InService id)) { r with registry := registry } :=
    h.tended.of_eq rfl fun _ => rfl
  constructor
  case tended =>
    refine (tended_cancelAll ht ids).imp fun x _ _ hx => hx.of_iff ?_
    rw [InService, hreg]
    exact hr _ x
  case registered =>
    intro i x hx
    rw [hreg] at hx
    rw [hsome]
    exact h.registered i x ((hr i x).mp hx).1

theorem close_of_some {i : Int32} {id : TapId} (hi : r.registry.get? i = some id) :
    r.close i = cancelAll [id] { r with registry := r.registry.erase i } := by
  simp [Responder.close, hi, cancelAll]

theorem frame_close (i : Int32) (r : Responder σ) :
    (∀ j x, (r.close i).registry.get? j = some x ↔ r.registry.get? j = some x ∧ j ≠ i) ∧
      ∀ x, ((r.close i).taps.get? x).isSome = (r.taps.get? x).isSome := by
  cases hi : r.registry.get? i with
  | none =>
    have hc : r.close i = r := by simp [Responder.close, hi]
    rw [hc]
    refine ⟨fun j x => ⟨fun hx => ⟨hx, ?_⟩, And.left⟩, fun _ => rfl⟩
    rintro rfl
    rw [hi] at hx
    cases hx
  | some id =>
    obtain ⟨hr, hs⟩ := frame_cancelAll [id] { r with registry := r.registry.erase i }
    rw [close_of_some hi, hr]
    exact ⟨fun j x => Table.get?_erase_eq_some_iff, hs⟩

theorem close (h : Orderly r) (i : Int32) : Orderly (r.close i) := by
  cases hi : r.registry.get? i with
  | none => simpa [Responder.close, hi] using h
  | some id =>
    rw [close_of_some hi]
    refine h.withdrawAll fun j x => Table.get?_erase_eq_some_iff.trans ?_
    refine and_congr_right fun hx => ?_
    -- One tap cannot be in service for two interfaces.
    refine not_congr ⟨fun hj => ?_, fun hm => ?_⟩
    · subst hj
      rw [Option.some.inj (hx.symm.trans hi)]
      exact List.mem_singleton_self id
    · obtain rfl := List.mem_singleton.mp hm
      exact (h.registered j x hx).1.symm.trans (h.registered i x hi).1

theorem frame_closeAll (r : Responder σ) :
    r.closeAll.registry = .empty ∧
      ∀ x, (r.closeAll.taps.get? x).isSome = (r.taps.get? x).isSome :=
  frame_cancelAll r.registry.values { r with registry := .empty }

theorem closeAll (h : Orderly r) : Orderly r.closeAll := by
  refine h.withdrawAll fun i x => ?_
  rw [Table.get?_empty]
  exact iff_of_false (by simp) fun ⟨hx, hn⟩ => hn (Table.mem_values_of_get? hx)

/-- What is true of the taps while the new tap `id` is put in the place of the one before it. -/
def Installing (id : TapId) (P : TapId → Prop) (x : TapId) (a : Advertiser) : Prop :=
  (x = id → ∃ p, a = { profile := p }) ∧ (x ≠ id → Serving (P x) a)

/-- The tap that was in service for an interface makes room for a new one. -/
def replace (now : Nat) (name : Bytes) (previous : Option TapId) (r : Responder σ) : Responder σ :=
  match previous with
  | none => r
  | some p => r.note ⟨now, none⟩ (.tapReplaced name) |>.modifyTap p .cancel

theorem frame_replace (now : Nat) (name : Bytes) (previous : Option TapId) (r : Responder σ) :
    (replace now name previous r).registry = r.registry ∧
      ∀ x, ((replace now name previous r).taps.get? x).isSome = (r.taps.get? x).isSome := by
  cases previous with
  | none => exact ⟨rfl, fun _ => rfl⟩
  | some p => exact ⟨registry_modifyTap p .cancel _, isSome_get?_modifyTap p .cancel _⟩

theorem tended_replace {id : TapId} {P : TapId → Prop} (h : Tended (Installing id P) r) (now : Nat)
    (name : Bytes) {previous : Option TapId} (hp : previous ≠ some id) :
    Tended (Installing id fun x => P x ∧ previous ≠ some x) (replace now name previous r) := by
  cases previous with
  | none => exact h.imp fun x _ _ hx => ⟨hx.1, fun hn => (hx.2 hn).of_iff (by simp)⟩
  | some p =>
    have hne : p ≠ id := fun hpid => hp (congrArg some hpid)
    have hn : Tended (Installing id P) (r.note ⟨now, none⟩ (.tapReplaced name)) :=
      h.of_eq rfl fun _ => rfl
    refine hn.modifyTap .cancel (fun _ _ => ⟨_, rfl⟩) (fun _ _ ha => ?_) fun x a hx ha => ?_
    · exact ⟨fun hpid => absurd hpid hne, fun _ => (ha.2 hne).cancel.of_iff (by simp)⟩
    · exact ⟨ha.1, fun hxi => (ha.2 hxi).of_iff (by simp [Ne.symm hx])⟩

theorem install_eq (now : Nat) (i : Int32) (t : Tap) (r : Responder σ) :
    r.install now i t =
      (replace now t.link.name (r.registry.get? i)
        ({ r with registry := r.registry.insert i (r.freshId i) }.setTap (r.freshId i) t)).modifyTap
          (r.freshId i) (.start .deregister) := rfl

theorem frame_install (now : Nat) (i : Int32) (t : Tap) (r : Responder σ) :
    (r.install now i t).registry = r.registry.insert i (r.freshId i) ∧
      ∀ x, ((r.install now i t).taps.get? x).isSome ↔
        x = r.freshId i ∨ (r.taps.get? x).isSome := by
  obtain ⟨hreg, hsome⟩ := frame_replace now t.link.name (r.registry.get? i)
    ({ r with registry := r.registry.insert i (r.freshId i) }.setTap (r.freshId i) t)
  rw [install_eq]
  refine ⟨(registry_modifyTap ..).trans hreg, fun x => ?_⟩
  rw [isSome_get?_modifyTap, hsome]
  exact Table.isSome_get?_insert_iff

theorem size_install (h : Orderly r) (now : Nat) (i : Int32) (t : Tap) :
    (r.install now i t).taps.size = r.taps.size + 1 := by
  have hput : ({ r with registry := r.registry.insert i (r.freshId i) }.setTap (r.freshId i)
      t).taps.size = r.taps.size + 1 := Table.size_insert_of_none (h.tended.freshId i) t
  rw [install_eq, size_modifyTap, ← hput]
  cases r.registry.get? i with
  | none => rfl
  | some q => exact size_modifyTap q .cancel _

/-- The tap in service for an interface is never the one that will be made next. -/
theorem ne_freshId (h : Orderly r) (i : Int32) : r.registry.get? i ≠ some (r.freshId i) := by
  intro hi
  have hs := (h.registered i _ hi).2
  rw [h.tended.freshId i] at hs
  cases hs

theorem install (h : Orderly r) (now : Nat) (i : Int32) {t : Tap} {p : Profile}
    (hp : t.advertiser = { profile := p }) : Orderly (r.install now i t) := by
  obtain ⟨hreg, hsome⟩ := frame_install now i t r
  have hinsert : Tended (Installing (r.freshId i) r.InService)
      ({ r with registry := r.registry.insert i (r.freshId i) }.setTap (r.freshId i) t) :=
    (h.tended.insert i t ⟨fun _ => ⟨p, hp⟩, fun hn => absurd rfl hn⟩ fun x a hx ha =>
      ⟨fun hi => absurd hi hx, fun _ => ha⟩).of_eq rfl fun _ => rfl
  constructor
  case tended =>
    refine (tended_replace hinsert now t.link.name (h.ne_freshId i)).modifyTap (.start .deregister)
      (fun _ _ => ⟨_, rfl⟩) (fun _ _ ha => ?_) fun x a hx ha => ?_
    · obtain ⟨q, hq⟩ := ha.1 rfl
      rw [hq]
      refine (Serving.new q).of_iff (iff_of_true ?_ trivial)
      rw [InService, hreg]
      exact Table.get?_insert_self ..
    · refine (ha.2 hx).of_iff ?_
      rw [InService, hreg]
      refine Table.get?_insert_eq_some_iff.trans ⟨fun hi => ?_, fun hi => ?_⟩
      · obtain ⟨hxi, hs⟩ := hi.resolve_left fun hi => hx hi.2.symm
        exact ⟨hs, fun hs => hxi (h.registered i x hs).1⟩
      · exact Or.inr ⟨fun hxi => hi.2 (hxi ▸ hi.1), hi.1⟩
  case registered =>
    intro j x hx
    rw [hreg] at hx
    rw [hsome]
    rcases Table.get?_insert_eq_some_iff.mp hx with ⟨rfl, rfl⟩ | ⟨-, hs⟩
    · exact ⟨rfl, Or.inl rfl⟩
    · exact (h.registered j x hs).imp_right Or.inr

variable [Host σ]

theorem add (h : Orderly r) (now : Nat) (i : Int32) : Orderly (r.add now i).1 := by
  rcases r.add_spec now i with ⟨q, t, p, ha, hp, he, -⟩ | ⟨ha, -⟩
  · rw [he]
    exact (h.aside ha).install now i hp
  · exact h.aside ha

/-- What a turn of a tap does to the registry. -/
theorem get?_stepTap {now : Nat} {id : TapId} {t : Tap} {u : Turn} (h : Orderly r)
    (ht : r.taps.get? id = some t)
    (hk : t.advertiser.step? now (Medium.conditions t.link r.host) = some u) (rest : List Actor)
    (i : Int32) (x : TapId) :
    ({ r with schedule := rest }.stepTap now id).registry.get? i = some x ↔
      r.registry.get? i = some x ∧ ¬(u.effects.any (·.isDeregister) = true ∧ x = id) := by
  rw [stepTap_eq (r := { r with schedule := rest }) ht hk, (performAll_spec ..).2.2]
  change (if _ then withdraw id r.registry else r.registry).get? i = some x ↔ _
  split <;> rename_i hd
  · rw [get?_withdraw]
    refine and_congr_right fun hx => not_congr ⟨fun hi => ⟨hd, hi.2⟩, fun hi => ⟨?_, hi.2⟩⟩
    rw [← hi.2]
    exact (h.registered i x hx).1.symm
  · simp [hd]

theorem isSome_get?_stepTap {now : Nat} {id : TapId} {t : Tap} {u : Turn}
    (ht : r.taps.get? id = some t)
    (hk : t.advertiser.step? now (Medium.conditions t.link r.host) = some u) (rest : List Actor)
    (x : TapId) :
    (({ r with schedule := rest }.stepTap now id).taps.get? x).isSome =
      (r.taps.get? x).isSome := by
  rw [stepTap_eq (r := { r with schedule := rest }) ht hk, (performAll_spec ..).1,
    isSome_get?_setTap (by rw [ht]; rfl)]

theorem turn {now : Nat} {id : TapId} {t : Tap} {u : Turn} {rest : List Actor} (h : Orderly r)
    (hs : r.schedule = .tap id :: rest) (ht : r.taps.get? id = some t)
    (hk : t.advertiser.step? now (Medium.conditions t.link r.host) = some u) :
    Orderly ({ r with schedule := rest }.stepTap now id) := by
  obtain ⟨e, events, hm⟩ := exists_of_step? hk
  obtain ⟨-, hserv, hes⟩ := (h.tended.taps id t ht).handle hm hk
  have htended : Tended
      (fun x => Serving (r.InService x ∧ ¬(u.effects.any (·.isDeregister) = true ∧ x = id)))
      ({ r with schedule := rest }.stepTap now id) :=
    h.tended.turn hs ht hk hm hes (hserv.of_iff (by simp)) fun x a hx ha =>
      ha.of_iff (by simp [hx])
  have hget := h.get?_stepTap ht hk rest
  constructor
  case tended =>
    exact htended.imp fun x _ _ hx => hx.of_iff (hget _ x)
  case registered =>
    intro i x hx
    rw [isSome_get?_stepTap ht hk]
    exact h.registered i x ((hget i x).mp hx).1

end Orderly

end RouterAdvert.Responder
