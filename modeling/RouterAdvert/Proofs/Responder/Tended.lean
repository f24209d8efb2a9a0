import RouterAdvert.Proofs.Responder.Frame

/-! What is true of the taps and their turns in any surroundings: something is true of every
advertiser, a tap has one place in the schedule for each event that waits for it, and names are
given out in order, so that a new name has never been used. -/
namespace RouterAdvert.Responder

open Advertiser

variable {σ : Type}

/-- How many events wait for a tap. -/
def waiting (id : TapId) (r : Responder σ) : Nat :=
  ((r.taps.get? id).map (·.advertiser.mailbox.length)).getD 0

structure Tended (S : TapId → Advertiser → Prop) (r : Responder σ) : Prop where
  taps : ∀ id t, r.taps.get? id = some t → S id t.advertiser
  turns : ∀ id, r.schedule.count (.tap id) = r.waiting id
  names : ∀ id ∈ r.taps.keys, id.generation < (r.taps.keys.filter (·.index = id.index)).length

/-- A property of advertisers, each under the name of its tap, that nothing around them changes. -/
def Stable (now : Nat) (S : TapId → Advertiser → Prop) : Prop :=
  ∀ id a b, S id a → Stir now a b → S id b

theorem registry_modifyTap (id : TapId) (f : Advertiser → Advertiser) (r : Responder σ) :
    (r.modifyTap id f).registry = r.registry := by
  unfold modifyTap
  split <;> rfl

theorem isSome_get?_setTap {id : TapId} {r : Responder σ} (h : (r.taps.get? id).isSome) (t : Tap)
    (x : TapId) : ((r.setTap id t).taps.get? x).isSome = (r.taps.get? x).isSome := by
  change ((r.taps.insert id t).get? x).isSome = _
  by_cases hx : x = id
  · subst hx
    rw [Table.get?_insert_self, h]
    rfl
  · rw [Table.get?_insert_of_ne _ hx]

theorem isSome_get?_modifyTap (id : TapId) (f : Advertiser → Advertiser) (r : Responder σ)
    (x : TapId) : ((r.modifyTap id f).taps.get? x).isSome = (r.taps.get? x).isSome := by
  cases h : r.taps.get? id with
  | none => simp [modifyTap, h]
  | some t =>
    rw [modifyTap_of_some h]
    exact isSome_get?_setTap (by rw [h]; rfl) _ x

theorem size_setTap {id : TapId} {r : Responder σ} (h : (r.taps.get? id).isSome) (t : Tap) :
    (r.setTap id t).taps.size = r.taps.size := by
  have hk : (r.setTap id t).taps.keys = r.taps.keys := Table.keys_insert_of_some h t
  rw [← Table.length_keys, hk, Table.length_keys]

theorem size_modifyTap (id : TapId) (f : Advertiser → Advertiser) (r : Responder σ) :
    (r.modifyTap id f).taps.size = r.taps.size := by
  cases h : r.taps.get? id with
  | none => simp [modifyTap, h]
  | some t =>
    rw [modifyTap_of_some h]
    exact size_setTap (by rw [h]; rfl) _

theorem get?_modifyTap {id x : TapId} {f : Advertiser → Advertiser} {r : Responder σ} {t : Tap}
    (h : (r.modifyTap id f).taps.get? x = some t) :
    (x = id ∧ ∃ u, r.taps.get? id = some u ∧ { u with advertiser := f u.advertiser } = t) ∨
      r.taps.get? x = some t := by
  cases hu : r.taps.get? id with
  | none =>
    rw [show r.modifyTap id f = r by simp [modifyTap, hu]] at h
    exact Or.inr h
  | some u =>
    rw [modifyTap_of_some hu] at h
    rcases Table.get?_insert_eq_some_iff.mp h with ⟨hx, ht⟩ | ⟨-, ht⟩
    · exact Or.inl ⟨hx, u, rfl, ht⟩
    · exact Or.inr ht

theorem isDue_eq_true {time : Nat} {id : TapId} {r : Responder σ} :
    r.isDue time id = true ↔
      ∃ t x, r.taps.get? id = some t ∧ t.advertiser.alarm = some x ∧ x.expiry ≤ time := by
  simp only [isDue, Option.any_eq_true, Option.bind_eq_some_iff, decide_eq_true_eq]
  constructor
  · rintro ⟨x, ⟨t, ht, hx⟩, he⟩
    exact ⟨t, x, ht, hx, he⟩
  · rintro ⟨t, x, ht, hx, he⟩
    exact ⟨x, ⟨t, ht, hx⟩, he⟩

theorem waiting_setTap_self (id : TapId) (t : Tap) (r : Responder σ) :
    (r.setTap id t).waiting id = t.advertiser.mailbox.length := by
  simp [waiting, setTap, enroll]

theorem waiting_setTap_of_ne {id x : TapId} (h : x ≠ id) (t : Tap) (r : Responder σ) :
    (r.setTap id t).waiting x = r.waiting x := by
  simp [waiting, setTap, enroll, h]

theorem count_setTap_self {id : TapId} {t : Tap} {r : Responder σ}
    (h : r.schedule.count (.tap id) ≤ t.advertiser.mailbox.length) :
    (r.setTap id t).schedule.count (.tap id) = t.advertiser.mailbox.length :=
  (count_enroll_self _ _ _).trans (Nat.max_eq_left h)

theorem count_setTap_of_ne {id x : TapId} (h : x ≠ id) (t : Tap) (r : Responder σ) :
    (r.setTap id t).schedule.count (.tap x) = r.schedule.count (.tap x) :=
  count_enroll_of_ne (b := .tap x) (by simp [h]) _ _

namespace Tended

variable {S S' : TapId → Advertiser → Prop} {r r' : Responder σ} {id : TapId} {t : Tap}

theorem of_eq (h : Tended S r) (ht : r'.taps = r.taps)
    (hs : ∀ x, r'.schedule.count (.tap x) = r.schedule.count (.tap x)) : Tended S r' where
  taps := by rw [ht]; exact h.taps
  turns x := by rw [hs, h.turns, waiting, waiting, ht]
  names := by rw [ht]; exact h.names

theorem aside (h : Tended S r) (ha : Aside r r') : Tended S r' := h.of_eq ha.taps ha.turns

theorem imp (h : Tended S r) (hi : ∀ x t, r.taps.get? x = some t → S x t.advertiser →
    S' x t.advertiser) : Tended S' r :=
  ⟨fun x t ht => hi x t ht (h.taps x t ht), h.turns, h.names⟩

/-- Puts a tap back with at least as many events as it has places left in the schedule. -/
theorem setTap (h : Tended S r) (ht : r.taps.get? id = some t) {rest : List Actor}
    (hr : ∀ x, x ≠ id → rest.count (.tap x) = r.schedule.count (.tap x)) {t' : Tap}
    (hn : rest.count (.tap id) ≤ t'.advertiser.mailbox.length) (hs : S' id t'.advertiser)
    (hi : ∀ x a, x ≠ id → S x a → S' x a) :
    Tended S' ({ r with schedule := rest }.setTap id t') where
  taps x u hu := by
    by_cases hx : x = id
    · subst hx
      obtain rfl : t' = u := Option.some.inj ((Table.get?_insert_self ..).symm.trans hu)
      exact hs
    · exact hi x _ hx (h.taps x u ((Table.get?_insert_of_ne _ hx _).symm.trans hu))
  turns x := by
    by_cases hx : x = id
    · subst hx
      rw [waiting_setTap_self, count_setTap_self hn]
    · rw [waiting_setTap_of_ne hx, count_setTap_of_ne hx]
      exact (hr x hx).trans (h.turns x)
  names := by
    have hk : ({ r with schedule := rest }.setTap id t').taps.keys = r.taps.keys :=
      Table.keys_insert_of_some (by rw [ht]; rfl) t'
    rw [hk]
    exact h.names

/-- Changes a tap without taking events from it. -/
theorem modifyTap (h : Tended S r) (f : Advertiser → Advertiser)
    (hm : ∀ t, r.taps.get? id = some t → ∃ es, (f t.advertiser).mailbox =
      t.advertiser.mailbox ++ es)
    (hs : ∀ t, r.taps.get? id = some t → S id t.advertiser → S' id (f t.advertiser))
    (hi : ∀ x a, x ≠ id → S x a → S' x a) : Tended S' (r.modifyTap id f) := by
  cases ht : r.taps.get? id with
  | none =>
    have hr : r.modifyTap id f = r := by simp [Responder.modifyTap, ht]
    rw [hr]
    refine h.imp fun x t hx => hi x _ fun hxi => ?_
    rw [hxi, ht] at hx
    cases hx
  | some t =>
    rw [modifyTap_of_some ht]
    obtain ⟨es, hes⟩ := hm t ht
    refine h.setTap ht (fun _ _ => rfl) ?_ (hs t ht (h.taps id t ht)) hi
    rw [h.turns, waiting, ht, hes]
    simp

/-- Something happens around a tap, or nothing. -/
theorem stir {now : Nat} (h : Tended S r) (hS : Stable now S) {f : Advertiser → Advertiser}
    (hf : ∀ t, r.taps.get? id = some t →
      f t.advertiser = t.advertiser ∨ Stir now t.advertiser (f t.advertiser)) :
    Tended S (r.modifyTap id f) := by
  refine h.modifyTap f (fun t ht => ?_) (fun t ht ha => ?_) fun _ _ _ ha => ha
  · rcases hf t ht with he | hs
    · exact ⟨[], by rw [he, List.append_nil]⟩
    · exact hs.mailbox
  · rcases hf t ht with he | hs
    · rw [he]
      exact ha
    · exact hS id _ _ ha hs

theorem freshId (h : Tended S r) (i : Int32) : r.taps.get? (r.freshId i) = none := by
  refine Table.get?_eq_none_iff.mpr fun hm => ?_
  exact Nat.lt_irrefl _ (h.names _ hm)

/-- With nobody's turn left, nothing waits for a tap. -/
theorem mailbox_eq_nil (h : Tended S r) (hs : r.schedule = []) (ht : r.taps.get? id = some t) :
    t.advertiser.mailbox = [] := by
  have hw := h.turns id
  rw [hs, waiting, ht] at hw
  exact List.eq_nil_of_length_eq_zero hw.symm

/-- Adds a tap under a new name. -/
theorem insert (h : Tended S r) (i : Int32) (t' : Tap) (hs : S' (r.freshId i) t'.advertiser)
    (hi : ∀ x a, x ≠ r.freshId i → S x a → S' x a) :
    Tended S' (r.setTap (r.freshId i) t') where
  taps x u hu := by
    by_cases hx : x = r.freshId i
    · subst hx
      obtain rfl : t' = u := Option.some.inj ((Table.get?_insert_self ..).symm.trans hu)
      exact hs
    · exact hi x _ hx (h.taps x u ((Table.get?_insert_of_ne _ hx _).symm.trans hu))
  turns x := by
    by_cases hx : x = r.freshId i
    · subst hx
      have hz : r.schedule.count (.tap (r.freshId i)) = 0 := by
        rw [h.turns, waiting, h.freshId]
        rfl
      rw [waiting_setTap_self, count_setTap_self (by rw [hz]; exact Nat.zero_le _)]
    · rw [waiting_setTap_of_ne hx, count_setTap_of_ne hx]
      exact h.turns x
  names x hx := by
    have hk : (r.setTap (r.freshId i) t').taps.keys = r.taps.keys ++ [r.freshId i] :=
      Table.keys_insert_of_none (h.freshId i) t'
    rw [hk] at hx ⊢
    rw [List.filter_append, List.length_append]
    rcases List.mem_append.mp hx with hx | hx
    · exact Nat.lt_of_lt_of_le (h.names x hx) (Nat.le_add_right _ _)
    · obtain rfl := List.mem_singleton.mp hx
      have hl : ([r.freshId i].filter (·.index = (r.freshId i).index)).length = 1 := by simp
      rw [hl]
      exact Nat.lt_succ_self _

variable [Host σ] {now : Nat} {rest : List Actor}

/-- The place of a tap in the schedule is there for an event. -/
theorem exists_turn (h : Tended S r) (now : Nat) (hs : r.schedule = .tap id :: rest) :
    ∃ t u, r.taps.get? id = some t ∧
      t.advertiser.step? now (Medium.conditions t.link r.host) = some u := by
  have hw := h.turns id
  rw [hs, List.count_cons_self, waiting] at hw
  cases ht : r.taps.get? id with
  | none => simp [ht] at hw
  | some t =>
    cases hm : t.advertiser.mailbox with
    | nil => simp [ht, hm] at hw
    | cons e events =>
      refine ⟨t, Turn.handle now (Medium.conditions t.link r.host) e
        { state := { t.advertiser with mailbox := events } }, rfl, ?_⟩
      simp [Advertiser.step?, hm]

/-- A turn of a tap takes one event and one place. -/
theorem turn {u : Turn} {e : Event} {events : List Event} (h : Tended S r)
    (hs : r.schedule = .tap id :: rest) (ht : r.taps.get? id = some t)
    (hk : t.advertiser.step? now (Medium.conditions t.link r.host) = some u)
    (hm : t.advertiser.mailbox = e :: events) (hes : ∃ es, u.state.mailbox = events ++ es)
    (hS : S' id u.state) (hi : ∀ x a, x ≠ id → S x a → S' x a) :
    Tended S' ({ r with schedule := rest }.stepTap now id) := by
  obtain ⟨es, hes⟩ := hes
  have hcount : r.schedule.count (.tap id) = events.length + 1 := by
    rw [h.turns, waiting, ht, Option.map_some, hm]
    rfl
  rw [hs, List.count_cons_self] at hcount
  have hput :
      Tended S' ({ r with schedule := rest }.setTap id { t with advertiser := u.state }) := by
    refine h.setTap ht (fun x hx => ?_) ?_ hS hi
    · rw [hs, List.count_cons_of_ne (by simp [Ne.symm hx])]
    · rw [hes, List.length_append]
      omega
  obtain ⟨htaps, hsched, -⟩ := performAll_spec now id u.state u.effects
    ({ r with schedule := rest }.setTap id { t with advertiser := u.state })
  rw [← stepTap_eq (r := { r with schedule := rest }) ht hk] at htaps hsched
  exact hput.of_eq htaps fun _ => by rw [hsched]

end Tended

end RouterAdvert.Responder
