import RouterAdvert.Proofs.Responder.Serving
import RouterAdvert.Proofs.Table
import RouterAdvert.Responder

/-! What the operations of the responder leave alone: most of them touch neither the taps, nor the
registry, nor the turns of the taps. -/
namespace RouterAdvert.Responder

variable {σ : Type}

/-- Nothing has happened to the taps, their turns and the registry. -/
structure Aside (r r' : Responder σ) : Prop where
  taps : r'.taps = r.taps
  registry : r'.registry = r.registry
  turns : ∀ id, r'.schedule.count (.tap id) = r.schedule.count (.tap id)

theorem Aside.trans {r r' r'' : Responder σ} (h : Aside r r') (h' : Aside r' r'') : Aside r r'' :=
  ⟨h'.taps.trans h.taps, h'.registry.trans h.registry, fun id => (h'.turns id).trans (h.turns id)⟩

theorem aside_setWatch (w : LinkWatch) (r : Responder σ) : Aside r (r.setWatch w) :=
  ⟨rfl, rfl, fun id => count_enroll_of_ne (b := .tap id) (by simp) _ _⟩

theorem modifyTap_of_some {id : TapId} {t : Tap} {r : Responder σ} (h : r.taps.get? id = some t)
    (f : Advertiser → Advertiser) :
    r.modifyTap id f = r.setTap id { t with advertiser := f t.advertiser } := by
  simp [modifyTap, h]

theorem host_modifyTap (id : TapId) (f : Advertiser → Advertiser) (r : Responder σ) :
    (r.modifyTap id f).host = r.host := by
  unfold modifyTap
  split <;> rfl

theorem host_receiveLinks (r : Responder σ) : r.receiveLinks.host = r.host := by
  unfold receiveLinks
  split <;> rfl

/-- A turn takes one place from the schedule. -/
theorem count_of_schedule {id : TapId} {actor : Actor} {rest : List Actor} {r : Responder σ}
    (h : r.schedule = actor :: rest) :
    r.schedule.count (.tap id) = rest.count (.tap id) + if actor = .tap id then 1 else 0 := by
  rw [h, List.count_cons]
  simp

/-- Takes a tap off the registry, if it is the one in service. -/
def withdraw (id : TapId) (registry : Table Int32 TapId) : Table Int32 TapId :=
  if registry.get? id.index = some id then registry.erase id.index else registry

theorem get?_withdraw {id x : TapId} {i : Int32} {registry : Table Int32 TapId} :
    (withdraw id registry).get? i = some x ↔
      registry.get? i = some x ∧ ¬(i = id.index ∧ x = id) := by
  unfold withdraw
  split <;> rename_i h
  · by_cases hi : i = id.index
    · subst hi
      rw [Table.get?_erase_self, h]
      simp [eq_comm]
    · simp [Table.get?_erase_of_ne _ hi, hi]
  · refine ⟨fun hx => ⟨hx, ?_⟩, And.left⟩
    rintro ⟨rfl, rfl⟩
    exact h hx

theorem aside_noteFindings (stamp : Stamp) (t : Tap) (r : Responder σ) :
    Aside r (r.noteFindings stamp t) := by
  dsimp only [noteFindings]
  split <;> split <;> exact ⟨rfl, rfl, fun _ => rfl⟩

theorem withdraw_withdraw (id : TapId) (registry : Table Int32 TapId) :
    withdraw id (withdraw id registry) = withdraw id registry := by
  refine if_neg fun h => ?_
  exact (get?_withdraw.mp h).2 ⟨rfl, rfl⟩

theorem deregister_spec (now : Nat) (id : TapId) (name : Bytes) (code : ErrorCode)
    (r : Responder σ) :
    (r.deregister now id name code).taps = r.taps ∧
      (r.deregister now id name code).schedule = r.schedule ∧
      (r.deregister now id name code).registry = withdraw id r.registry := by
  by_cases h : r.registry.get? id.index = some id
  · have hd : r.deregister now id name code =
        { r.note ⟨now, some id⟩ (if code = .canceled then .tapClosed name else .tapExited name code)
          with registry := r.registry.erase id.index } := if_pos h
    rw [hd, withdraw, if_pos h]
    exact ⟨rfl, rfl, rfl⟩
  · have hd : r.deregister now id name code =
        r.note ⟨now, some id⟩
          (if code = .canceled then .tapClosed name else .tapExited name code) := if_neg h
    rw [hd, withdraw, if_neg h]
    exact ⟨rfl, rfl, rfl⟩

variable [Host σ]

theorem host_requestLinks (now : Nat) (r : Responder σ) :
    (r.requestLinks now).host = r.host := by
  dsimp only [requestLinks]
  split
  · rfl
  · split
    · rfl
    · split <;> rfl

theorem host_startWatch (now : Nat) (r : Responder σ) : (r.startWatch now).1.host = r.host := by
  dsimp only [startWatch]
  split
  · rfl
  · split <;> rfl

/-- Making a tap only asks the host; the advertiser is new. -/
theorem build_spec (now : Nat) (i : Int32) (r : Responder σ) :
    Aside r (r.build now i).1 ∧
      ∀ t, (r.build now i).2 = .ok t → ∃ p, t.advertiser = { profile := p } := by
  dsimp only [build]
  split
  · exact ⟨⟨rfl, rfl, fun _ => rfl⟩, by simp⟩
  · split
    · exact ⟨⟨rfl, rfl, fun _ => rfl⟩, by simp⟩
    · exact ⟨⟨rfl, rfl, fun _ => rfl⟩, by simp⟩
    · split
      · exact ⟨⟨rfl, rfl, fun _ => rfl⟩, by simp⟩
      · refine ⟨?_, fun t ht => ?_⟩
        · change Aside r (noteFindings _ _ _)
          refine Aside.trans ?_ (aside_noteFindings _ _ _)
          exact ⟨rfl, rfl, fun _ => rfl⟩
        · obtain rfl := Except.ok.inj ht
          exact ⟨_, rfl⟩

/-- Serving an interface puts a new tap into service, or does nothing but ask the host. -/
theorem add_spec (now : Nat) (i : Int32) (r : Responder σ) :
    (∃ q t p, Aside r q ∧ t.advertiser = { profile := p } ∧ (r.add now i).1 = q.install now i t ∧
      (r.add now i).2 = true) ∨
      Aside r (r.add now i).1 ∧ (r.add now i).2 = false := by
  obtain ⟨ha, hb⟩ := r.build_spec now i
  rw [add_eq]
  cases hr : r.build now i with
  | mk q x =>
    rw [hr] at ha hb
    cases x with
    | ok t =>
      obtain ⟨p, hp⟩ := hb t rfl
      exact Or.inl ⟨q, t, p, ha, hp, rfl, rfl⟩
    | error o =>
      refine Or.inr ?_
      cases o with
      | impossibleRoute => exact ⟨ha.trans ⟨rfl, rfl, fun _ => rfl⟩, rfl⟩
      | refused e => cases e <;> exact ⟨ha.trans ⟨rfl, rfl, fun _ => rfl⟩, rfl⟩

/-- What a tap does touches the registry only when it tells of its end. -/
theorem perform_spec (now : Nat) (id : TapId) (a : Advertiser) (r : Responder σ)
    (e : Advertiser.Effect) :
    (perform now id a r e).taps = r.taps ∧ (perform now id a r e).schedule = r.schedule ∧
      (perform now id a r e).registry =
        if e.isDeregister then withdraw id r.registry else r.registry := by
  cases e with
  | note | dial | call | armed => exact ⟨rfl, rfl, rfl⟩
  | exit h code =>
    cases h with
    | numbered | announce => exact ⟨rfl, rfl, rfl⟩
    | deregister => exact deregister_spec now id a.profile.link.name code _

theorem performAll_spec (now : Nat) (id : TapId) (a : Advertiser) (es : List Advertiser.Effect)
    (r : Responder σ) :
    (es.foldl (perform now id a) r).taps = r.taps ∧
      (es.foldl (perform now id a) r).schedule = r.schedule ∧
      (es.foldl (perform now id a) r).registry =
        if es.any (·.isDeregister) then withdraw id r.registry else r.registry := by
  induction es generalizing r with
  | nil => exact ⟨rfl, rfl, rfl⟩
  | cons e es ih =>
    obtain ⟨ht, hs, hr⟩ := ih (perform now id a r e)
    obtain ⟨ht', hs', hr'⟩ := perform_spec now id a r e
    refine ⟨ht.trans ht', hs.trans hs', ?_⟩
    rw [List.foldl_cons, hr, hr', List.any_cons]
    cases e.isDeregister <;> cases es.any (·.isDeregister) <;> simp [withdraw_withdraw]

theorem stepTap_eq {now : Nat} {id : TapId} {t : Tap} {u : Advertiser.Turn} {r : Responder σ}
    (ht : r.taps.get? id = some t)
    (hk : t.advertiser.step? now (Medium.conditions t.link r.host) = some u) :
    r.stepTap now id =
      u.effects.foldl (perform now id u.state) (r.setTap id { t with advertiser := u.state }) := by
  simp [stepTap, ht, hk]

/-- A turn is that of the watch or that of a tap. -/
theorem step?_cases {now : Nat} {r r' : Responder σ} (h : r.step? now = some r') :
    r.halt = none ∧ ∃ rest,
      (r.schedule = .watch :: rest ∧ r' = { r with schedule := rest }.stepWatch now ∨
        ∃ id, r.schedule = .tap id :: rest ∧ r' = { r with schedule := rest }.stepTap now id) := by
  unfold step? at h
  split at h
  · cases h
  · rename_i hh
    refine ⟨by simpa using hh, ?_⟩
    split at h
    · cases h
    · rename_i actor rest hs
      refine ⟨rest, ?_⟩
      cases actor with
      | watch => exact Or.inl ⟨hs, (Option.some.inj h).symm⟩
      | tap id => exact Or.inr ⟨id, hs, (Option.some.inj h).symm⟩

/-- If the program goes on but nobody does anything, it is nobody's turn. -/
theorem schedule_of_step?_eq_none {now : Nat} {r : Responder σ} (h : r.step? now = none)
    (hh : r.halt = none) : r.schedule = [] := by
  cases hs : r.schedule with
  | nil => rfl
  | cons actor rest => cases actor <;> simp [step?, hh, hs] at h

end RouterAdvert.Responder
