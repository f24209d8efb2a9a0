import RouterAdvert.Proofs.Advertiser.Ending

/-! What is true of the advertiser of a tap, in service or not: its first starter is the registry,
and once its tap is out of service it is closed or going to be canceled. -/
namespace RouterAdvert.Advertiser

namespace Effect

/-- Whether the registry is told of the end. -/
def isDeregister : Effect → Bool
  | exit .deregister _ => true
  | _ => false

theorem isExit_of_isDeregister {e : Effect} (h : e.isDeregister = true) : e.isExit = true := by
  cases e <;> simp_all [isDeregister, isExit]

theorem isLast_of_isExit {e : Effect} (h : e.isExit = true) : e.isLast = true := by
  cases e <;> simp_all [isExit, isLast]

end Effect

section Mailbox

variable {now : Nat} {k : Conditions} {a b : Advertiser} {e : Event} {acts : List Effect}

theorem mailbox_want (k : Conditions) (a : Advertiser) :
    ∃ es, (a.want k).mailbox = a.mailbox ++ es := by
  unfold want
  split
  · exact ⟨[], (List.append_nil _).symm⟩
  · exact ⟨_, rfl⟩

/-- What waits keeps waiting, in the same order. -/
theorem Outcome.mailbox (o : Outcome now k a e b acts) : ∃ es, b.mailbox = a.mailbox ++ es := by
  cases o with
  | rests | fails => exact ⟨[], (List.append_nil _).symm⟩
  | ends | unfiltered | unjoined => exact ⟨_, List.append_assoc ..⟩
  | opens =>
    obtain ⟨es, hes⟩ := mailbox_want k { (a.accept e).dialed _ with phase := .active }.listen
    exact ⟨_, hes.trans (List.append_assoc ..)⟩
  | ticks => exact mailbox_want k a
  | answers =>
    obtain ⟨es, hes⟩ := mailbox_want k a
    exact ⟨es ++ _, (congrArg (· ++ _) hes).trans (List.append_assoc ..)⟩
  | ignores | waits => exact ⟨_, rfl⟩
  | follows => exact mailbox_want k _

end Mailbox

theorem exists_of_step? {now : Nat} {k : Conditions} {a : Advertiser} {t : Turn}
    (h : a.step? now k = some t) : ∃ e rest, a.mailbox = e :: rest := by
  cases hm : a.mailbox with
  | nil => simp [step?, hm] at h
  | cons e rest => exact ⟨e, rest, rfl⟩

/-- What is true of an advertiser whose tap is in service if `P` holds. -/
structure Serving (P : Prop) (a : Advertiser) : Prop where
  sound : Sound a
  starter : a.phase ≠ .closed →
    a.onExit.or (a.mailbox.findSome? (·.starter?)) = some .deregister
  doomed : a.phase ≠ .closed → P ∨ a.canceled = true ∨ ∃ e ∈ a.mailbox, e.isCancel = true
  gone : a.phase = .closed → ¬P

namespace Serving

variable {P Q : Prop} {a b : Advertiser}

theorem of_iff (h : Serving P a) (hpq : Q ↔ P) : Serving Q a :=
  ⟨h.sound, h.starter, fun hc => (h.doomed hc).imp_left hpq.mpr, fun hc hq => h.gone hc (hpq.mp hq)⟩

/-- A new tap is put into service when it is started. -/
theorem new (p : Profile) : Serving True (start .deregister { profile := p }) where
  sound := (Sound.new p).start _
  starter _ := rfl
  doomed _ := Or.inl trivial
  gone hc := by simp [start, post] at hc

theorem stir {now : Nat} (h : Serving P a) (s : Stir now a b) : Serving P b := by
  obtain ⟨es, hm⟩ := s.mailbox
  refine ⟨s.sound h.sound, fun hn => ?_, fun hn => ?_, fun hn => h.gone (s.phase ▸ hn)⟩
  · rw [hm, s.onExit, List.findSome?_append, ← Option.or_assoc, h.starter (s.phase ▸ hn)]
    rfl
  · rw [hm, s.canceled]
    exact (h.doomed (s.phase ▸ hn)).imp_right
      (Or.imp_right fun ⟨e, he, hec⟩ => ⟨e, List.mem_append_left es he, hec⟩)

/-- Whoever is canceled may go out of service. -/
theorem cancel (h : Serving P a) : Serving False a.cancel where
  sound := h.sound.cancel
  starter := (h.stir (.cancel : Stir 0 a a.cancel)).starter
  doomed _ := Or.inr (Or.inr ⟨.cancel, by simp [Advertiser.cancel, post], rfl⟩)
  gone _ := id

/-- An advertiser with nothing to handle is at work exactly while its tap is in service. -/
theorem at_rest (h : Serving P a) (hm : a.mailbox = []) :
    (a.phase ≠ .closed ↔ P) ∧ (P → a.phase = .connecting ∨ a.phase = .active) := by
  have hw (hc : a.phase ≠ .closed) : a.phase = .connecting ∨ a.phase = .active := by
    have hs := h.starter hc
    rw [hm, List.findSome?_nil, Option.or_none] at hs
    exact h.sound.starter.mp (by rw [hs]; rfl)
  refine ⟨⟨fun hc => ?_, fun hp hc => h.gone hc hp⟩, fun hp => hw fun hc => h.gone hc hp⟩
  rcases h.doomed hc with hp | hx | ⟨e, he, -⟩
  · exact hp
  · rw [h.sound.canceled_eq_false (hw hc)] at hx
    cases hx
  · rw [hm] at he
    cases he

theorem of_closed (hs : Sound a) (hc : a.phase = .closed) (hp : ¬P) : Serving P a :=
  ⟨hs, fun hn => absurd hc hn, fun hn => absurd hc hn, fun _ => hp⟩

theorem any_isDeregister (t : Turn) :
    t.effects.any (·.isDeregister) = t.acts.any (·.isDeregister) := by
  rw [Turn.acts, List.any_filter]
  congr 1
  funext e
  cases e <;> rfl

/-- The starter of an advertiser that has just taken an event is the registry. -/
theorem starter_accept {e : Event} {rest : List Event} (h : Serving P a)
    (hm : a.mailbox = e :: rest) (ha : a.phase ≠ .closed)
    (hs : Sound (facing e { a with mailbox := rest })) :
    (accept e { a with mailbox := rest }).onExit.or (rest.findSome? (·.starter?)) =
      some .deregister := by
  have hx := h.starter ha
  rw [hm, ← List.singleton_append, List.findSome?_append, List.findSome?_singleton,
    ← Option.or_assoc] at hx
  rw [onExit_accept hs ha]
  exact hx

/-- The registry is told when an advertiser closes, and only then. -/
theorem handle {now : Nat} {k : Conditions} {e : Event} {rest : List Event} {t : Turn}
    (h : Serving P a) (hm : a.mailbox = e :: rest) (hk : a.step? now k = some t) :
    t.acts.any (·.isExit) = t.effects.any (·.isDeregister) ∧
      Serving (P ∧ t.effects.any (·.isDeregister) = false) t.state ∧
      ∃ es, t.state.mailbox = rest ++ es := by
  obtain ⟨hs, o⟩ := Life.outcome_of_step? h.sound hm hk
  have hsound := hs.of_outcome o
  obtain ⟨es, hes⟩ := o.mailbox
  rw [any_isDeregister]
  by_cases hb : t.state.phase = .closed
  · by_cases ha : a.phase = .closed
    · have hn := (o.of_closed ha).1
      exact ⟨by rw [hn]; rfl, of_closed hsound hb fun hp => h.gone ha hp.1, es, hes⟩
    · obtain ⟨x, code, work, hx, -, hw, -⟩ := o.closes hs ha hb
      have hr := h.starter_accept hm ha hs
      rw [hx] at hr
      obtain rfl := Option.some.inj hr
      have hd : t.acts.any (·.isDeregister) = true := by simp [hw, Effect.isDeregister]
      refine ⟨?_, of_closed hsound hb fun hp => ?_, es, hes⟩
      · simp [hw, Effect.isDeregister, Effect.isExit]
      · rw [hd] at hp
        cases hp.2
  · have ha : a.phase ≠ .closed := fun ha => hb (o.of_closed ha).2
    obtain ⟨hx, -, hlast⟩ := o.goes_on hs hb
    have he : t.acts.any (·.isExit) = false := by
      refine List.any_eq_false.mpr fun y hy hexit => ?_
      exact absurd (Effect.isLast_of_isExit hexit) (by simp [hlast y hy])
    have hd : t.acts.any (·.isDeregister) = false := by
      refine List.any_eq_false.mpr fun y hy hexit => ?_
      exact List.any_eq_false.mp he y hy (Effect.isExit_of_isDeregister hexit)
    refine ⟨he.trans hd.symm, ⟨hsound, fun _ => ?_, fun _ => ?_, fun hc => absurd hc hb⟩, es, hes⟩
    · rw [hx, hes, List.findSome?_append, ← Option.or_assoc, h.starter_accept hm ha hs]
      rfl
    · rw [o.canceled, hes]
      rcases h.doomed ha with hp | hc | ⟨y, hy, hc⟩
      · exact Or.inl ⟨hp, hd⟩
      · exact Or.inr (Or.inl (by simp [hc]))
      · rw [hm] at hy
        rcases List.mem_cons.mp hy with rfl | hy
        · exact Or.inr (Or.inl (by simp [hc]))
        · exact Or.inr (Or.inr ⟨y, List.mem_append_left es hy, hc⟩)

end Serving

end RouterAdvert.Advertiser
