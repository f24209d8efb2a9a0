import RouterAdvert.Proofs.Responder.Attained
import RouterAdvert.Proofs.Responder.Stability

/-! The course of a responder with its watch. Interfaces are served and closed, announcements come
in, the program is told to stop, things happen to taps and to the host, and turns are taken as the
schedule has them. What the taps do is kept as a record, and each tap turns out to live the life of
its own advertiser. -/
namespace RouterAdvert

namespace Advertiser.Life

variable {r : Profile} {l l' : Life}

/-- Who is, or is going to be, the first to start the advertiser. -/
def firstStart? (l : Life) : Option ExitHandler :=
  l.starter?.or (l.advertiser.mailbox.findSome? (·.starter?))

theorem Step.firstStart? {x : ExitHandler} (s : Step l l') (h : Sound l.advertiser)
    (hx : l.firstStart? = some x) : l'.firstStart? = some x := by
  cases s with
  | pass => exact hx
  | @stir a hs =>
    obtain ⟨es, hes⟩ := hs.mailbox
    have hx : l.starter?.or (l.advertiser.mailbox.findSome? (·.starter?)) = some x := hx
    change l.starter?.or (a.mailbox.findSome? (·.starter?)) = some x
    rw [hes, List.findSome?_append, ← Option.or_assoc, hx]
    rfl
  | @handle k e rest t hm hk =>
    obtain ⟨-, o⟩ := outcome_of_step? h hm hk
    obtain ⟨es, hes⟩ := o.mailbox
    have hes : t.state.mailbox = rest ++ es := hes
    have hx : l.starter?.or ((e :: rest).findSome? (·.starter?)) = some x := hm ▸ hx
    rw [← List.singleton_append, List.findSome?_append, List.findSome?_singleton,
      ← Option.or_assoc] at hx
    change (l.add (l.deed k e rest t)).starter?.or (t.state.mailbox.findSome? (·.starter?)) = some x
    rw [starter?_add, hes, List.findSome?_append, ← Option.or_assoc, hx]
    rfl

end Advertiser.Life

namespace Responder

variable {σ : Type} [Host σ]

/-- What a tap does in the next turn, messages apart; nothing if it is the watch's turn. -/
def turnActs (now : Nat) (r : Responder σ) : List (TapId × Advertiser.Effect) :=
  match r.schedule with
  | .tap id :: _ =>
    ((r.taps.get? id).bind fun t =>
      t.advertiser.step? now (Medium.conditions t.link r.host)).elim [] fun u =>
        u.acts.map (id, ·)
  | _ => []

end Responder

open Responder

/-- A responder at some time, with all that its taps have done, oldest first. -/
structure Course (σ : Type) where
  now : Nat
  responder : Responder σ
  acts : List (TapId × Advertiser.Effect) := []

namespace Course

variable {σ : Type}

/-- What one tap has done. -/
def actsOf (id : TapId) (acts : List (TapId × Advertiser.Effect)) : List Advertiser.Effect :=
  acts.filterMap fun x => if x.1 = id then some x.2 else none

theorem actsOf_append (id : TapId) (acts more : List (TapId × Advertiser.Effect)) :
    actsOf id (acts ++ more) = actsOf id acts ++ actsOf id more := List.filterMap_append

theorem actsOf_self (id : TapId) (acts : List Advertiser.Effect) :
    actsOf id (acts.map (id, ·)) = acts := by
  induction acts with
  | nil => rfl
  | cons e es ih =>
    have hone : actsOf id ((e :: es).map (id, ·)) = e :: actsOf id (es.map (id, ·)) :=
      List.filterMap_cons_some (if_pos rfl)
    rw [hone, ih]

theorem actsOf_of_ne {id x : TapId} (h : x ≠ id) (acts : List Advertiser.Effect) :
    actsOf x (acts.map (id, ·)) = [] := by
  refine List.filterMap_eq_nil_iff.mpr fun y hy => ?_
  obtain ⟨e, -, rfl⟩ := List.mem_map.mp hy
  exact if_neg (Ne.symm h)

/-- Only taps that were made have done anything. -/
structure Known (acts : List (TapId × Advertiser.Effect)) (r : Responder σ) : Prop where
  orderly : Orderly r
  made : ∀ x ∈ acts, (r.taps.get? x.1).isSome

theorem Known.actsOf_freshId {acts : List (TapId × Advertiser.Effect)} {r : Responder σ}
    (h : Known acts r) (i : Int32) : actsOf (r.freshId i) acts = [] := by
  refine List.filterMap_eq_nil_iff.mpr fun x hx => if_neg fun hi => ?_
  have hm := h.made x hx
  rw [hi, h.orderly.tended.freshId i] at hm
  cases hm

/-- Puts another responder in its place, with the same past. -/
def become (r : Responder σ) (c : Course σ) : Course σ := { c with responder := r }

variable [Host σ]

/-- After a turn that leads to responder `r`. -/
def turned (r : Responder σ) (c : Course σ) : Course σ :=
  { c with responder := r, acts := c.acts ++ c.responder.turnActs c.now }

/-- What can come next. The host is free to change as it likes. -/
inductive Step (c : Course σ) : Course σ → Prop
  | pass (delay : Nat) : Step c { c with now := c.now + delay }
  | host (h : σ) : Step c (c.become { c.responder with host := h })
  | journal (j : Journal) : Step c (c.become { c.responder with journal := j })
  | add (i : Int32) : Step c (c.become (c.responder.add c.now i).1)
  | close (i : Int32) : Step c (c.become (c.responder.close i))
  | closeAll : Step c (c.become c.responder.closeAll)
  | stir (id : TapId) {f : Advertiser → Advertiser}
    (h : ∀ t, c.responder.taps.get? id = some t →
      f t.advertiser = t.advertiser ∨ Advertiser.Stir c.now t.advertiser (f t.advertiser)) :
    Step c (c.become (c.responder.modifyTap id f))
  | startWatch : Step c (c.become (c.responder.startWatch c.now).1)
  | arrive (x : Except ErrorCode Bytes) : Step c (c.become (c.responder.arrive x))
  | process (d : Bytes) : Step c (c.become (c.responder.process c.now d))
  | shutdown : Step c (c.become c.responder.shutdown)
  | turn {r : Responder σ} (h : c.responder.step? c.now = some r) : Step c (c.turned r)

/-- The courses that there can be, from a responder that serves nothing and watches nothing yet. -/
inductive Reachable : Course σ → Prop
  | new (now : Nat) (host : σ) (timing : Timing) (selects : Bytes → Bool) :
    Reachable { now := now, responder := { host := host, timing := timing, selects := selects } }
  | step {c c' : Course σ} (h : Reachable c) (s : Step c c') : Reachable c'

/-- What a course can come to. -/
inductive Later (c : Course σ) : Course σ → Prop
  | refl : Later c c
  | step {c' c'' : Course σ} (h : Later c c') (s : Step c' c'') : Later c c''

theorem Reachable.later {c c' : Course σ} (h : Reachable c) (hl : Later c c') : Reachable c' := by
  induction hl with
  | refl => exact h
  | step _ s ih => exact ih.step s

/-- What holds of the taps at any time: it is kept while time passes, by the watch, by all that
happens to a tap, and by the turns of the taps. -/
structure Invariant (I : Nat → List (TapId × Advertiser.Effect) → Responder σ → Prop) : Prop where
  orderly {now acts r} (h : I now acts r) : Orderly r
  pass {now acts r} (h : I now acts r) (delay : Nat) : I (now + delay) acts r
  kept (now acts) : Kept now (I now acts)
  stir {now acts r id} {f : Advertiser → Advertiser} (h : I now acts r)
    (hf : ∀ t, r.taps.get? id = some t →
      f t.advertiser = t.advertiser ∨ Advertiser.Stir now t.advertiser (f t.advertiser)) :
    I now acts (r.modifyTap id f)
  turn {now acts r id rest t u} (h : I now acts r) (hs : r.schedule = .tap id :: rest)
    (ht : r.taps.get? id = some t)
    (hk : t.advertiser.step? now (Medium.conditions t.link r.host) = some u) :
    I now (acts ++ u.acts.map (id, ·)) ({ r with schedule := rest }.stepTap now id)

namespace Invariant

variable {I : Nat → List (TapId × Advertiser.Effect) → Responder σ → Prop} {c c' : Course σ}

theorem step (hI : Invariant I) (h : I c.now c.acts c.responder) (s : Step c c') :
    I c'.now c'.acts c'.responder := by
  have kept := hI.kept c.now c.acts
  cases s with
  | pass delay => exact hI.pass h delay
  | host | journal => exact kept.aside h ⟨rfl, rfl, fun _ => rfl⟩
  | add i => exact kept.add h i
  | close i => exact kept.close h i
  | closeAll => exact kept.closeAll h
  | stir id hf => exact hI.stir h hf
  | startWatch => exact kept.aside h (aside_startWatch _ _)
  | arrive | shutdown => exact kept.aside h (aside_setWatch _ _)
  | process d => exact kept.processBuffer h _ _
  | @turn r hr =>
    obtain ⟨-, rest, ⟨hs, rfl⟩ | ⟨id, hs, rfl⟩⟩ := step?_cases hr
    · have hn : c.responder.turnActs c.now = [] := by simp [turnActs, hs]
      change I c.now (c.acts ++ c.responder.turnActs c.now) _
      rw [hn, List.append_nil]
      exact kept.watchTurn h hs
    · obtain ⟨t, u, ht, hk⟩ := (hI.orderly h).tended.exists_turn c.now hs
      have hn : c.responder.turnActs c.now = u.acts.map (id, ·) := by
        simp [turnActs, hs, ht, hk]
      change I c.now (c.acts ++ c.responder.turnActs c.now) _
      rw [hn]
      exact hI.turn h hs ht hk

theorem later (hI : Invariant I) (h : I c.now c.acts c.responder) (hl : Later c c') :
    I c'.now c'.acts c'.responder := by
  induction hl with
  | refl => exact h
  | step _ s ih => exact hI.step ih s

theorem attained : Invariant (σ := σ) fun now _ r => Attained now r where
  orderly := Attained.orderly
  pass h delay := h.pass (Nat.le_add_right _ delay)
  kept now _ := Attained.kept now
  stir h hf := h.stir _ hf
  turn h hs _ _ := h.turn hs

end Invariant

/-- A responder in a course is one that a service comes to. -/
theorem Reachable.attained {c : Course σ} (h : Reachable c) : Attained c.now c.responder := by
  induction h with
  | new now host timing selects => exact .new now host timing selects
  | step _ s ih => exact Invariant.attained.step ih s

/-- Whether an advertiser has come to what it is in a life of its own, with nothing but the acts of
its tap. Its first start is that of the registry. -/
def Lives (now : Nat) (acts : List (TapId × Advertiser.Effect)) (id : TapId) (a : Advertiser) :
    Prop :=
  ∃ l : Advertiser.Life, Advertiser.Life.Reachable a.profile l ∧ l.now = now ∧
    l.advertiser = a ∧ l.acts = actsOf id acts ∧ l.firstStart? = some .deregister

namespace Lives

open Advertiser

variable {now : Nat} {acts : List (TapId × Effect)} {id : TapId} {a b : Advertiser}

theorem stir (h : Lives now acts id a) (s : Stir now a b) : Lives now acts id b := by
  obtain ⟨l, hr, rfl, rfl, ha, hx⟩ := h
  have hs : Life.Step l (l.become b) := .stir s
  refine ⟨l.become b, ?_, rfl, rfl, ha, hs.firstStart? hr.sound hx⟩
  rw [s.profile]
  exact hr.step hs

theorem pass (h : Lives now acts id a) (delay : Nat) : Lives (now + delay) acts id a := by
  obtain ⟨l, hr, rfl, rfl, ha, hx⟩ := h
  exact ⟨_, hr.step (.pass delay), rfl, rfl, ha, hx⟩

theorem new (hn : actsOf id acts = []) (p : Profile) :
    Lives now acts id (start .deregister { profile := p }) := by
  have hr : Life.Reachable p (Life.become (start .deregister { profile := p })
      { now := now, advertiser := { profile := p } }) :=
    (Life.Reachable.new now).step (.stir (.start .deregister))
  exact ⟨_, hr, rfl, rfl, hn.symm, rfl⟩

theorem turn {k : Conditions} {u : Turn} (h : Lives now acts id a)
    (hk : a.step? now k = some u) :
    Lives now (acts ++ u.acts.map (id, ·)) id u.state := by
  obtain ⟨l, hr, rfl, rfl, ha, hx⟩ := h
  obtain ⟨e, rest, hm⟩ := exists_of_step? hk
  have hs : Life.Step l (l.add (l.deed k e rest u)) := .handle k hm hk
  refine ⟨l.add (l.deed k e rest u), ?_, rfl, rfl, ?_, hs.firstStart? hr.sound hx⟩
  · have hp : u.state.profile = l.advertiser.profile :=
      (Life.outcome_of_step? hr.sound hm hk).2.profile
    rw [hp]
    exact hr.step hs
  · rw [Life.acts_add, ha, actsOf_append, actsOf_self]

theorem of_ne {x : TapId} (h : Lives now acts x a) (hx : x ≠ id) (more : List Effect) :
    Lives now (acts ++ more.map (id, ·)) x a := by
  obtain ⟨l, hr, hn, hl, ha, hs⟩ := h
  refine ⟨l, hr, hn, hl, ?_, hs⟩
  rw [ha, actsOf_append, actsOf_of_ne hx, List.append_nil]

end Lives

namespace Known

variable {now : Nat} {acts : List (TapId × Advertiser.Effect)} {r : Responder σ}

theorem kept (now : Nat) : Kept now (Known (σ := σ) acts) where
  aside h ha := ⟨h.orderly.aside ha, fun x hx =>
    ((kept_made now x.1).aside ⟨h.orderly, h.made x hx⟩ ha).2⟩
  add h i := ⟨h.orderly.add now i, fun x hx =>
    ((kept_made now x.1).add ⟨h.orderly, h.made x hx⟩ i).2⟩
  close h i := ⟨h.orderly.close i, fun x hx =>
    ((kept_made now x.1).close ⟨h.orderly, h.made x hx⟩ i).2⟩
  closeAll h := ⟨h.orderly.closeAll, fun x hx =>
    ((kept_made now x.1).closeAll ⟨h.orderly, h.made x hx⟩).2⟩

end Known

/-- Each tap lives the life of its advertiser. -/
theorem Invariant.lives :
    Invariant (σ := σ) fun now acts r => Known acts r ∧ Tended (Lives now acts) r where
  orderly h := h.1.orderly
  pass h delay := ⟨h.1, h.2.imp fun _ _ _ ha => ha.pass delay⟩
  kept now acts := (Known.kept now).tended (fun _ h => h.orderly) (fun _ _ _ ha s => ha.stir s)
    fun _ h i p => .new (h.actsOf_freshId i) p
  stir := by
    intro now acts r id f h hf
    refine ⟨⟨h.1.orderly.stir hf, fun x hx => ?_⟩, h.2.stir (fun _ _ _ ha s => ha.stir s) hf⟩
    rw [isSome_get?_modifyTap]
    exact h.1.made x hx
  turn := by
    intro now acts r id rest t u h hs ht hk
    obtain ⟨e, events, hm⟩ := Advertiser.exists_of_step? hk
    have hlife := h.2.taps id t ht
    have hes : ∃ es, u.state.mailbox = events ++ es := by
      obtain ⟨-, -, hes⟩ := (h.1.orderly.tended.taps id t ht).handle hm hk
      exact hes
    refine ⟨⟨h.1.orderly.turn hs ht hk, fun x hx => ?_⟩, h.2.turn hs ht hk hm hes (hlife.turn hk)
      fun x a hx ha => ha.of_ne hx u.acts⟩
    rw [Orderly.isSome_get?_stepTap ht hk]
    rcases List.mem_append.mp hx with hx | hx
    · exact h.1.made x hx
    · obtain ⟨y, -, rfl⟩ := List.mem_map.mp hx
      rw [ht]
      rfl

theorem Reachable.lives {c : Course σ} (h : Reachable c) :
    Known c.acts c.responder ∧ Tended (Lives c.now c.acts) c.responder := by
  induction h with
  | new now host timing selects =>
    exact ⟨⟨(Attained.new now host timing selects).orderly, by simp⟩,
      ⟨by simp, fun _ => rfl, by simp [Table.keys, Table.empty]⟩⟩
  | step _ s ih => exact Invariant.lives.step ih s

end Course

end RouterAdvert
