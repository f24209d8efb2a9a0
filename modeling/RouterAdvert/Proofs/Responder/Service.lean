import RouterAdvert.Proofs.Responder.Orderly

/-! The responder in any surroundings. Interfaces are served and closed, taps are asked to start or
to stop, things happen on their connections, alarms go off, time passes, the host changes, and the
taps take their turns, in any order. What happens to the registry, and which taps come to an end, is
kept as a record beside it. -/
namespace RouterAdvert

namespace Responder

/-- What can have happened to the registry or to a tap in it. -/
inductive Happening where
  /-- A tap was put into service for an interface. -/
  | inserted (i : Int32) (id : TapId)
  | closed (i : Int32)
  | closedAll
  /-- The advertiser of a tap told of its end. -/
  | exited (id : TapId)

/-- Whether the service of interface `i` by tap `id` ends with what happens. -/
def Happening.Ends (i : Int32) (id : TapId) : Happening → Prop
  | inserted j _ | closed j => j = i
  | closedAll => True
  | exited x => x = id

/-- Whether tap `id` was the last to be put into service for interface `i`, and nothing has ended
that since. -/
def Serves (history : List Happening) (i : Int32) (id : TapId) : Prop :=
  ∃ before after, history = before ++ .inserted i id :: after ∧ ∀ h ∈ after, ¬h.Ends i id

theorem serves_concat {history : List Happening} {h : Happening} {i : Int32} {id : TapId} :
    Serves (history ++ [h]) i id ↔
      h = .inserted i id ∨ Serves history i id ∧ ¬h.Ends i id := by
  constructor
  · rintro ⟨before, after, heq, hafter⟩
    rcases List.eq_nil_or_concat after with rfl | ⟨after, l, rfl⟩
    · exact Or.inl (List.singleton_inj.mp (List.append_inj_right' heq rfl))
    · have heq : history ++ [h] = (before ++ .inserted i id :: after) ++ [l] := by simpa using heq
      obtain ⟨hh, hl⟩ := List.append_inj' heq rfl
      obtain rfl := List.singleton_inj.mp hl
      exact Or.inr ⟨⟨before, after, hh, fun x hx => hafter x (by simp [hx])⟩, hafter h (by simp)⟩
  · rintro (rfl | ⟨⟨before, after, rfl, hafter⟩, hh⟩)
    · exact ⟨history, [], rfl, by simp⟩
    · refine ⟨before, after ++ [h], by simp, fun x hx => ?_⟩
      rcases List.mem_append.mp hx with hx | hx
      · exact hafter x hx
      · obtain rfl := List.mem_singleton.mp hx
        exact hh

end Responder

open Responder

/-- A responder at some time, with all that has happened to its registry, oldest first. -/
structure Service (σ : Type) where
  now : Nat
  responder : Responder σ
  history : List Happening := []

namespace Service

variable {σ : Type}

/-- The service with another responder, after some more happenings. -/
def next (r : Responder σ) (hs : List Happening) (s : Service σ) : Service σ :=
  { s with responder := r, history := s.history ++ hs }

variable [Host σ]

/-- What can come next. The host is free to answer and to change as it likes. -/
inductive Step (s : Service σ) : Service σ → Prop
  | pass (delay : Nat) : Step s { s with now := s.now + delay }
  | aside {r : Responder σ} (h : Aside s.responder r) : Step s (s.next r [])
  | add (i : Int32) : Step s (s.next (s.responder.add s.now i).1
      (if (s.responder.add s.now i).2 then [.inserted i (s.responder.freshId i)] else []))
  | close (i : Int32) : Step s (s.next (s.responder.close i) [.closed i])
  | closeAll : Step s (s.next s.responder.closeAll [.closedAll])
  | stir (id : TapId) {f : Advertiser → Advertiser}
    (h : ∀ t, s.responder.taps.get? id = some t →
      f t.advertiser = t.advertiser ∨ Advertiser.Stir s.now t.advertiser (f t.advertiser)) :
    Step s (s.next (s.responder.modifyTap id f) [])
  | turn {id : TapId} {t : Tap} {u : Advertiser.Turn} {rest : List Actor}
    (hs : s.responder.schedule = .tap id :: rest) (ht : s.responder.taps.get? id = some t)
    (hk : t.advertiser.step? s.now (Medium.conditions t.link s.responder.host) = some u) :
    Step s (s.next ({ s.responder with schedule := rest }.stepTap s.now id)
      (if u.acts.any (·.isExit) then [.exited id] else []))

/-- The services that can come to be, from a responder that serves nothing yet. -/
inductive Reachable : Service σ → Prop
  | new (now : Nat) (host : σ) (timing : Timing) (selects : Bytes → Bool) :
    Reachable { now := now, responder := { host := host, timing := timing, selects := selects } }
  | step {s s' : Service σ} (h : Reachable s) (st : Step s s') : Reachable s'

variable {s s' : Service σ}

theorem Step.orderly (st : Step s s') (h : Orderly s.responder) : Orderly s'.responder := by
  cases st with
  | pass delay => exact h
  | aside ha => exact h.aside ha
  | add i => exact h.add s.now i
  | close i => exact h.close i
  | closeAll => exact h.closeAll
  | stir id hf => exact h.stir hf
  | turn hs ht hk => exact h.turn hs ht hk

theorem Reachable.orderly (h : Reachable s) : Orderly s.responder := by
  induction h with
  | new now host timing selects =>
    exact ⟨⟨by simp, fun _ => rfl, by simp [Table.keys, Table.empty]⟩, by simp⟩
  | step _ st ih => exact st.orderly ih

end Service

end RouterAdvert
