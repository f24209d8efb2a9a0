import RouterAdvert.Proofs.Independence.Loop
import RouterAdvert.Proofs.Responder.Settling
import RouterAdvert.Proofs.Responder.Unannounced

/-! What can happen in a run of the responder, one move after the other. A move that two responders
make which are alike for an interface leaves them alike; a move about another interface that only
one of them makes does so too. -/
namespace RouterAdvert

open Responder

/-- What can happen to a tap from outside. What arrives can wait for a receive, or be handed to a
waiting one; a held send can be completed. -/
inductive Touch where
  | start (h : ExitHandler)
  | cancel
  | arrive (x : Arrival)
  | inject (x : Arrival)
  | release (e : Option ErrorCode)

namespace Touch

open Advertiser

def apply (x : Touch) (a : Advertiser) : Advertiser :=
  match x with
  | start h => a.start h
  | cancel => a.cancel
  | arrive x => (a.arrive? x).getD a
  | inject x => (a.inject? x).getD a
  | release e => (a.release? e).getD a

theorem stirs (x : Touch) (now : Nat) (a : Advertiser) :
    x.apply a = a ∨ Stir now a (x.apply a) := by
  cases x with
  | start h => exact Or.inr (.start h)
  | cancel => exact Or.inr .cancel
  | arrive x =>
    cases h : a.arrive? x with
    | none => exact Or.inl (by simp [apply, h])
    | some b => exact Or.inr (by simpa [apply, h] using Stir.arrive h)
  | inject x =>
    cases h : a.inject? x with
    | none => exact Or.inl (by simp [apply, h])
    | some b =>
      have ha : a.arrive? x = some b := by
        unfold inject? at h
        split at h
        · exact h
        · cases h
      exact Or.inr (by simpa [apply, h] using Stir.arrive ha)
  | release e =>
    cases h : a.release? e with
    | none => exact Or.inl (by simp [apply, h])
    | some b => exact Or.inr (by simpa [apply, h] using Stir.release h)

theorem blind (x : Touch) : Alike.Blind x.apply := by
  intro a
  cases x with
  | start | cancel => rfl
  | arrive x => simp only [apply, arrive?_unnumbered, Option.getD_map]
  | inject x => simp only [apply, inject?_unnumbered, Option.getD_map]
  | release e => simp only [apply, release?_unnumbered, Option.getD_map]

end Touch

/-- What can happen in a run. -/
inductive Move (σ : Type) where
  | add (i : Int32)
  | close (i : Int32)
  | closeAll
  | touch (id : TapId) (x : Touch)
  /-- The host changes. -/
  | host (f : σ → σ)
  | startWatch
  /-- Something arrives on the socket for announcements. -/
  | arrive (x : Except ErrorCode Bytes)
  | process (d : Bytes)
  | shutdown
  /-- Time passes. -/
  | run (ms : Nat)

/-- A responder at some time. -/
structure Moment (σ : Type) where
  now : Nat := 0
  responder : Responder σ

namespace Move

variable {σ : Type} [Host σ]

def on (m : Move σ) (now : Nat) (r : Responder σ) : Responder σ :=
  match m with
  | add i => (r.add now i).1
  | close i => r.close i
  | closeAll => r.closeAll
  | touch id x => r.modifyTap id x.apply
  | host f => { r with host := f r.host }
  | startWatch => (r.startWatch now).1
  | arrive x => r.arrive x
  | process d => r.process now d
  | shutdown => r.shutdown
  | run ms => Reactor.runFor ms now r

def duration : Move σ → Nat
  | run ms => ms
  | _ => 0

/-- Makes a move. When the program has ended, nothing happens any more. -/
def apply (m : Move σ) (s : Moment σ) : Moment σ :=
  if s.responder.halt.isSome then s
  else { now := s.now + m.duration, responder := m.on s.now s.responder }

/-- Whether a move comes to its end. A run does when no alarm is left that is due. -/
def Ends (s : Moment σ) : Move σ → Prop
  | run ms => Settled (s.now + ms) (Reactor.runFor ms s.now s.responder)
  | _ => True

/-- Whether no impossible route is met that is not met alike by both: a link can be announced that
only one of them serves already. -/
def Passes (s : Moment σ) : Move σ → Prop
  | add _ => True
  | m => (m.on s.now s.responder).halt ≠ some .failed

/-- Whether a move is about a tap of another interface only. -/
def Aside (i : Int32) : Move σ → Prop
  | add j => j ≠ i
  | close j => j ≠ i
  | touch id _ => id.index ≠ i
  | _ => False

/-- Whether a move has nothing to do with announcements. -/
def Unannounced : Move σ → Prop
  | startWatch => False
  | arrive _ => False
  | process _ => False
  | shutdown => False
  | _ => True

/-- Whether alike hosts stay so. -/
def Keeps (same : σ → σ → Prop) : Move σ → Prop
  | host f => ∀ s s', same s s' → same (f s) (f s')
  | _ => True

end Move

variable {σ : Type} [Host σ] {same : σ → σ → Prop} {i : Int32} {r r' : Responder σ} {m : Move σ}
  {now : Nat}

namespace Responder

/-- A move leads from one responder at work to another. -/
theorem Working.move (h : Working now r) (he : m.Ends ⟨now, r⟩) (hh : (m.on now r).halt = none) :
    Working (now + m.duration) (m.on now r) := by
  have hstep {c : Course σ} (hc : Course.Step { now := now, responder := r } c) :
      Working now c.responder := h.step (Nat.le_refl now) hc
  cases m with
  | add i => exact hstep (.add i)
  | close i => exact hstep (.close i)
  | closeAll => exact hstep .closeAll
  | touch id x => exact hstep (.stir id fun t _ => x.stirs now t.advertiser)
  | host f => exact hstep (.host _)
  | startWatch => exact hstep .startWatch
  | arrive x => exact hstep (.arrive x)
  | process d => exact hstep (.process d)
  | shutdown => exact hstep .shutdown
  | run ms => exact h.runFor he hh

/-- If all waits take some time, every move comes to its end, and they go on to do so. -/
theorem Paced.move (h : Paced r) (hw : Working now r) (m : Move σ) :
    m.Ends ⟨now, r⟩ ∧ Paced (m.on now r) := by
  cases m with
  | add i => exact ⟨trivial, (Calm.add now i r).paced h⟩
  | close i => exact ⟨trivial, (Calm.close i r).paced h⟩
  | closeAll => exact ⟨trivial, (Calm.closeAll r).paced h⟩
  | touch id x => exact ⟨trivial, (Calm.stir now fun t _ => x.stirs now t.advertiser).paced h⟩
  | host | arrive | shutdown => exact ⟨trivial, Calm.paced (r := r) (.of_eq rfl rfl rfl) h⟩
  | startWatch => exact ⟨trivial, (Calm.startWatch now r).paced h⟩
  | process d => exact ⟨trivial, (Calm.processBuffer now _ _ r).paced h⟩
  | run ms => exact h.runFor hw ms

end Responder

namespace Move

/-- A move that both make. -/
theorem alike (S : Steady same) (h : Alike same i r r') (hw : Working now r)
    (hw' : Working now r') (hk : m.Keeps same) (he : m.Ends ⟨now, r⟩) (he' : m.Ends ⟨now, r'⟩)
    (hn : m.Passes ⟨now, r⟩) (hn' : m.Passes ⟨now, r'⟩) :
    Alike same i (m.on now r) (m.on now r') := by
  cases m with
  | add j => exact h.add S hw.orderly hw'.orderly now j
  | close j => exact h.close S hw.orderly hw'.orderly j
  | closeAll => exact h.closeAll S hw.orderly hw'.orderly
  | touch id x =>
    by_cases hid : id.index = i
    · exact h.modifyTap hid x.blind
    · exact (((h.modifyTap_left hid x.apply).symm S).modifyTap_left hid x.apply).symm S
  | host f => exact { h with host := hk _ _ h.host }
  | startWatch => exact h.startWatch S now
  | arrive x => exact h.arrive x
  | process d => exact h.processBuffer S hw.orderly hw'.orderly hn hn'
  | shutdown => exact h.shutdown
  | run ms => exact h.runFor S hw hw' he he' hn hn'

/-- A move about another interface that only one of them makes. It takes no time. -/
theorem alike_left (S : Steady same) (h : Alike same i r r') (ho : Orderly r) (ha : m.Aside i)
    (hn : (m.on now r).halt ≠ some .failed) :
    Alike same i (m.on now r) r' ∧ m.duration = 0 := by
  cases m with
  | add j => exact ⟨h.add_left S ho ha hn, rfl⟩
  | close j => exact ⟨h.close_left ho ha, rfl⟩
  | touch id x => exact ⟨h.modifyTap_left ha x.apply, rfl⟩
  | closeAll | host | startWatch | arrive | process | shutdown | run => cases ha

/-- Without announcements, only a move that is to serve an interface can end the program. -/
theorem Unannounced.on (hu : m.Unannounced) (hw : Working now r) (hm : r.watch.mailbox = []) :
    (m.on now r).watch.mailbox = [] ∧ (r.halt = none → m.Passes ⟨now, r⟩) := by
  have hpass {q : Responder σ} (hq : q.halt = r.halt) (hh : r.halt = none) :
      q.halt ≠ some .failed := by simp [hq, hh]
  cases m with
  | add i => exact ⟨add_watch now i r ▸ hm, fun _ => trivial⟩
  | close i =>
    obtain ⟨hwatch, hhalt⟩ := close_watch i r
    exact ⟨hwatch ▸ hm, hpass hhalt⟩
  | closeAll =>
    obtain ⟨hwatch, hhalt⟩ := closeAll_watch r
    exact ⟨hwatch ▸ hm, hpass hhalt⟩
  | touch id x =>
    obtain ⟨hwatch, hhalt⟩ := modifyTap_watch id x.apply r
    exact ⟨hwatch ▸ hm, hpass hhalt⟩
  | host f => exact ⟨hm, hpass rfl⟩
  | run ms =>
    obtain ⟨hwatch, hhalt⟩ := hw.runUntil_unannounced hm (now + ms) now (Reactor.patience r)
    exact ⟨hwatch ▸ hm, hpass hhalt⟩
  | startWatch | arrive | process | shutdown => cases hu

theorem ends_of_aside {s : Moment σ} (ha : m.Aside i) : m.Ends s := by
  cases m with
  | run => cases ha
  | _ => trivial

end Move

end RouterAdvert
