import Mathlib.Data.List.Forall2
import RouterAdvert.DialScript
import RouterAdvert.Proofs.Loop
import RouterAdvert.Solo

/-! Messages have no influence on what an advertiser does. Of two advertisers to which the same
happens, the one with the higher threshold writes the rows of the other one, less the messages that
do not reach its threshold; all else is the same. -/
namespace RouterAdvert

namespace Entry

def isLog : Entry → Bool
  | log .. => true
  | _ => false

/-- Whether an entry is written at this threshold. Only messages are ever held back. -/
def reaches (threshold : Severity) : Entry → Bool
  | log _ s _ => s.reaches threshold
  | _ => true

theorem reaches_of_not_isLog {e : Entry} (h : e.isLog = false) (threshold : Severity) :
    e.reaches threshold = true := by
  cases e with
  | log => cases h
  | _ => rfl

end Entry

/-- A medium that writes no messages of its own. -/
structure Medium.Silent (σ : Type) [Medium σ] : Prop where
  dial : ∀ (l : Link) (m : σ), ∀ e ∈ (Medium.dial l m).1, e.isLog = false
  call : ∀ (c : Connection) (call : ConnectionCall) (fault : Option ErrorCode) (m : σ),
    ∀ e ∈ (Medium.call c call fault m).1, e.isLog = false

theorem DialScript.silent : Medium.Silent DialScript where
  dial l m e he := by
    rw [List.mem_singleton.mp he]
    rfl
  call c call fault m e he := by
    rw [List.mem_singleton.mp he]
    rfl

variable {threshold : Severity} {a b : List (Stamp × Entry)}

/-- Two journals side by side, since they had these rows: the second one, at the threshold, is
without the messages that do not reach it. -/
structure Journal.Abreast (threshold : Severity) (a b : List (Stamp × Entry)) (j k : Journal) :
    Prop where
  lower : j.threshold.rank ≤ threshold.rank
  upper : k.threshold = threshold
  toSystem : k.toSystem = j.toSystem
  rows : ∃ new, j.rows = new ++ a ∧ k.rows = new.filter (·.2.reaches threshold) ++ b

namespace Journal.Abreast

variable {j k : Journal}

/-- What reaches the threshold goes to both. -/
theorem record (h : Abreast threshold a b j k) (stamp : Stamp) {e : Entry}
    (he : e.reaches threshold = true) :
    Abreast threshold a b (j.record stamp e) (k.record stamp e) := by
  obtain ⟨new, hj, hk⟩ := h.rows
  refine ⟨h.lower, h.upper, h.toSystem, (stamp, e) :: new, congrArg ((stamp, e) :: ·) hj, ?_⟩
  rw [List.filter_cons_of_pos (by exact he)]
  exact congrArg ((stamp, e) :: ·) hk

/-- A message that does not reach it may go to the first one. -/
theorem record_left (h : Abreast threshold a b j k) (stamp : Stamp) {e : Entry}
    (he : ¬e.reaches threshold = true) : Abreast threshold a b (j.record stamp e) k := by
  obtain ⟨new, hj, hk⟩ := h.rows
  refine ⟨h.lower, h.upper, h.toSystem, (stamp, e) :: new, congrArg ((stamp, e) :: ·) hj, ?_⟩
  rwa [List.filter_cons_of_neg (by exact he)]

theorem recordAll (h : Abreast threshold a b j k) (stamp : Stamp) {es : List Entry}
    (hes : ∀ e ∈ es, e.isLog = false) :
    Abreast threshold a b (j.recordAll stamp es) (k.recordAll stamp es) := by
  induction es generalizing j k with
  | nil => exact h
  | cons e es ih =>
    obtain ⟨he, hes⟩ := List.forall_mem_cons.mp hes
    exact ih (h.record stamp (Entry.reaches_of_not_isLog he threshold)) hes

theorem note (h : Abreast threshold a b j k) (stamp : Stamp) (n : Notice) :
    Abreast threshold a b (j.note stamp n) (k.note stamp n) := by
  unfold Journal.note Journal.say Journal.isEnabled Journal.write
  rw [h.upper, h.toSystem]
  by_cases hs : n.severity.reaches threshold = true
  · have hreaches : n.severity.reaches j.threshold = true :=
      decide_eq_true (Nat.le_trans h.lower (of_decide_eq_true hs))
    rw [if_pos hs, if_pos hreaches]
    exact h.record stamp hs
  · -- Whether the first journal has it depends on its own threshold.
    rw [if_neg hs]
    split
    · exact h.record_left stamp hs
    · exact h

end Journal.Abreast

namespace Solo

variable {σ : Type} {s t : Solo σ}

/-- Two advertisers that differ in their journals alone, which are side by side. -/
structure Abreast (threshold : Severity) (a b : List (Stamp × Entry)) (s t : Solo σ) : Prop where
  advertiser : t.advertiser = s.advertiser
  medium : t.medium = s.medium
  starts : t.starts = s.starts
  journal : s.journal.Abreast threshold a b t.journal

/-- Both do the same to the advertiser. -/
theorem Abreast.map (h : Abreast threshold a b s t) (f : Advertiser → Advertiser) :
    Abreast threshold a b { s with advertiser := f s.advertiser }
      { t with advertiser := f t.advertiser } where
  advertiser := congrArg f h.advertiser
  medium := h.medium
  starts := h.starts
  journal := h.journal

section Lockstep

variable [Medium σ]

theorem abreast_perform (hm : Medium.Silent σ) {j k : Journal} (h : j.Abreast threshold a b k)
    (stamp : Stamp) (x : Advertiser) (e : Advertiser.Effect) (m : σ) :
    (e.perform stamp x (j, m)).1.Abreast threshold a b (e.perform stamp x (k, m)).1 ∧
      (e.perform stamp x (k, m)).2 = (e.perform stamp x (j, m)).2 := by
  cases e with
  | note n => exact ⟨h.note stamp n, rfl⟩
  | dial => exact ⟨h.recordAll stamp (hm.dial x.profile.link m), rfl⟩
  | call c fault =>
    unfold Advertiser.Effect.perform
    cases x.connection with
    | none => exact ⟨h, rfl⟩
    | some connection => exact ⟨h.recordAll stamp (hm.call connection c fault m), rfl⟩
  | armed => exact ⟨h, rfl⟩
  | exit handler code => exact ⟨h.record stamp rfl, rfl⟩

theorem abreast_performAll (hm : Medium.Silent σ) {j k : Journal} (h : j.Abreast threshold a b k)
    (stamp : Stamp) (x : Advertiser) (es : List Advertiser.Effect) (m : σ) :
    let after (j : Journal) := es.foldl (fun js e => e.perform stamp x js) (j, m)
    (after j).1.Abreast threshold a b (after k).1 ∧ (after k).2 = (after j).2 := by
  induction es generalizing j k m with
  | nil => exact ⟨h, rfl⟩
  | cons e es ih =>
    obtain ⟨hj, hmedium⟩ := abreast_perform hm h stamp x e m
    -- The second journal goes on with the medium of the first.
    have hk : e.perform stamp x (k, m) =
        ((e.perform stamp x (k, m)).1, (e.perform stamp x (j, m)).2) := by rw [← hmedium]
    simp only [List.foldl_cons]
    rw [hk]
    exact ih hj _

/-- They take the same turns and set the same alarms. -/
theorem lockstep (hm : Medium.Silent σ) (threshold : Severity) (a b : List (Stamp × Entry)) :
    Reactor.Lockstep (Abreast threshold a b : Solo σ → Solo σ → Prop) where
  step now s t h := by
    change Option.Rel _ (s.step? now) (t.step? now)
    unfold step?
    rw [h.advertiser, h.medium]
    cases s.advertiser.step? now (Medium.conditions s.advertiser.profile.link s.medium) with
    | none => exact .none
    | some turn =>
      obtain ⟨hjournal, hmedium⟩ :=
        abreast_performAll hm h.journal ⟨now, none⟩ turn.state turn.effects s.medium
      exact .some ⟨rfl, hmedium, h.starts, hjournal⟩
  ring _ s t h := h.map Advertiser.ring
  nextAlarm s t h := congrArg (·.alarm.map (·.expiry)) h.advertiser
  work s t h := congrArg Advertiser.work h.advertiser
  patience s t h := congrArg (Medium.failures · + 2) h.medium

end Lockstep

theorem Abreast.start (h : Abreast threshold a b s t) : Abreast threshold a b s.start t.start where
  advertiser := by rw [Solo.start, Solo.start, h.advertiser, h.starts]
  medium := h.medium
  starts := congrArg (· + 1) h.starts
  journal := h.journal

/-- Delivering and releasing do the same to both, and succeed alike. -/
theorem Abreast.inject (h : Abreast threshold a b s t) (x : Arrival) :
    Abreast threshold a b (s.inject x).1 (t.inject x).1 ∧ (t.inject x).2 = (s.inject x).2 := by
  unfold Solo.inject
  rw [h.advertiser]
  cases s.advertiser.inject? x with
  | none => exact ⟨h, rfl⟩
  | some y => exact ⟨h.map fun _ => y, rfl⟩

theorem Abreast.release (h : Abreast threshold a b s t) (e : Option ErrorCode) :
    Abreast threshold a b (s.release e).1 (t.release e).1 ∧ (t.release e).2 = (s.release e).2 := by
  unfold Solo.release
  rw [h.advertiser]
  cases s.advertiser.release? e with
  | none => exact ⟨h, rfl⟩
  | some y => exact ⟨h.map fun _ => y, rfl⟩

end Solo

/-- An advertiser on a scripted medium, and the time. -/
structure Session where
  now : Nat := 0
  solo : Solo DialScript

namespace Session

/-- What is done to the advertiser. Connections are named by their numbers; without one, the last is
meant. -/
inductive Move where
  | start
  | cancel
  | run (ms : Nat)
  | script (c : DialScript.Change)
  | inject (number : Option Nat) (x : Arrival)
  | release (number : Option Nat) (e : Option ErrorCode)

/-- What comes of it at once. -/
inductive Answer where
  | done
  | noConnection
  | found (b : Bool)
  deriving DecidableEq, Repr

def onConnection (number : Option Nat) (act : Solo DialScript → Solo DialScript × Bool)
    (s : Session) : Answer × Session :=
  if s.solo.hasConnection number then
    let (solo, b) := act s.solo
    (.found b, { s with solo := solo })
  else (.noConnection, s)

def move (s : Session) : Move → Answer × Session
  | .start => (.done, { s with solo := s.solo.start })
  | .cancel => (.done, { s with solo := s.solo.cancel })
  | .run ms => (.done, { now := s.now + ms, solo := Reactor.runFor ms s.now s.solo })
  | .script c => (.done, { s with solo := { s.solo with medium := s.solo.medium.change c } })
  | .inject number x => s.onConnection number (Solo.inject x)
  | .release number e => s.onConnection number (Solo.release e)

/-- What can be seen after a move: the rows are those written since the move before. -/
structure View where
  answer : Answer
  now : Nat
  phase : Phase
  dials : Nat
  advert : Bytes
  rows : List (Stamp × Entry)
  deriving DecidableEq, Repr

def view (s : Session) (r : Answer × Session) : View where
  answer := r.1
  now := r.2.now
  phase := r.2.solo.advertiser.phase
  dials := r.2.solo.advertiser.dials
  advert := r.2.solo.advertiser.profile.advert
  rows := r.2.solo.journal.since s.solo.journal.rows.length

def views (s : Session) : List Move → List View
  | [] => []
  | m :: moves => view s (s.move m) :: (s.move m).2.views moves

/-- The second view is what the first one is at this threshold: messages below it are not among the
rows, and all other rows are, in the same order. -/
structure View.Agrees (threshold : Severity) (v w : View) : Prop where
  answer : w.answer = v.answer
  now : w.now = v.now
  phase : w.phase = v.phase
  dials : w.dials = v.dials
  advert : w.advert = v.advert
  events : w.rows.filter (!·.2.isLog) = v.rows.filter (!·.2.isLog)
  rows : w.rows = v.rows.filter (·.2.reaches threshold)

/-- Two sessions that differ in their journals alone, which are side by side. -/
structure Abreast (threshold : Severity) (a b : List (Stamp × Entry)) (s t : Session) : Prop where
  now : t.now = s.now
  solo : s.solo.Abreast threshold a b t.solo

variable {s t : Session}

/-- Whatever was written before, the journals are side by side from now on. -/
theorem Abreast.anew (h : Abreast threshold a b s t) :
    Abreast threshold s.solo.journal.rows t.solo.journal.rows s t where
  now := h.now
  solo := { h.solo with journal := { h.solo.journal with rows := ⟨[], rfl, rfl⟩ } }

theorem Abreast.onConnection (h : Abreast threshold a b s t) (number : Option Nat)
    {act : Solo DialScript → Solo DialScript × Bool}
    (hact : (act s.solo).1.Abreast threshold a b (act t.solo).1 ∧
      (act t.solo).2 = (act s.solo).2) :
    Abreast threshold a b (s.onConnection number act).2 (t.onConnection number act).2 ∧
      (t.onConnection number act).1 = (s.onConnection number act).1 := by
  have hc : t.solo.hasConnection number = s.solo.hasConnection number := by
    unfold Solo.hasConnection
    rw [h.solo.advertiser]
  unfold Session.onConnection
  rw [hc]
  split
  · exact ⟨⟨h.now, hact.1⟩, congrArg Answer.found hact.2⟩
  · exact ⟨h, rfl⟩

/-- A move keeps the sessions side by side, and is answered alike. -/
theorem Abreast.move (h : Abreast threshold a b s t) (m : Move) :
    Abreast threshold a b (s.move m).2 (t.move m).2 ∧ (t.move m).1 = (s.move m).1 := by
  obtain ⟨hnow, hsolo⟩ := h
  cases m with
  | start => exact ⟨⟨hnow, hsolo.start⟩, rfl⟩
  | cancel => exact ⟨⟨hnow, hsolo.map Advertiser.cancel⟩, rfl⟩
  | run ms =>
    have hrun := (Solo.lockstep DialScript.silent threshold a b).runFor ms s.now hsolo
    refine ⟨⟨congrArg (· + ms) hnow, ?_⟩, rfl⟩
    rwa [Session.move, Session.move, hnow]
  | script c =>
    exact ⟨⟨hnow, { hsolo with medium := congrArg (DialScript.change c) hsolo.medium }⟩, rfl⟩
  | inject number x => exact Abreast.onConnection ⟨hnow, hsolo⟩ number (hsolo.inject x)
  | release number e => exact Abreast.onConnection ⟨hnow, hsolo⟩ number (hsolo.release e)

theorem since_of_append {j : Journal} {new : List (Stamp × Entry)} (h : j.rows = new ++ a) :
    j.since a.length = new.reverse := by
  simp [Journal.since, h]

theorem Abreast.agrees (h : Abreast threshold a b s t) (m : Move) :
    View.Agrees threshold (view s (s.move m)) (view t (t.move m)) := by
  -- The rows of this move are those since the journals were compared anew.
  obtain ⟨⟨hnow, hsolo⟩, hanswer⟩ := h.anew.move m
  obtain ⟨new, hs, ht⟩ := hsolo.journal.rows
  have hrows : (view t (t.move m)).rows =
      (view s (s.move m)).rows.filter (·.2.reaches threshold) := by
    rw [view, view, since_of_append hs, since_of_append ht, List.filter_reverse]
  have hevent (row : Stamp × Entry) :
      (!row.2.isLog && row.2.reaches threshold) = !row.2.isLog := by
    cases h : row.2.isLog with
    | true => rfl
    | false => rw [Entry.reaches_of_not_isLog h threshold, Bool.and_true]
  exact
    { answer := hanswer
      now := hnow
      phase := congrArg Advertiser.phase hsolo.advertiser
      dials := congrArg Advertiser.dials hsolo.advertiser
      advert := congrArg (·.profile.advert) hsolo.advertiser
      events := by rw [hrows, List.filter_filter, funext hevent]
      rows := hrows }

theorem Abreast.views (h : Abreast threshold a b s t) (moves : List Move) :
    List.Forall₂ (View.Agrees threshold) (s.views moves) (t.views moves) := by
  induction moves generalizing a b s t with
  | nil => exact .nil
  | cons m moves ih => exact .cons (h.agrees m) (ih (h.move m).1)

/-- An advertiser that has not been started. -/
def new (p : Profile) (script : DialScript) (toSystem : Bool) (threshold : Severity) : Session where
  solo :=
    { advertiser := { profile := p }
      medium := script
      journal := { threshold := threshold, toSystem := toSystem } }

/-- Two sessions with the same moves go alike whatever their thresholds are. The one with the higher
threshold writes, after every move, what the other one writes, without the messages that do not
reach it. -/
theorem threshold_only_filters (p : Profile) (script : DialScript) (toSystem : Bool)
    {low high : Severity} (h : low.rank ≤ high.rank) (moves : List Move) :
    List.Forall₂ (View.Agrees high) ((new p script toSystem low).views moves)
      ((new p script toSystem high).views moves) := by
  have hnew : Abreast high [] [] (new p script toSystem low) (new p script toSystem high) :=
    { now := rfl
      solo :=
        { advertiser := rfl
          medium := rfl
          starts := rfl
          journal := ⟨h, rfl, rfl, [], rfl, rfl⟩ } }
  exact hnew.views moves

/-- A dial that fails is a row of both journals; the message about it is no error. -/
theorem filters_failed_dial :
    let p : Profile := { link := {}, advert := [], interval := 3, backoff := 2 }
    let views (threshold : Severity) : List View :=
      (new p { failing := 1 } false threshold).views [.start, .run 1]
    Severity.debug.rank ≤ Severity.error.rank ∧
      List.Forall₂ (View.Agrees .error) (views .debug) (views .error) ∧
      (views .debug).map (·.rows.length) = [0, 2] ∧
      (views .error).map (·.rows.length) = [0, 1] := by
  intro p views
  have h : Severity.debug.rank ≤ Severity.error.rank := by decide
  refine ⟨h, threshold_only_filters p { failing := 1 } false h _, ?_, ?_⟩
  all_goals
    simp only [views, Session.views, move, Reactor.runFor]
    rw [Reactor.runUntil]
    decide

end Session

end RouterAdvert
