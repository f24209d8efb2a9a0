import RouterAdvert.Proofs.Solo.Schedule

/-! Trials of a single advertiser: time is let pass in portions of any size, and datagrams are
delivered in between. -/
namespace RouterAdvert

open Advertiser

/-- Whether an advertiser that receives the datagram answers it. -/
def Datagram.isSolicitation (d : Datagram) : Bool :=
  Ndp.Solicitation.check (d.data.take receiveRoom) d.sender.isUnspecified = .ok

namespace Solo

variable {p : Profile} {n now : Nat} {solicited : List Nat} {s : Solo DialScript}

/-- Nothing is delivered when no receive waits. -/
theorem inject_of_waiting (h : ∀ c ∈ s.advertiser.connection, c.waiting = []) (x : Arrival) :
    s.inject x = (s, false) := by
  have hi : s.advertiser.inject? x = none := by
    cases hc : s.advertiser.connection with
    | none => simp [inject?, hc]
    | some c => simp [inject?, hc, h c hc]
  simp [inject, hi]

/-- A datagram goes to the receive that waits for it. -/
theorem inject_of_active {alarm : Option Alarm}
    (h : Active p false alarm [receiveRoom] [] s.advertiser) (d : Datagram) :
    ∃ s', s.inject (.ok d) = (s', true) ∧ s'.dialTimes = s.dialTimes ∧
      s'.sendTimes = s.sendTimes ∧
      Active p false alarm [] [.received (.ok (d.data.take receiveRoom))] s'.advertiser ∧
      s'.advertiser.solicited (d.data.take receiveRoom) = d.isSolicitation := by
  obtain ⟨c, hc, ho, hh, hi, hw⟩ := h.connection
  let a : Advertiser := { s.advertiser with
    connection := some { c with waiting := [], sender := d.sender }
    mailbox := [.received (.ok (d.data.take receiveRoom))] }
  have ha : s.advertiser.inject? (.ok d) = some a := by
    simp [inject?, arrive?, hc, Connection.arrive, hw, Connection.deliver, h.mailbox,
      Event.ofCompletion, a]
  refine ⟨{ s with advertiser := a }, by simp [inject, ha], rfl, rfl, ?_, rfl⟩
  exact { h with connection := ⟨_, rfl, ho, hh, hi, rfl⟩, mailbox := rfl }

/-- A receive waits as soon as there is a connection. -/
theorem OnTime.listens (h : OnTime p n solicited now s) (d : Datagram) :
    (s.inject (.ok d)).2 = true ↔ n * p.backoff ≤ now := by
  cases h with
  | connecting early _ _ state =>
    rw [inject_of_waiting (by simp [state.connection])]
    simpa using early
  | active _ _ state underway =>
    obtain ⟨s', hs', -⟩ := inject_of_active state d
    rw [hs']
    exact iff_of_true rfl (Nat.le_trans underway.begun underway.past)

section Received

variable {origin : Nat} {done : List Nat} {data : Bytes}

/-- A solicitation is answered, and the wait for the next advertisement begins anew. -/
theorem Underway.answers {t : Nat} (h : Underway p n origin done solicited now s)
    (state : Active p false (some ⟨.advertise, t⟩) [] [.received (.ok data)] s.advertiser)
    (hs : s.advertiser.solicited data = true) :
    OnTime p n (solicited ++ [now]) now (Reactor.drain now s) := by
  obtain ⟨s', hd, hs'⟩ := drain_answers state hs now
  rw [hd.drain]
  refine .active now (s.sendTimes ++ [now]) ?_
    { begun := Nat.le_trans h.begun h.past
      past := Nat.le_refl now
      dials := ?_
      sends := ?_
      law := fun limit => ?_ }
  · rwa [latest_self]
  · rw [hd.dials, h.dials]
    exact List.append_nil _
  · rw [hd.sends, ticks_self]
    exact (List.append_nil _).symm
  · calc n * p.backoff :: timetable p.interval limit (n * p.backoff) (solicited ++ [now])
        = (n * p.backoff :: timetable p.interval now (n * p.backoff) solicited) ++
            now :: ticks p.interval now limit := by
          rw [timetable_concat, List.cons_append]
      _ = s.sendTimes ++ now :: ticks p.interval now limit := by rw [h.law now, h.sends]
      _ = s.sendTimes ++ [now] ++ ticks p.interval now limit := by simp

/-- Any other datagram changes nothing. -/
theorem Underway.ignores (h : Underway p n origin done solicited now s)
    (state : Active p false (some ⟨.advertise, latest p.interval origin now + p.interval⟩) []
      [.received (.ok data)] s.advertiser)
    (hs : s.advertiser.solicited data = false) :
    OnTime p n solicited now (Reactor.drain now s) := by
  obtain ⟨s', hd, hs'⟩ := drain_ignores state hs now
  rw [hd.drain]
  refine .active origin done hs' { h with dials := ?_, sends := ?_ }
  · rw [hd.dials, h.dials]
    exact List.append_nil _
  · rw [hd.sends, h.sends]
    exact List.append_nil _

end Received

/-- An advertiser that has been told to start, and whose first `n` dials fail. -/
def fresh (p : Profile) (n : Nat) (threshold : Severity) : Solo DialScript :=
  start { advertiser := { profile := p }
          medium := { failing := n }
          journal := { threshold := threshold } }

/-- It dials at once. -/
theorem onTime_fresh (hb : 0 < p.backoff) (n : Nat) (threshold : Severity) :
    OnTime p n [] 0 (Reactor.drain 0 (fresh p n threshold)) := by
  have hstate : Dialing p .idle none [.start (.numbered 0)] (fresh p n threshold).advertiser :=
    ⟨rfl, rfl, rfl, rfl, rfl, rfl, rfl, rfl⟩
  have hdial : (fresh p n threshold).advertiser.Dials (.start (.numbered 0)) :=
    Or.inl ⟨⟨_, rfl⟩, rfl, rfl⟩
  have hfails : Fails n (fresh p n threshold).medium := ⟨rfl, rfl, rfl, rfl, rfl⟩
  rw [← Nat.zero_mul p.backoff]
  cases n with
  | zero =>
    obtain ⟨s', hd, hs'⟩ := drain_opens hstate hdial hfails (0 * p.backoff)
    rw [hd.drain]
    exact onTime_of_opens hd hs' rfl rfl
  | succ m =>
    obtain ⟨s', hd, hm, hs'⟩ := drain_fails hstate hdial hfails (0 * p.backoff)
    rw [hd.drain]
    exact onTime_of_fails m.succ_pos hb hd hm hs' rfl rfl

end Solo

/-- An advertiser, the time, and when solicitations were delivered to it. -/
structure Trial where
  now : Nat
  solo : Solo DialScript
  solicited : List Nat

namespace Trial

/-- What is done to the advertiser. -/
inductive Move where
  /-- Some time passes. -/
  | run (ms : Nat)
  /-- A datagram is delivered if a receive waits. -/
  | datagram (d : Datagram)

namespace Move

def duration : Move → Nat
  | run ms => ms
  | datagram _ => 0

def isRun : Move → Bool
  | run _ => true
  | datagram _ => false

end Move

def new (p : Profile) (n : Nat) (threshold : Severity) : Trial := ⟨0, .fresh p n threshold, []⟩

def move (t : Trial) : Move → Trial
  | .run ms => { t with now := t.now + ms, solo := Reactor.runFor ms t.now t.solo }
  | .datagram d =>
    let (solo, delivered) := t.solo.inject (.ok d)
    { t with
      solo := solo
      solicited := t.solicited ++ if delivered && d.isSolicitation then [t.now] else [] }

def after (t : Trial) (moves : List Move) : Trial := moves.foldl move t

/-- A trial that keeps to the schedule once what was delivered last has been handled. -/
structure Kept (p : Profile) (n : Nat) (t : Trial) : Prop where
  onTime : Solo.OnTime p n t.solicited t.now (Reactor.drain t.now t.solo)
  settled : t.solo.advertiser.mailbox = [] ∨ ∀ c ∈ t.solo.advertiser.connection, c.waiting = []

variable {p : Profile} {n : Nat} {t : Trial}

theorem kept_new (hb : 0 < p.backoff) (n : Nat) (threshold : Severity) :
    Kept p n (new p n threshold) :=
  ⟨Solo.onTime_fresh hb n threshold, Or.inr fun _ hc => nomatch hc⟩

/-- After a run nothing is left to do. -/
theorem Kept.run (h : Kept p n t) (hb : 0 < p.backoff) (hi : 0 < p.interval) (ms : Nat) :
    Solo.OnTime p n (t.move (.run ms)).solicited (t.move (.run ms)).now (t.move (.run ms)).solo :=
  Solo.onTime_runUntil hb hi _ _ _ h.onTime (Nat.le_add_right _ _)

theorem Kept.of_onTime (h : Solo.OnTime p n t.solicited t.now t.solo) : Kept p n t :=
  ⟨(Solo.drain_of_mailbox h.mailbox t.now).symm ▸ h, Or.inl h.mailbox⟩

theorem Kept.datagram (h : Kept p n t) (d : Datagram) : Kept p n (t.move (.datagram d)) := by
  have hdeaf (hw : ∀ c ∈ t.solo.advertiser.connection, c.waiting = []) :
      Kept p n (t.move (.datagram d)) := by
    simpa [move, Solo.inject_of_waiting hw] using h
  refine h.settled.elim (fun hm => ?_) hdeaf
  have hot := h.onTime
  rw [Solo.drain_of_mailbox hm] at hot
  cases hot with
  | connecting _ _ _ state => exact hdeaf (by simp [state.connection])
  | active origin done state underway =>
    obtain ⟨s', hs', hdials, hsends, hstate, hsol⟩ := Solo.inject_of_active state d
    have hunder : Solo.Underway p n origin done t.solicited t.now s' :=
      { underway with
        dials := hdials.trans underway.dials
        sends := hsends.trans underway.sends }
    have hwait : ∀ c ∈ s'.advertiser.connection, c.waiting = [] := by
      obtain ⟨c, hc, -, -, -, hw⟩ := hstate.connection
      intro x hx
      obtain rfl := Option.some.inj (hc.symm.trans hx)
      exact hw
    refine ⟨?_, by simpa [move, hs'] using Or.inr hwait⟩
    cases hd : d.isSolicitation with
    | true => simpa [move, hs', hd] using hunder.answers hstate (hsol.trans hd)
    | false => simpa [move, hs', hd] using hunder.ignores hstate (hsol.trans hd)

theorem Kept.after (h : Kept p n t) (hb : 0 < p.backoff) (hi : 0 < p.interval)
    (moves : List Move) : Kept p n (t.after moves) := by
  induction moves generalizing t with
  | nil => exact h
  | cons m moves ih =>
    cases m with
    | run ms => exact ih (.of_onTime (h.run hb hi ms))
    | datagram d => exact ih (h.datagram d)

theorem after_concat (t : Trial) (moves : List Move) (m : Move) :
    t.after (moves ++ [m]) = (t.after moves).move m := by
  simp [after]

theorem now_after (t : Trial) (moves : List Move) :
    (t.after moves).now = t.now + total Move.duration moves := by
  induction moves generalizing t with
  | nil => rfl
  | cons m moves ih =>
    have hm : (t.move m).now = t.now + m.duration := by cases m <;> rfl
    rw [total_cons, ← Nat.add_assoc, ← hm]
    exact ih (t.move m)

theorem solicited_after {moves : List Move} (h : ∀ m ∈ moves, m.isRun = true) (t : Trial) :
    (t.after moves).solicited = t.solicited := by
  induction moves generalizing t with
  | nil => rfl
  | cons m moves ih =>
    obtain ⟨hm, hmoves⟩ := List.forall_mem_cons.mp h
    cases m with
    | run ms => exact ih hmoves (t.move (.run ms))
    | datagram d => cases hm

/-- For an advertiser of which the first `n` dials fail: it dials when it is started and after every
backoff, until it has a connection; it advertises at once then, at every solicitation delivered to
it, and an interval after its latest advertisement. How time is cut into runs makes no difference.
-/
theorem advertises_on_schedule (hb : 0 < p.backoff) (hi : 0 < p.interval) (n : Nat)
    (threshold : Severity) (moves : List Move) (ms : Nat) :
    let t := (new p n threshold).after (moves ++ [.run ms])
    let opening := n * p.backoff
    t.now = total Move.duration moves + ms ∧
      (t.solo.dialTimes.Pairwise (· < ·) ∧
        ∀ x, x ∈ t.solo.dialTimes ↔ ∃ k ≤ n, x = k * p.backoff ∧ x ≤ t.now) ∧
      t.solo.advertiser.phase = (if t.now < opening then .connecting else .active) ∧
      t.solo.sendTimes =
        (if t.now < opening then []
        else opening :: Solo.timetable p.interval t.now opening t.solicited) ∧
      (∀ d, (t.solo.inject (.ok d)).2 = true ↔ opening ≤ t.now) ∧
      ((∀ m ∈ moves, m.isRun = true) →
        t.solo.sendTimes.Pairwise (· < ·) ∧
          ∀ x, x ∈ t.solo.sendTimes ↔ ∃ k, x = opening + k * p.interval ∧ x ≤ t.now) := by
  intro t opening
  have h : Solo.OnTime p n t.solicited t.now t.solo := by
    have hk := ((kept_new hb n threshold).after hb hi moves).run hb hi ms
    rwa [← after_concat] at hk
  have hnow : t.now = total Move.duration moves + ms := by
    have hn := now_after (new p n threshold) (moves ++ [.run ms])
    rw [total_append] at hn
    exact hn.trans (Nat.zero_add _)
  refine ⟨hnow, h.dials hb, h.phase, h.sends, h.listens, fun hm => ?_⟩
  have hs : t.solicited = [] := by
    refine solicited_after (fun m hx => ?_) (new p n threshold)
    rcases List.mem_append.mp hx with hx | hx
    · exact hm m hx
    · rw [List.mem_singleton.mp hx]
      rfl
  exact (hs ▸ h).unsolicited hi

/-- A solicitation between two advertisements puts off the second one. -/
theorem sends_around_solicitation :
    let p : Profile := { link := {}, advert := [], interval := 3, backoff := 2 }
    let d : Datagram := ⟨[133, 0, 0, 0, 0, 0, 0, 0], .unspecified⟩
    let t := (new p 1 .info).after [.run 4, .datagram d, .run 6]
    0 < p.backoff ∧ 0 < p.interval ∧ t.solo.advertiser.phase = .active ∧
      t.solo.sendTimes = [2, 4, 7, 10] := by
  intro p d t
  have hb : 0 < p.backoff := by decide
  have hi : 0 < p.interval := by decide
  have hd : d.isSolicitation = true := by decide +kernel
  let u := (new p 1 .info).after [.run 4]
  have hdelivered : (u.solo.inject (.ok d)).2 = true := by
    obtain ⟨-, -, -, -, hlistens, -⟩ := advertises_on_schedule hb hi 1 .info [] 4
    exact (hlistens d).mpr (by decide : 1 * 2 ≤ 0 + 4)
  have hsolicited : t.solicited = [4] := by
    have ht : t.solicited =
        [] ++ if (u.solo.inject (.ok d)).2 && d.isSolicitation then [0 + 4] else [] := rfl
    rw [ht, hdelivered, hd]
    rfl
  obtain ⟨hnow, -, hphase, hsends, -⟩ :=
    advertises_on_schedule hb hi 1 .info [.run 4, .datagram d] 6
  change t.now = 10 at hnow
  change t.solo.advertiser.phase = if t.now < 2 then _ else _ at hphase
  change t.solo.sendTimes = if t.now < 2 then [] else 2 :: Solo.timetable 3 t.now 2 t.solicited
    at hsends
  rw [hnow] at hphase
  rw [hnow, hsolicited] at hsends
  exact ⟨hb, hi, hphase, hsends⟩

end Trial

end RouterAdvert
