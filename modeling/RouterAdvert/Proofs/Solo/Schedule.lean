import RouterAdvert.Proofs.Solo.Turns

/-! When a single advertiser dials and advertises. One alarm serves both: it goes off after every
backoff until a dial succeeds, and from then on an interval after the latest advertisement. -/
namespace RouterAdvert.Solo

open Advertiser

/-- The times up to `limit` at which a period has passed once more since `last`. -/
def ticks (period last limit : Nat) : List Nat :=
  (List.range ((limit - last) / period)).map fun k => last + (k + 1) * period

/-- The latest of them, or `last` if there is none. -/
def latest (period last limit : Nat) : Nat := last + (limit - last) / period * period

/-- The advertisements up to `limit` that follow one at `last`: one for each solicitation, at its
time, and one whenever a period has passed since the latest of either kind. -/
def timetable (period limit last : Nat) : List Nat → List Nat
  | [] => ticks period last limit
  | s :: rest => ticks period last s ++ s :: timetable period limit s rest

variable {period last limit now : Nat}

theorem ticks_self (period last : Nat) : ticks period last last = [] := by simp [ticks]

theorem latest_self (period last : Nat) : latest period last last = last := by simp [latest]

theorem mem_ticks (hp : 0 < period) {t : Nat} :
    t ∈ ticks period last limit ↔ ∃ k, t = last + (k + 1) * period ∧ t ≤ limit := by
  simp only [ticks, List.mem_map, List.mem_range]
  constructor
  · rintro ⟨k, hk, rfl⟩
    have hle : (k + 1) * period ≤ limit - last := (Nat.le_div_iff_mul_le hp).mp hk
    have hpos : 0 < (k + 1) * period := Nat.mul_pos k.succ_pos hp
    exact ⟨k, rfl, by omega⟩
  · rintro ⟨k, rfl, ht⟩
    have hle : (k + 1) * period ≤ limit - last := by omega
    exact ⟨k, (Nat.le_div_iff_mul_le hp).mpr hle, rfl⟩

theorem pairwise_ticks (hp : 0 < period) (last limit : Nat) :
    (ticks period last limit).Pairwise (· < ·) := by
  refine List.pairwise_lt_range.map _ fun j k hjk => ?_
  have hlt : (j + 1) * period < (k + 1) * period :=
    Nat.mul_lt_mul_of_pos_right (Nat.succ_lt_succ hjk) hp
  exact Nat.add_lt_add_left hlt last

/-- A further solicitation cuts off the ticks that follow. -/
theorem timetable_concat (period limit last : Nat) (times : List Nat) (s : Nat) :
    timetable period limit last (times ++ [s]) =
      timetable period s last times ++ s :: ticks period s limit := by
  induction times generalizing last with
  | nil => rfl
  | cons t times ih => simp [timetable, ih]

/-- Nothing is due before the period is over. -/
theorem elapsed_of_lt (hp : last ≤ now) (hl : now ≤ limit)
    (h : limit < latest period last now + period) :
    (limit - last) / period = (now - last) / period := by
  have hle := Nat.div_mul_le_self (now - last) period
  unfold latest at h
  refine Nat.div_eq_of_lt_le (by omega) ?_
  rw [Nat.succ_mul]
  omega

/-- When it is over, one more period has passed. -/
theorem elapsed_next (hp : 0 < period) :
    (latest period last now + period - last) / period = (now - last) / period + 1 := by
  have he : latest period last now + period - last = ((now - last) / period + 1) * period := by
    rw [Nat.succ_mul, latest]
    omega
  rw [he, Nat.mul_div_cancel _ hp]

theorem latest_next (hp : 0 < period) :
    latest period last (latest period last now + period) = latest period last now + period := by
  rw [latest, elapsed_next hp, Nat.succ_mul, ← Nat.add_assoc]
  rfl

theorem ticks_next (hp : 0 < period) :
    ticks period last (latest period last now + period) =
      ticks period last now ++ [latest period last now + period] := by
  rw [ticks, elapsed_next hp, List.range_succ, List.map_append, List.map_singleton, Nat.succ_mul,
    ← Nat.add_assoc]
  rfl

theorem lt_latest (hp : 0 < period) : now < latest period last now + period := by
  have h := Nat.lt_div_mul_add hp (a := now - last)
  unfold latest
  omega

/-- The times of the first `n` dials. -/
def dialed (p : Profile) (n : Nat) : List Nat := (List.range n).map (· * p.backoff)

/-- What an advertiser of which the first `n` dials fail has done by some time, once it has its
connection. Since `origin` there were no solicitations, and what was advertised before is given. -/
structure Underway (p : Profile) (n origin : Nat) (done solicited : List Nat) (now : Nat)
    (s : Solo DialScript) : Prop where
  begun : n * p.backoff ≤ origin
  past : origin ≤ now
  dials : s.dialTimes = dialed p (n + 1)
  sends : s.sendTimes = done ++ ticks p.interval origin now
  /-- As long as no other solicitation comes, the timetable goes on by ticks. -/
  law : ∀ limit, n * p.backoff :: timetable p.interval limit (n * p.backoff) solicited =
    done ++ ticks p.interval origin limit

/-- What it has done in either phase, and what it waits for, when nothing else is left to do. -/
inductive OnTime (p : Profile) (n : Nat) (solicited : List Nat) (now : Nat) (s : Solo DialScript) :
    Prop
  | connecting (early : now < n * p.backoff) (none : solicited = [])
      (fails : Fails (n - 1 - now / p.backoff) s.medium)
      (state : Dialing p .connecting (some ⟨.retry, (now / p.backoff + 1) * p.backoff⟩) []
        s.advertiser)
      (dials : s.dialTimes = dialed p (now / p.backoff + 1)) (sends : s.sendTimes = [])
  | active (origin : Nat) (done : List Nat)
      (state : Active p false (some ⟨.advertise, latest p.interval origin now + p.interval⟩)
        [receiveRoom] [] s.advertiser)
      (underway : Underway p n origin done solicited now s)

variable {p : Profile} {n : Nat} {solicited : List Nat} {s s' : Solo DialScript}

theorem dialed_succ (p : Profile) (n : Nat) : dialed p (n + 1) = dialed p n ++ [n * p.backoff] := by
  simp [dialed, List.range_succ]

theorem OnTime.mailbox (h : OnTime p n solicited now s) : s.advertiser.mailbox = [] := by
  cases h with
  | connecting _ _ _ state => exact state.mailbox
  | active _ _ state => exact state.mailbox

theorem drain_of_mailbox (h : s.advertiser.mailbox = []) (now : Nat) :
    Reactor.drain now s = s :=
  Reactor.drain_of_step?_eq_none (step?_of_mailbox_nil h now)

/-- A dial at time `n * p.backoff` succeeds, and the advertiser begins. -/
theorem onTime_of_opens (h : Drains (n * p.backoff) 1 1 s s')
    (ha : Active p false (some ⟨.advertise, n * p.backoff + p.interval⟩) [receiveRoom] []
      s'.advertiser) (hd : s.dialTimes = dialed p n) (hs : s.sendTimes = []) :
    OnTime p n [] (n * p.backoff) s' := by
  refine .active (n * p.backoff) [n * p.backoff] ?_
    { begun := Nat.le_refl _
      past := Nat.le_refl _
      dials := ?_
      sends := ?_
      law := fun limit => rfl }
  · rwa [latest_self]
  · rw [h.dials, hd, dialed_succ]
    rfl
  · rw [h.sends, hs, ticks_self]
    rfl

/-- A dial at time `j * p.backoff` fails. -/
theorem onTime_of_fails {j : Nat} (hj : j < n) (hb : 0 < p.backoff)
    (h : Drains (j * p.backoff) 1 0 s s') (hm : Fails (n - 1 - j) s'.medium)
    (ha : Dialing p .connecting (some ⟨.retry, j * p.backoff + p.backoff⟩) [] s'.advertiser)
    (hd : s.dialTimes = dialed p j) (hs : s.sendTimes = []) :
    OnTime p n [] (j * p.backoff) s' := by
  have hq : j * p.backoff / p.backoff = j := Nat.mul_div_cancel j hb
  refine .connecting (Nat.mul_lt_mul_of_pos_right hj hb) rfl ?_ ?_ ?_ ?_
  · rwa [hq]
  · rwa [hq, Nat.succ_mul]
  · rw [h.dials, hd, hq, dialed_succ]
    rfl
  · rw [h.sends, hs]
    rfl

theorem Dialing.ring {phase : Phase} {x : Alarm} {a : Advertiser}
    (h : Dialing p phase (some x) [] a) :
    Dialing p phase none [.alarm x.purpose false] a.ring := by
  rw [ring_eq h.alarm]
  exact { h with alarm := rfl, mailbox := by simp [h.mailbox] }

theorem Active.ring {sending : Bool} {x : Alarm} {waiting : List Nat} {a : Advertiser}
    (h : Active p sending (some x) waiting [] a) :
    Active p sending none waiting [.alarm x.purpose false] a.ring := by
  rw [ring_eq h.alarm]
  exact { h with alarm := rfl, mailbox := by simp [h.mailbox] }

section Alarms

variable (hb : 0 < p.backoff) (hi : 0 < p.interval)
include hb hi

/-- The next alarm lies ahead, and nothing happens before it goes off. -/
theorem OnTime.rests (h : OnTime p n solicited now s) :
    ∃ t, Reactor.nextAlarm? s = some t ∧ now < t ∧
      ∀ limit, now ≤ limit → limit < t → OnTime p n solicited limit s := by
  cases h with
  | connecting early none fails state dials sends =>
    have hn : now / p.backoff < n := (Nat.div_lt_iff_lt_mul hb).mpr early
    have hlt : now < (now / p.backoff + 1) * p.backoff := by
      rw [Nat.succ_mul]
      exact Nat.lt_div_mul_add hb
    refine ⟨_, congrArg (Option.map _) state.alarm, hlt, fun limit hl hlt => ?_⟩
    have hq : limit / p.backoff = now / p.backoff :=
      Nat.div_eq_of_lt_le (Nat.le_trans (Nat.div_mul_le_self now p.backoff) hl) hlt
    rw [← hq] at hn fails state dials
    exact .connecting ((Nat.div_lt_iff_lt_mul hb).mp hn) none fails state dials sends
  | active origin done state underway =>
    refine ⟨_, congrArg (Option.map _) state.alarm, lt_latest hi, fun limit hl hlt => ?_⟩
    have hq := elapsed_of_lt underway.past hl hlt
    have hsends := underway.sends
    rw [latest, ← hq] at state
    rw [ticks, ← hq] at hsends
    exact .active origin done state
      { underway with
        past := Nat.le_trans underway.past hl
        sends := hsends }

/-- When it goes off, all is as it should be at that time. -/
theorem OnTime.goesOff (h : OnTime p n solicited now s) {t : Nat}
    (ht : Reactor.nextAlarm? s = some t) :
    OnTime p n solicited t (Reactor.drain t (Reactor.ring t s)) := by
  cases h with
  | connecting early hnone fails state dials sends =>
    subst hnone
    obtain rfl : (now / p.backoff + 1) * p.backoff = t :=
      Option.some.inj ((congrArg (Option.map _) state.alarm).symm.trans ht)
    have hn : now / p.backoff + 1 ≤ n := (Nat.div_lt_iff_lt_mul hb).mpr early
    rw [Nat.sub_sub, Nat.add_comm 1] at fails
    generalize now / p.backoff + 1 = j at *
    let r := Reactor.ring (j * p.backoff) s
    have hring : Dialing p .connecting none [.alarm .retry false] r.advertiser := state.ring
    have hdial : r.advertiser.Dials (.alarm .retry false) := Or.inr ⟨rfl, hring.phase⟩
    have hdials : r.dialTimes = dialed p j := dials
    have hsends : r.sendTimes = [] := sends
    obtain hj | rfl := Nat.lt_or_eq_of_le hn
    · have hf : n - j = n - 1 - j + 1 := by omega
      obtain ⟨s', hd, hm, hs'⟩ := drain_fails (s := r) hring hdial (hf ▸ fails) (j * p.backoff)
      rw [hd.drain]
      exact onTime_of_fails hj hb hd hm hs' hdials hsends
    · obtain ⟨s', hd, hs'⟩ :=
        drain_opens (s := r) hring hdial (Nat.sub_self j ▸ fails) (j * p.backoff)
      rw [hd.drain]
      exact onTime_of_opens hd hs' hdials hsends
  | active origin done state underway =>
    obtain rfl : latest p.interval origin now + p.interval = t :=
      Option.some.inj ((congrArg (Option.map _) state.alarm).symm.trans ht)
    obtain ⟨s', hd, hs'⟩ := drain_ticks (s := Reactor.ring _ s) state.ring _
    rw [hd.drain]
    refine .active origin done ?_
      { underway with
        past := Nat.le_trans underway.past (Nat.le_of_lt (lt_latest hi))
        dials := ?_
        sends := ?_ }
    · rwa [latest_next hi]
    · rw [hd.dials, ← underway.dials]
      exact List.append_nil _
    · rw [hd.sends, ticks_next hi, ← List.append_assoc, ← underway.sends]
      rfl

/-- A run keeps to the schedule. -/
theorem onTime_runUntil (now rounds : Nat) (s : Solo DialScript)
    (h : OnTime p n solicited now (Reactor.drain now s)) (hl : now ≤ limit) :
    OnTime p n solicited limit (Reactor.runUntil limit now rounds s) := by
  fun_induction Reactor.runUntil limit now rounds s with
  | case1 now rounds s s' hnone =>
    obtain ⟨t, ht, -⟩ := h.rests hb hi
    cases hnone.symm.trans ht
  | case2 now rounds s s' t ht hlt =>
    obtain ⟨_, ht', -, hrest⟩ := h.rests hb hi
    obtain rfl := Option.some.inj (ht.symm.trans ht')
    exact hrest limit hl hlt
  | case3 now rounds s s' t ht hle hlt ih =>
    exact ih (h.goesOff hb hi ht) (Nat.le_of_not_lt hle)
  | case4 now s s' t ht hle hlt | case5 now s s' t ht hle hlt =>
    obtain ⟨_, ht', hlater, -⟩ := h.rests hb hi
    obtain rfl := Option.some.inj (ht.symm.trans ht')
    exact absurd hlater hlt

end Alarms

theorem mem_dialed (hb : 0 < p.backoff) {x : Nat} :
    x ∈ dialed p (now / p.backoff + 1) ↔ ∃ k, x = k * p.backoff ∧ x ≤ now := by
  simp only [dialed, List.mem_map, List.mem_range, Nat.lt_succ_iff, Nat.le_div_iff_mul_le hb]
  constructor
  · rintro ⟨k, hk, rfl⟩
    exact ⟨k, rfl, hk⟩
  · rintro ⟨k, rfl, hk⟩
    exact ⟨k, hk, rfl⟩

theorem pairwise_dialed (hb : 0 < p.backoff) (n : Nat) : (dialed p n).Pairwise (· < ·) :=
  List.pairwise_lt_range.map _ fun _ _ hjk => Nat.mul_lt_mul_of_pos_right hjk hb

theorem OnTime.dials (h : OnTime p n solicited now s) (hb : 0 < p.backoff) :
    s.dialTimes.Pairwise (· < ·) ∧
      ∀ x, x ∈ s.dialTimes ↔ ∃ k ≤ n, x = k * p.backoff ∧ x ≤ now := by
  cases h with
  | connecting early _ _ _ dials _ =>
    rw [dials]
    refine ⟨pairwise_dialed hb _, fun x => (mem_dialed hb).trans ⟨?_, ?_⟩⟩
    · rintro ⟨k, rfl, hk⟩
      have hlt : k < n := Nat.lt_of_mul_lt_mul_right (Nat.lt_of_le_of_lt hk early)
      exact ⟨k, Nat.le_of_lt hlt, rfl, hk⟩
    · rintro ⟨k, -, hx⟩
      exact ⟨k, hx⟩
  | active origin _ _ underway =>
    have hbegun := Nat.le_trans underway.begun underway.past
    rw [underway.dials]
    refine ⟨pairwise_dialed hb _, fun x => ?_⟩
    simp only [dialed, List.mem_map, List.mem_range, Nat.lt_succ_iff]
    constructor
    · rintro ⟨k, hk, rfl⟩
      have hle : k * p.backoff ≤ n * p.backoff := Nat.mul_le_mul_right _ hk
      exact ⟨k, hk, rfl, by omega⟩
    · rintro ⟨k, hk, rfl, -⟩
      exact ⟨k, hk, rfl⟩

theorem OnTime.phase (h : OnTime p n solicited now s) :
    s.advertiser.phase = if now < n * p.backoff then .connecting else .active := by
  cases h with
  | connecting early _ _ state => rw [state.phase, if_pos early]
  | active _ _ state underway =>
    rw [state.phase, if_neg (Nat.not_lt.mpr (Nat.le_trans underway.begun underway.past))]

theorem OnTime.sends (h : OnTime p n solicited now s) :
    s.sendTimes =
      if now < n * p.backoff then []
      else n * p.backoff :: timetable p.interval now (n * p.backoff) solicited := by
  cases h with
  | connecting early _ _ _ _ sends => rw [sends, if_pos early]
  | active _ _ _ underway =>
    have hbegun := Nat.le_trans underway.begun underway.past
    rw [underway.sends, if_neg (Nat.not_lt.mpr hbegun), underway.law]

/-- Without solicitations the advertisements are an interval apart. -/
theorem OnTime.unsolicited (h : OnTime p n [] now s) (hi : 0 < p.interval) :
    s.sendTimes.Pairwise (· < ·) ∧
      ∀ x, x ∈ s.sendTimes ↔ ∃ k, x = n * p.backoff + k * p.interval ∧ x ≤ now := by
  rw [h.sends]
  split
  · refine ⟨.nil, fun x => ?_⟩
    simp only [List.not_mem_nil, false_iff]
    rintro ⟨k, rfl, hle⟩
    omega
  · rename_i hle
    constructor
    · refine List.pairwise_cons.mpr ⟨fun x hx => ?_, pairwise_ticks hi _ _⟩
      obtain ⟨k, rfl, -⟩ := (mem_ticks hi).mp hx
      exact Nat.lt_add_of_pos_right (Nat.mul_pos k.succ_pos hi)
    · intro x
      rw [List.mem_cons, timetable, mem_ticks hi]
      constructor
      · rintro (rfl | ⟨k, rfl, hk⟩)
        · exact ⟨0, by simp, Nat.not_lt.mp hle⟩
        · exact ⟨k + 1, rfl, hk⟩
      · rintro ⟨k, rfl, hk⟩
        cases k with
        | zero => exact Or.inl (by simp)
        | succ k => exact Or.inr ⟨k, rfl, hk⟩

end RouterAdvert.Solo
