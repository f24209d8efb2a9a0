import RouterAdvert.Bench
import RouterAdvert.Proofs.Responder.Astray
import RouterAdvert.Proofs.Responder.Leaving

/-! How a responder comes to its end. Once it is told to stop, or all taps are closed and no other
one is made, the turns that are left bring every advertiser to its end: nobody is in service,
nothing is pending, no alarm is set, and each starter has been told once. -/
namespace RouterAdvert

open Responder

namespace Course

variable {σ : Type} [Host σ]

/-- Takes up to `n` turns, without the clock. -/
def turns : Nat → Course σ → Course σ
  | 0, c => c
  | n + 1, c =>
    match c.responder.step? c.now with
    | none => c
    | some r => turns n (c.turned r)

/-- Takes turns until nothing is queued, without the clock. -/
def drain (c : Course σ) : Course σ := c.turns c.responder.work

theorem turns_spec (n : Nat) {b c : Course σ} (hl : Later b c) :
    (c.turns n).now = c.now ∧ (c.turns n).responder = Reactor.steps c.now n c.responder ∧
      Later b (c.turns n) := by
  induction n generalizing c with
  | zero => exact ⟨rfl, rfl, hl⟩
  | succ n ih =>
    cases hr : c.responder.step? c.now with
    | none =>
      have hc : c.turns (n + 1) = c := by simp [turns, hr]
      rw [hc]
      exact ⟨rfl, (Reactor.steps_of_step?_eq_none hr _).symm, hl⟩
    | some r =>
      have hc : c.turns (n + 1) = (c.turned r).turns n := by simp [turns, hr]
      have hs : Reactor.steps c.now (n + 1) c.responder = Reactor.steps c.now n r := by
        simp only [Reactor.steps]
        rw [show Reactor.step? c.now c.responder = some r from hr]
      rw [hc, hs]
      exact ih (hl.step (.turn hr))

/-- Nothing is left to be done, now or later, and each tap that was ever made is closed and has told
its starter of that, once and last of all. -/
structure Over (c : Course σ) : Prop where
  schedule : c.responder.schedule = []
  registry : c.responder.size = 0
  alarm : c.responder.nextAlarm? = none
  taps : ∀ id t, c.responder.taps.get? id = some t →
    t.phase = .closed ∧ t.advertiser.mailbox = [] ∧ t.advertiser.alarm = none ∧
      (∀ x, t.advertiser.connection = some x → x.IsShut) ∧
      ∃ work code, actsOf id c.acts = work ++ [.exit .deregister code] ∧
        ∀ e ∈ work, e.isExit = false

/-- When an advertiser is closed, nothing is pending on its connection, and its starter was told
once, last of all. -/
theorem Lives.told {now : Nat} {acts : List (TapId × Advertiser.Effect)} {id : TapId}
    {a : Advertiser} (h : Lives now acts id a) (hc : a.phase = .closed) :
    (∀ x, a.connection = some x → x.IsShut) ∧
      ∃ work code, actsOf id acts = work ++ [.exit .deregister code] ∧
        ∀ e ∈ work, e.isExit = false := by
  obtain ⟨l, hl, -, rfl, hacts, hfirst⟩ := h
  obtain ⟨x, code, work, hx, -, hw, hlast⟩ := hl.ending.gone hc
  obtain rfl : ExitHandler.deregister = x := by
    rw [Advertiser.Life.firstStart?, hx] at hfirst
    exact (Option.some.inj hfirst).symm
  refine ⟨hl.shut hc, work ++ List.replicate l.connections (.call .close none), code,
    hacts.symm.trans hw, fun e he => ?_⟩
  rcases List.mem_append.mp he with he | he
  · cases hx : e.isExit with
    | false => rfl
    | true => exact (Advertiser.Effect.isLast_of_isExit hx).symm.trans (hlast e he)
  · obtain rfl := List.eq_of_mem_replicate he
    rfl

variable {c : Course σ}

theorem Reachable.over (h : Reachable c) (hq : c.responder.step? c.now = none)
    (hh : c.responder.halt = none) (hz : c.responder.size = 0) : Over c := by
  obtain ⟨hknown, hlives⟩ := h.lives
  have ho := hknown.orderly
  have hs : c.responder.schedule = [] := schedule_of_step?_eq_none hq hh
  have hserved (id : TapId) : ¬c.responder.InService id := fun hi => by
    have hlt := Table.size_erase_lt (Option.isSome_of_eq_some hi)
    have hz : c.responder.registry.size = 0 := hz
    omega
  have hmail (id : TapId) (t : Tap) (ht : c.responder.taps.get? id = some t) :
      t.advertiser.mailbox = [] := ho.tended.mailbox_eq_nil hs ht
  have hclosed (id : TapId) (t : Tap) (ht : c.responder.taps.get? id = some t) :
      t.phase = .closed := by
    have hrest := ((ho.tended.taps id t ht).at_rest (hmail id t ht)).1
    exact Decidable.byContradiction fun hn => hserved id (hrest.mp hn)
  have halarm (id : TapId) (t : Tap) (ht : c.responder.taps.get? id = some t) :
      t.advertiser.alarm = none :=
    (ho.tended.taps id t ht).sound.alarm_eq_none (Or.inr (hclosed id t ht))
  refine ⟨hs, hz, ?_, fun id t ht => ?_⟩
  · have hnone : c.responder.taps.values.filterMap
        (fun t => t.advertiser.alarm.map (·.expiry)) = [] := by
      refine List.filterMap_eq_nil_iff.mpr fun t ht => ?_
      obtain ⟨id, hid⟩ := Table.exists_get?_of_mem_values ht
      rw [halarm id t hid]
      rfl
    simp [nextAlarm?, hnone]
  · exact ⟨hclosed id t ht, hmail id t ht, halarm id t ht,
      (hlives.taps id t ht).told (hclosed id t ht)⟩

/-- Draining a course is draining its responder, and comes to an end. -/
theorem Reachable.drain (h : Reachable c) :
    c.drain.now = c.now ∧ c.drain.responder = Reactor.drain c.now c.responder ∧
      Reachable c.drain ∧ c.drain.responder.step? c.now = none := by
  obtain ⟨hn, hr, hl⟩ := turns_spec c.responder.work (.refl : Later c c)
  have hr : c.drain.responder = Reactor.drain c.now c.responder := hr
  have hstep (r r' : Responder σ) (hr : Responder.Attained c.now r ∧ Watched r)
      (hs : r.step? c.now = some r') :
      (Responder.Attained c.now r' ∧ Watched r') ∧ r'.work < r.work := by
    obtain ⟨hw, hlt⟩ := hr.2.step? hr.1.orderly hs
    exact ⟨⟨hr.1.step? hs, hw⟩, hlt⟩
  refine ⟨hn, hr, h.later hl, ?_⟩
  rw [hr]
  exact Reactor.step?_drain_eq_none hstep ⟨h.attained, h.watched⟩

/-- What every turn keeps holds when all is handled. -/
theorem Reachable.drain_induction {P : Responder σ → Prop} (h : Reachable c)
    (hstep : ∀ r r', Orderly r → Watched r → r.step? c.now = some r' → P r → P r')
    (hP : P c.responder) : P c.drain.responder := by
  rw [h.drain.2.1]
  refine (Reactor.steps_induction (P := fun r => (Responder.Attained c.now r ∧ Watched r) ∧ P r)
    (fun r r' hr hs => ?_) _ ⟨⟨h.attained, h.watched⟩, hP⟩).2
  have ho := hr.1.1.orderly
  exact ⟨⟨hr.1.1.step? hs, (hr.1.2.step? ho hs).1⟩, hstep r r' ho hr.1.2 hs hr.2⟩

/-- When the program is told to stop, or all taps are closed and none is made after that, the queue
becomes empty without the clock, and then nothing is left to be done. The program can end by itself
before the shutdown comes to its turn: when the watch fails, or a route is impossible. And it does
not come back from a datagram, if the watch meets one that ends in a message without its padding. -/
theorem drains (h : Reachable c) :
    (∃ d, d = (c.become c.responder.shutdown).drain ∧
      d.now = c.now ∧ d.responder = Reactor.drain c.now c.responder.shutdown ∧
      d.responder.step? c.now = none ∧
      (d.responder.halt = none ∧ Over d ∧ d.responder.watch.waiting = 0 ∧
          d.responder.watch.mailbox = [] ∨
        d.responder.halt ≠ none ∧ .shutdown ∈ d.responder.watch.mailbox) ∧
      (¬Adrift c.responder → Adrift d.responder →
        ∃ k, MeetsUnpadded (Reactor.steps c.now k c.responder.shutdown)) ∧
      (c.responder.halt = none → (∀ e ∈ c.responder.watch.mailbox, e = .shutdown) →
        d.responder.halt = none)) ∧
    ∃ d, d = (c.become c.responder.closeAll).drain ∧
      d.now = c.now ∧ d.responder = Reactor.drain c.now c.responder.closeAll ∧
      d.responder.step? c.now = none ∧
      (¬Adrift c.responder → Adrift d.responder →
        ∃ k, MeetsUnpadded (Reactor.steps c.now k c.responder.closeAll)) ∧
      (d.responder.halt = none → d.responder.taps.size = c.responder.taps.size → Over d) ∧
      (c.responder.halt = none → c.responder.watch.mailbox = [] → Over d) := by
  constructor
  · have hs : Reachable (c.become c.responder.shutdown) := h.step .shutdown
    obtain ⟨hn, hr, hd, hq⟩ := hs.drain
    have hleaving : Leaving (fun _ => True) (c.become c.responder.shutdown).drain.responder :=
      hs.drain_induction (fun _ _ ho hw hr hl => hl.step? ho hw hr) (.shutdown fun _ _ => trivial)
    refine ⟨_, rfl, hn, hr, hq, ?_, fun hh ha => ?_, fun hh hm => ?_⟩
    · rw [← hn] at hq
      by_cases hh : (c.become c.responder.shutdown).drain.responder.halt = none
      · have hm := hd.watched.mailbox_eq_nil (schedule_of_step?_eq_none hq hh)
        cases hleaving with
        | asked hm' => simp [hm] at hm'
        | stopped hst => exact Or.inl ⟨hh, hd.over hq hh hst.empty, hst.waiting, hm⟩
      · cases hleaving with
        | asked hm => exact Or.inr ⟨hh, by simp [hm]⟩
        | stopped hst => exact absurd hst.halt hh
    · rw [hr] at ha
      exact exists_meetsUnpadded _ hs.attained hs.watched hh ha
    · exact (hs.drain_induction
        (fun _ _ ho hw hr hl => ⟨hl.1.step? ho hw hr, hl.1.halt_eq_none ho hw hr⟩)
        (P := fun r => Leaving (· = .shutdown) r ∧ r.halt = none) ⟨.shutdown hm, hh⟩).2
  · have hs : Reachable (c.become c.responder.closeAll) := h.step .closeAll
    obtain ⟨hn, hr, hd, hq⟩ := hs.drain
    have hretired : Retired c.responder.taps.size (c.become c.responder.closeAll).drain.responder :=
      hs.drain_induction (fun _ _ ho _ hr ht => ht.step? ho hr) (.closeAll c.responder)
    have hover (hh : (c.become c.responder.closeAll).drain.responder.halt = none)
        (ht : (c.become c.responder.closeAll).drain.responder.taps.size = c.responder.taps.size) :
        Over (c.become c.responder.closeAll).drain :=
      hd.over (by rwa [hn]) hh (hretired.empty ht)
    obtain ⟨hwatch, hhalt⟩ := closeAll_watch c.responder
    refine ⟨_, rfl, hn, hr, hq, fun hh ha => ?_, hover, fun hh hm => ?_⟩
    · rw [hr] at ha
      have hcourse : ¬Adrift c.responder.closeAll := fun hx => hh (adrift_of_halt hx hhalt)
      exact exists_meetsUnpadded _ hs.attained hs.watched hcourse ha
    obtain ⟨-, hh, ht⟩ := hs.drain_induction
      (P := fun r => r.watch.mailbox = [] ∧ r.halt = none ∧
        r.taps.size = c.responder.taps.size)
      (fun r r' ho hw hr hi => by
        obtain ⟨hw', hh', ht'⟩ := step?_of_idle ho hw hi.1 hr
        exact ⟨hw' ▸ hi.1, hh'.trans hi.2.1, ht'.trans hi.2.2⟩)
      ⟨hwatch ▸ hm, hhalt.trans hh, size_closeAll c.responder⟩
    exact hover hh ht

/-- A tap that advertises comes to its end when the program is told to stop. -/
theorem drains_with_one_tap :
    ∃ c : Course Bench, Reachable c ∧ c.responder.size = 1 ∧
      Over (c.become c.responder.shutdown).drain := by
  have start := Reachable.new (σ := Bench) 0
    { Bench.addLink { index := 5 } {} with routes := [{ interface := 5, table := 254 }] } {}
    fun _ => true
  have stops (c : Course Bench) (h : Reachable c) (hs : c.responder.size = 1)
      (hh : c.responder.halt = none) (hm : c.responder.watch.mailbox.isEmpty = true) :
      ∃ c : Course Bench, Reachable c ∧ c.responder.size = 1 ∧
        Over (c.become c.responder.shutdown).drain := by
    obtain ⟨⟨d, hd, -, -, -, hover, -, hhalt⟩, -⟩ := drains h
    have hnone : d.responder.halt = none := hhalt hh (by simp [List.isEmpty_iff.mp hm])
    rcases hover with ⟨-, hover, -⟩ | ⟨hn, -⟩
    · exact ⟨c, h, hs, hd ▸ hover⟩
    · exact absurd hnone hn
  exact stops _ (start.step (.add 5)).drain.2.2.1 (by decide +kernel) (by decide +kernel)
    (by decide +kernel)

/-- A failure of the watch that comes to its turn before the shutdown ends the program while a tap
is still in service. -/
theorem ends_with_tap_in_service :
    ∃ c : Course Bench, Reachable c ∧ c.responder.halt = none ∧
      ∃ d, d = (c.become c.responder.shutdown).drain ∧
        d.responder.halt.isSome = true ∧ d.responder.size = 1 ∧ ¬Over d := by
  have start := (Reachable.new (σ := Bench) 0
    { Bench.addLink { index := 5 } {} with routes := [{ interface := 5, table := 254 }] } {}
    fun _ => true).step .startWatch
  have fails (c : Course Bench) (h : Reachable c) (hh : c.responder.halt.isNone = true)
      (hd : (c.become c.responder.shutdown).drain.responder.halt.isSome = true)
      (hs : (c.become c.responder.shutdown).drain.responder.size = 1) :
      ∃ c : Course Bench, Reachable c ∧ c.responder.halt = none ∧
        ∃ d, d = (c.become c.responder.shutdown).drain ∧
          d.responder.halt.isSome = true ∧ d.responder.size = 1 ∧ ¬Over d := by
    refine ⟨c, h, Option.isNone_iff_eq_none.mp hh, _, rfl, hd, hs, fun ho => ?_⟩
    rw [ho.registry] at hs
    cases hs
  have served := (start.step (.add 5)).drain.2.2.1
  exact fails _ (served.step (.arrive (.error (.system 12)))) (by decide +kernel)
    (by decide +kernel) (by decide +kernel)

end Course

end RouterAdvert
