import RouterAdvert.Bench
import RouterAdvert.Proofs.Independence.Moves

/-! Taps do not influence each other. Two runs start alike, and what happens in the first happens in
the second as well; the second has more in it, but only for other interfaces. What can be seen of
the taps of an interface is the same in both after every move that they share. -/
namespace RouterAdvert

open Responder

/-- What can be seen of the taps of an interface: whether it is served and by which of its taps, the
state of each tap that it ever had, and all that was recorded about them, up to the numbers of their
connections. -/
structure View where
  served : Bool
  serving : Option TapId
  taps : Nat → Option Tap
  record : List (Stamp × Entry)

namespace Responder

variable {σ : Type}

def view (i : Int32) (r : Responder σ) : View where
  served := r.check i
  serving := r.get? i
  taps n := (r.taps.get? ⟨i, n⟩).map (·.unnumbered)
  record := r.journal.concerning i

theorem Alike.view {same : σ → σ → Prop} {i : Int32} {r r' : Responder σ}
    (h : Alike same i r r') : r.view i = r'.view i := by
  have hc : r.check i = r'.check i := by
    rw [check, check, Table.contains, Table.contains, h.registry]
  have ht : (fun n => (r.taps.get? ⟨i, n⟩).map (·.unnumbered)) =
      fun n => (r'.taps.get? ⟨i, n⟩).map (·.unnumbered) :=
    funext fun n => h.taps ⟨i, n⟩ rfl
  unfold Responder.view
  rw [hc, get?, get?, h.registry, ht, h.journal.rows]

end Responder

/-- A step of two runs: both make a move, or only the second makes one. -/
inductive PlanStep (σ : Type) where
  | shared (m : Move σ)
  | extra (m : Move σ)

namespace PlanStep

variable {σ : Type} [Host σ]

def isShared : PlanStep σ → Bool
  | shared _ => true
  | extra _ => false

def move : PlanStep σ → Move σ
  | shared m => m
  | extra m => m

/-- Which steps there can be: moves that both make happen alike, and the others are about other
interfaces. -/
def Fits (same : σ → σ → Prop) (i : Int32) : PlanStep σ → Prop
  | shared m => m.Keeps same
  | extra m => m.Aside i

/-- Whether no impossible route is met that is not met alike in both runs. -/
def Passes (s : Moment σ) : PlanStep σ → Prop
  | shared m => m.Passes s
  | extra m => (m.on s.now s.responder).halt ≠ some .failed

end PlanStep

abbrev Plan (σ : Type) := List (PlanStep σ)

namespace Plan

variable {σ : Type} [Host σ] {same : σ → σ → Prop} {i : Int32}

/-- The moves of the first run. -/
def first (p : Plan σ) : Plan σ := p.filter (·.isShared)

/-- Whether every step that is made before the program ends comes to its end. -/
def Ends : Plan σ → Moment σ → Prop
  | [], _ => True
  | x :: p, s => (s.responder.halt = none → x.move.Ends s) ∧ Ends p (x.move.apply s)

/-- Whether every step that is made before the program ends goes as it should. -/
def Passes : Plan σ → Moment σ → Prop
  | [], _ => True
  | x :: p, s => (s.responder.halt = none → x.Passes s) ∧ Passes p (x.move.apply s)

/-- Whether no interface that only the second run is to serve has an impossible route. -/
def Spares : Plan σ → Moment σ → Prop
  | [], _ => True
  | .shared m :: p, s => Spares p (m.apply s)
  | .extra m :: p, s =>
    (s.responder.halt = none → (m.on s.now s.responder).halt ≠ some .failed) ∧
      Spares p (m.apply s)

/-- What is seen of an interface after each move that both runs share. -/
def views (i : Int32) : Plan σ → Moment σ → List View
  | [], _ => []
  | .shared m :: p, s => (m.apply s).responder.view i :: views i p (m.apply s)
  | .extra m :: p, s => views i p (m.apply s)

/-- The moment at which nothing is served and nothing is watched yet. -/
def fresh (now : Nat) (timing : Timing) (selects : Bytes → Bool) (journal : Journal) (host : σ) :
    Moment σ where
  now := now
  responder := { host := host, timing := timing, selects := selects, journal := journal }

theorem working_fresh (now : Nat) (timing : Timing) (selects : Bytes → Bool) (journal : Journal)
    (host : σ) : Working now (fresh now timing selects journal host).responder := by
  have h : Course.Reachable
      { now := now, responder := (fresh now timing selects journal host).responder } :=
    (Course.Reachable.new now host timing selects).step (.journal journal)
  have ho := h.attained.orderly
  exact ⟨ho, h.watched, ho.tended.imp fun id t ht => by cases ht⟩

/-- If all waits take some time, every plan comes to its end. -/
theorem ends_of_paced {s : Moment σ} (p : Plan σ)
    (h : s.responder.halt = none → Working s.now s.responder ∧ Paced s.responder) : p.Ends s := by
  induction p generalizing s with
  | nil => trivial
  | cons x p ih =>
    refine ⟨fun hh => ((h hh).2.move (h hh).1 x.move).1, ih ?_⟩
    cases hh : s.responder.halt with
    | some halt => simp [Move.apply, hh]
    | none =>
      obtain ⟨hw, hp⟩ := h hh
      obtain ⟨he, hp⟩ := hp.move hw x.move
      simp only [Move.apply, hh, Option.isSome_none, Bool.false_eq_true, if_false]
      exact fun hg => ⟨hw.move he hg, hp⟩

theorem spares_first (p : Plan σ) (s : Moment σ) : p.first.Spares s := by
  induction p generalizing s with
  | nil => trivial
  | cons x p ih =>
    cases x with
    | shared m => exact ih (m.apply s)
    | extra m => exact ih s

/-- Without announcements, a plan goes as it should if no interface is added to it that has an
impossible route. -/
theorem Spares.passes {p : Plan σ} {s : Moment σ} (hx : p.Spares s)
    (hu : ∀ x ∈ p, x.move.Unannounced) (he : p.Ends s)
    (h : s.responder.halt = none → Working s.now s.responder ∧ s.responder.watch.mailbox = []) :
    p.Passes s := by
  induction p generalizing s with
  | nil => trivial
  | cons x p ih =>
    obtain ⟨hux, hup⟩ := List.forall_mem_cons.mp hu
    have hnext : (x.move.apply s).responder.halt = none →
        Working (x.move.apply s).now (x.move.apply s).responder ∧
          (x.move.apply s).responder.watch.mailbox = [] := by
      cases hh : s.responder.halt with
      | some halt => simp [Move.apply, hh]
      | none =>
        obtain ⟨hw, hm⟩ := h hh
        simp only [Move.apply, hh, Option.isSome_none, Bool.false_eq_true, if_false]
        exact fun hg => ⟨hw.move (he.1 hh) hg, (hux.on hw hm).1⟩
    cases x with
    | shared m =>
      refine ⟨fun hh => ?_, ih hx hup he.2 hnext⟩
      obtain ⟨hw, hm⟩ := h hh
      exact (hux.on hw hm).2 hh
    | extra m => exact ⟨hx.1, ih hx.2 hup he.2 hnext⟩

structure Abreast (same : σ → σ → Prop) (i : Int32) (s s' : Moment σ) : Prop where
  now : s.now = s'.now
  alike : Alike same i s.responder s'.responder
  working : s.responder.halt = none → Working s.now s.responder
  working' : s'.responder.halt = none → Working s'.now s'.responder

namespace Abreast

variable {s s' : Moment σ} {m : Move σ}

theorem shared (S : Steady same) (h : Abreast same i s s') (hk : m.Keeps same)
    (he : s.responder.halt = none → m.Ends s) (he' : s'.responder.halt = none → m.Ends s')
    (hn : s.responder.halt = none → m.Passes s)
    (hn' : s'.responder.halt = none → m.Passes s') : Abreast same i (m.apply s) (m.apply s') := by
  obtain ⟨now, r⟩ := s
  obtain ⟨now', r'⟩ := s'
  obtain rfl : now = now' := h.now
  cases hh : r.halt with
  | some x =>
    have hh' : r'.halt = some x := h.alike.halt ▸ hh
    simpa [Move.apply, hh, hh'] using h
  | none =>
    have hh' : r'.halt = none := h.alike.halt ▸ hh
    have hw := h.working hh
    have hw' := h.working' hh'
    have hm := m.alike S h.alike hw hw' hk (he hh) (he' hh') (hn hh) (hn' hh')
    simp only [Move.apply, hh, hh', Option.isSome_none, Bool.false_eq_true, if_false]
    exact ⟨rfl, hm, hw.move (he hh), hw'.move (he' hh')⟩

theorem extra (S : Steady same) (h : Abreast same i s s') (ha : m.Aside i)
    (hn : s'.responder.halt = none → (m.on s'.now s'.responder).halt ≠ some .failed) :
    Abreast same i s (m.apply s') := by
  cases hh : s'.responder.halt with
  | some x => simpa [Move.apply, hh] using h
  | none =>
    have hw := h.working' hh
    obtain ⟨hm, hd⟩ := Move.alike_left S (h.alike.symm S) hw.orderly ha (hn hh)
    simp only [Move.apply, hh, Option.isSome_none, Bool.false_eq_true, if_false, hd, Nat.add_zero]
    refine ⟨h.now, hm.symm S, h.working, fun hg => ?_⟩
    have hwork := hw.move (Move.ends_of_aside ha) hg
    rwa [hd] at hwork

end Abreast

/-- From moments that are abreast, the same is seen after every move that both make. -/
theorem views_of_abreast (S : Steady same) {p : Plan σ} {s s' : Moment σ}
    (h : Abreast same i s s') (hf : ∀ x ∈ p, x.Fits same i) (he : p.first.Ends s) (he' : p.Ends s')
    (hn : p.first.Passes s) (hn' : p.Passes s') : p.first.views i s = p.views i s' := by
  induction p generalizing s s' with
  | nil => rfl
  | cons x p ih =>
    obtain ⟨hx, hrest⟩ := List.forall_mem_cons.mp hf
    cases x with
    | shared m =>
      have hm := h.shared S hx he.1 he'.1 hn.1 hn'.1
      change (m.apply s).responder.view i :: views i (first p) (m.apply s) =
        (m.apply s').responder.view i :: views i p (m.apply s')
      rw [hm.alike.view, ih hm hrest he.2 he'.2 hn.2 hn'.2]
    | extra m => exact ih (h.extra S hx hn'.1) hrest he he'.2 hn hn'.2

/-- Taps do not influence each other. After each move that two runs share, the same is seen of an
interface, whatever else happens to other interfaces in the second run. Without delays, alarms can
go off at one time for ever; otherwise every run comes to its end. An announced link may be served
in one run only, and then its routes have to be possible. -/
theorem views_first (S : Steady same) {host host' : σ} (hs : same host host') {p : Plan σ}
    (hf : ∀ x ∈ p, x.Fits same i) (now : Nat) (timing : Timing) (selects : Bytes → Bool)
    (journal : Journal)
    (he : 0 < timing.retryBackoff ∧ 0 < timing.advertInterval ∨
      p.first.Ends (fresh now timing selects journal host) ∧
        p.Ends (fresh now timing selects journal host'))
    (hn : (∀ x ∈ p, x.move.Unannounced) ∧ p.Spares (fresh now timing selects journal host') ∨
      p.first.Passes (fresh now timing selects journal host) ∧
        p.Passes (fresh now timing selects journal host')) :
    p.first.views i (fresh now timing selects journal host) =
      p.views i (fresh now timing selects journal host') := by
  have hw (host : σ) := working_fresh now timing selects journal host
  have habreast : Abreast same i (fresh now timing selects journal host)
      (fresh now timing selects journal host') := by
    refine ⟨rfl, ?_, fun _ => hw host, fun _ => hw host'⟩
    exact ⟨hs, rfl, rfl, ⟨rfl, rfl, rfl⟩, fun _ _ => rfl, rfl, rfl, rfl, rfl, rfl, rfl⟩
  have hends : p.first.Ends (fresh now timing selects journal host) ∧
      p.Ends (fresh now timing selects journal host') := by
    refine he.elim (fun ht => ?_) id
    have hpaced (host : σ) : Paced (fresh now timing selects journal host).responder :=
      ⟨ht, fun _ _ h => (by cases h), fun _ _ h => (by cases h)⟩
    exact ⟨ends_of_paced _ fun _ => ⟨hw host, hpaced host⟩,
      ends_of_paced _ fun _ => ⟨hw host', hpaced host'⟩⟩
  have hpasses : p.first.Passes (fresh now timing selects journal host) ∧
      p.Passes (fresh now timing selects journal host') := by
    refine hn.elim (fun ⟨hu, hx⟩ => ?_) id
    have hfirst : ∀ x ∈ p.first, x.move.Unannounced := fun x hx => hu x (List.mem_filter.mp hx).1
    exact ⟨(spares_first p _).passes hfirst hends.1 fun _ => ⟨hw host, rfl⟩,
      hx.passes hu hends.2 fun _ => ⟨hw host', rfl⟩⟩
  exact views_of_abreast S habreast hf hends.1 hends.2 hpasses.1 hpasses.2

end Plan

namespace Bench

/-- Apart from what it has dialed. -/
def undialed (b : Bench) : Bench := { b with script.dialed := 0 }

/-- Benches that differ in nothing but what they have dialed, with no dials that fail by their
number. -/
structure Same (b b' : Bench) : Prop where
  left : b.script.failing = 0
  right : b'.script.failing = 0
  undialed : b.undialed = b'.undialed

/-- Both scripts say the same, whatever has been dialed. -/
theorem Same.script {b b' : Bench} (h : Same b b') :
    b'.script = { b.script with dialed := b'.script.dialed } := by
  have hs : { b.script with dialed := 0 } = { b'.script with dialed := 0 } :=
    congrArg (fun b => b.script) h.undialed
  exact congrArg (fun s : DialScript => { s with dialed := b'.script.dialed }) hs.symm

theorem Same.fails {b b' : Bench} (h : Same b b') : b.script.fails = b'.script.fails := by
  rw [h.script]
  rfl

theorem steady_same : Steady Same where
  symm h := ⟨h.right, h.left, h.undialed.symm⟩
  trans h h' := ⟨h.left, h'.right, h.undialed.trans h'.undialed⟩
  lookUp h _ := h
  listRoutes h := h
  dial := by
    intro b b' h l
    have hd : b.script.afterDial.failing = 0 ∧
        ({ b with script := b.script.afterDial } : Bench).undialed = b.undialed := by
      unfold DialScript.afterDial undialed
      split <;> simp [h.left]
    exact ⟨hd.1, h.right, hd.2.trans h.undialed⟩
  call h _ _ _ := h
  link := by
    intro b b' h i
    have hl : b.links = b'.links := congrArg (fun b => b.links) h.undialed
    change b.link i = b'.link i
    unfold link
    rw [hl]
  routes := by
    intro b b' h
    have hr : b.routes = b'.routes := congrArg (fun b => b.routes) h.undialed
    have he : b.routesErrno = b'.routesErrno := congrArg (fun b => b.routesErrno) h.undialed
    change b.allRoutes = b'.allRoutes
    unfold allRoutes
    rw [hr, he]
  conditions := by
    intro b b' h l
    have hk (b : Bench) : (Medium.conditions l b).unnumbered =
        { dial := b.script.outcome.map (·.unnumbered)
          filter := ErrorCode.ofErrno? b.script.filterErrno
          join := ErrorCode.ofErrno? b.script.joinErrno } := rfl
    have ho : b'.script.outcome.map (·.unnumbered) = b.script.outcome.map (·.unnumbered) := by
      rw [DialScript.outcome, DialScript.outcome, ← h.fails, h.script]
      split <;> rfl
    have hf : b'.script.filterErrno = b.script.filterErrno := by rw [h.script]
    have hj : b'.script.joinErrno = b.script.joinErrno := by rw [h.script]
    rw [hk, hk, ho, hf, hj]
  dialed := by
    intro b b' h l
    change [Entry.unnumbered (.dial l.index (if b.script.fails then none else _))] =
      [Entry.unnumbered (.dial l.index (if b'.script.fails then none else _))]
    rw [h.fails]
    split <;> rfl
  called := by
    intro b b' h c c' hc x fault
    rfl
  watchErrno := by
    intro b b' h x
    have hopen : b.openErrno = b'.openErrno := congrArg (fun b => b.openErrno) h.undialed
    have hbind : b.bindErrno = b'.bindErrno := congrArg (fun b => b.bindErrno) h.undialed
    have hsend : b.sendErrno = b'.sendErrno := congrArg (fun b => b.sendErrno) h.undialed
    cases x <;> assumption
  announceAll _ _ := rfl

end Bench

namespace Plan

/-- Interface 6 comes before interface 5 and goes again. -/
def sample : Plan Bench :=
  [.extra (.add 6), .shared (.add 5), .extra (.close 6), .shared (.run 5000)]

def sampleHost : Bench :=
  { Bench.ofLinks [{ index := 5 }, { index := 6 }] {} with
    routes := [{ interface := 5, table := 254 }, { interface := 6, table := 254 }] }

/-- What is seen of interface 5 is the same with and without interface 6. -/
theorem views_first_of_sample :
    Bench.Same sampleHost sampleHost ∧ (∀ x ∈ sample, x.Fits Bench.Same 5) ∧
      (∀ x ∈ sample, x.move.Unannounced) ∧
      sample.Spares (fresh 0 {} (fun _ => true) {} sampleHost) ∧
      sample.first.views 5 (fresh 0 {} (fun _ => true) {} sampleHost) =
        sample.views 5 (fresh 0 {} (fun _ => true) {} sampleHost) := by
  have hs : Bench.Same sampleHost sampleHost := ⟨rfl, rfl, rfl⟩
  have hf : ∀ x ∈ sample, x.Fits Bench.Same 5 := by
    simp [sample, PlanStep.Fits, Move.Keeps, Move.Aside]
  have hu : ∀ x ∈ sample, x.move.Unannounced := by
    simp [sample, PlanStep.move, Move.Unannounced]
  have hx : sample.Spares (fresh 0 {} (fun _ => true) {} sampleHost) := by
    refine ⟨fun _ => ?_, fun _ => ?_, trivial⟩
    · decide +kernel
    · decide +kernel
  exact ⟨hs, hf, hu, hx, views_first Bench.steady_same hs hf 0 {} (fun _ => true) {}
    (Or.inl (by decide)) (Or.inl ⟨hu, hx⟩)⟩

end Plan

end RouterAdvert
