import RouterAdvert.Proofs.Responder.Listening

/-! How the watch keeps listening. From its start until it is told to stop, or the program ends, one
receive is outstanding between events: it is issued with each request for links and after each
datagram. Links are asked for at the start and after each overrun, in numbered requests. Once the
watch has been told to stop, what is still queued for it comes to nothing. -/
namespace RouterAdvert

open Responder LinkWatch Netlink

/-- The event that the watch handles in the next turn, if that is its own. -/
def Responder.watchEvent? {σ : Type} (r : Responder σ) : Option Event :=
  match r.schedule with
  | .watch :: _ => r.watch.mailbox.head?
  | _ => none

/-- A responder at some time, whether its watch was started, and the events that the watch has
handled, oldest first. -/
structure Vigil (σ : Type) where
  now : Nat
  responder : Responder σ
  started : Bool := false
  handled : List Event := []

namespace Vigil

variable {σ : Type} {P : σ → Prop} {v w : Vigil σ}

/-- The events handled before the watch was told to stop. -/
def heard (v : Vigil σ) : List Event := Event.untilShutdown v.handled

/-- The requests for links made so far, with the error numbers that they ended with. -/
def requests (v : Vigil σ) : List (Bytes × Int32) := v.responder.journal.requests

/-- Puts another responder in its place, with the same past. -/
def become (r : Responder σ) (v : Vigil σ) : Vigil σ := { v with responder := r }

/-- The events of the watch so far: those that it has handled, and those that wait. -/
def events (v : Vigil σ) : List Event := v.handled ++ v.responder.watch.mailbox

/-- Nothing has happened that ends the program: no request for links has failed, no receive has
ended with an error but an overrun, and the start did not come after the end. -/
structure Clean (v : Vigil σ) : Prop where
  requests : ∀ x ∈ v.requests, x.2 = 0
  errors : ∀ e, .received (.error e) ∈ v.heard → e = .system Errno.noBufferSpace
  begun : .begin ∈ v.handled → .begin ∈ v.heard

/-- What the watch has to show for the events that it has handled. The last facts hold as long as
the program goes on: an event that ends it leaves its receive or its number out of account. -/
structure Books (P : σ → Prop) (v : Vigil σ) : Prop where
  host : P v.responder.host
  stopped : v.responder.watch.stopped = true ↔ .shutdown ∈ v.handled
  starts : v.events.countP (·.isBegin) = if v.started then 1 else 0
  isOpen : v.started = true → .shutdown ∉ v.handled → v.responder.watch.isOpen = true
  shut : .shutdown ∈ v.handled → v.responder.watch.isOpen = false ∧ v.responder.watch.waiting = 0
  requests : v.requests.map (·.1) = Request.dumps (v.heard.countP (·.asks))
  before : .begin ∉ v.heard → v.heard.countP (·.asks) = 0
  clean : v.responder.halt ≠ some (.exited 1) → Clean v
  outstanding : v.responder.halt = none → .shutdown ∉ v.handled →
    v.responder.watch.outstanding = v.handled.countP (·.isBegin)
  sequence : v.responder.halt = none →
    v.responder.watch.sequence = (v.heard.countP (·.asks) + 1).toUInt32

theorem Books.new {host : σ} (hp : P host) (now : Nat) (timing : Timing)
    (selects : Bytes → Bool) :
    Books P
      { now := now, responder := { host := host, timing := timing, selects := selects } } where
  host := hp
  stopped := by simp
  starts := rfl
  isOpen := by simp
  shut := by simp
  requests := rfl
  before _ := rfl
  clean _ := ⟨by simp [Vigil.requests, Journal.requests], by simp [heard, Event.untilShutdown],
    by simp⟩
  outstanding _ _ := rfl
  sequence _ := rfl

/-- As long as the watch handles nothing, only a start can make a difference. -/
theorem Books.keep (h : Books P v) (hv : v.responder.halt = none)
    (hhandled : w.handled = v.handled) (hhost : P w.responder.host) (hr : w.requests = v.requests)
    (hsequence : w.responder.watch.sequence = v.responder.watch.sequence)
    (hstopped : w.responder.watch.stopped = v.responder.watch.stopped)
    (hout : w.responder.watch.outstanding = v.responder.watch.outstanding)
    (hstarts : w.events.countP (·.isBegin) = if w.started then 1 else 0)
    (hopen : w.started = true → .shutdown ∉ v.handled → w.responder.watch.isOpen = true)
    (hshut : .shutdown ∈ v.handled →
      w.responder.watch.isOpen = false ∧ w.responder.watch.waiting = 0) : Books P w := by
  have hheard : w.heard = v.heard := congrArg Event.untilShutdown hhandled
  have hclean := h.clean (by simp [hv])
  exact
    { host := hhost
      stopped := by
        rw [hstopped, hhandled]
        exact h.stopped
      starts := hstarts
      isOpen := hhandled ▸ hopen
      shut := hhandled ▸ hshut
      requests := by
        rw [hr, hheard]
        exact h.requests
      before := hheard ▸ h.before
      clean := fun _ => ⟨hr ▸ hclean.requests, hheard ▸ hclean.errors, by
        rw [hhandled, hheard]
        exact hclean.begun⟩
      outstanding := fun _ hn => by
        rw [hout, hhandled]
        exact h.outstanding hv (hhandled ▸ hn)
      sequence := fun _ => by
        rw [hsequence, hheard]
        exact h.sequence hv }

/-- What leaves the watch alone leaves the books alone. -/
theorem Books.undisturbed (h : Books P v) (hv : v.responder.halt = none)
    (hr : Undisturbed P v.responder w.responder) (hs : w.started = v.started)
    (hhandled : w.handled = v.handled) : Books P w := by
  have hw := hr.watch
  refine h.keep hv hhandled (hr.host h.host) (hr.requests h.host) (congrArg _ hw) (congrArg _ hw)
    (congrArg _ hw) ?_ ?_ ?_
  · rw [events, hw, hhandled, hs]
    exact h.starts
  · rw [hw, hs]
    exact h.isOpen
  · rw [hw]
    exact h.shut

theorem Books.arrive (h : Books P v) (hv : v.responder.halt = none) (x : Except ErrorCode Bytes) :
    Books P (v.become (v.responder.arrive x)) := by
  have hi : Issues 0 v.responder.watch (v.responder.watch.arrive x) := issues_arrive x _
  refine h.keep hv rfl h.host rfl hi.sequence hi.stopped hi.outstanding ?_ ?_ ?_
  · obtain ⟨es, hes, hr⟩ := hi.mailbox
    have hm : (v.become (v.responder.arrive x)).events = v.events ++ es :=
      (congrArg (v.handled ++ ·) hes).trans (List.append_assoc _ _ _).symm
    have hz : es.countP (·.isBegin) = 0 :=
      List.countP_eq_zero.mpr fun e he => by simp [Event.isBegin_of_isReceived (hr e he)]
    rw [hm, List.countP_append, hz]
    exact h.starts
  · exact fun hs hn => hi.isOpen.trans (h.isOpen hs hn)
  · intro hm
    obtain ⟨ho, hz⟩ := h.shut hm
    have harrive : v.responder.watch.arrive x =
        { v.responder.watch with inbox := v.responder.watch.inbox ++ [x] } := if_pos hz
    exact ⟨hi.isOpen.trans ho, (congrArg LinkWatch.waiting harrive :).trans hz⟩

theorem Books.shutdown (h : Books P v) (hv : v.responder.halt = none) :
    Books P (v.become v.responder.shutdown) := by
  refine h.keep hv rfl h.host rfl rfl rfl ?_ ?_ h.isOpen h.shut
  · simp [become, Responder.shutdown, setWatch, enroll, post, LinkWatch.outstanding,
      Event.isReceived]
  · have hm : (v.become v.responder.shutdown).events = v.events ++ [.shutdown] :=
      (List.append_assoc _ _ _).symm
    rw [hm, List.countP_append]
    exact h.starts

section After

variable {e : Event} {events : List Event} {rest : List Actor} {r : Responder σ}

/-- When the watch has handled an event, which has led to responder `r`. -/
def after (e : Event) (r : Responder σ) (v : Vigil σ) : Vigil σ :=
  { v with responder := r, handled := v.handled ++ [e] }

theorem heard_of_not_mem (hn : .shutdown ∉ v.handled) : v.heard = v.handled :=
  Event.untilShutdown_of_not_mem hn

theorem heard_after (hn : .shutdown ∉ v.handled) (he : e ≠ .shutdown) :
    (v.after e r).heard = v.handled ++ [e] := by
  refine Event.untilShutdown_of_not_mem fun hm => ?_
  rcases List.mem_append.mp hm with hm | hm
  · exact hn hm
  · exact he (List.mem_singleton.mp hm).symm

theorem heard_after_of_mem (hs : .shutdown ∈ v.handled) : (v.after e r).heard = v.heard :=
  Event.untilShutdown_append_of_mem hs [e]

theorem heard_after_shutdown : (v.after .shutdown r).heard = v.heard := by
  by_cases hs : .shutdown ∈ v.handled
  · exact heard_after_of_mem hs
  · rw [heard_of_not_mem hs]
    exact (List.takeWhile_append_of_pos fun x hx => by
      cases x <;> simp_all [Event.isShutdown]).trans (List.append_nil _)

theorem Clean.errors_after (h : Clean v) (hn : .shutdown ∉ v.handled) (hne : e ≠ .shutdown)
    (he : ∀ x, e = .received (.error x) → x = .system Errno.noBufferSpace) (x : ErrorCode)
    (hx : .received (.error x) ∈ (v.after e r).heard) : x = .system Errno.noBufferSpace := by
  rw [heard_after hn hne] at hx
  rcases List.mem_append.mp hx with hx | hx
  · exact h.errors x (heard_of_not_mem hn ▸ hx)
  · exact he x (List.mem_singleton.mp hx).symm

theorem Books.started (h : Books P v) (hb : .begin ∈ v.events) : v.started = true := by
  have hpos : 0 < v.events.countP (·.isBegin) := List.countP_pos_iff.mpr ⟨_, hb, rfl⟩
  rw [h.starts] at hpos
  cases hs : v.started with
  | true => rfl
  | false => simp [hs] at hpos

theorem Books.starts_after (h : Books P v) (hm : v.responder.watch.mailbox = e :: events)
    (hh : Handles (v.responder.taken rest events) e r) :
    (v.after e r).events.countP (·.isBegin) = if v.started then 1 else 0 := by
  obtain ⟨es, hes, hr⟩ := hh.mailbox
  have hes : r.watch.mailbox = events ++ es := hes
  have hz : es.countP (·.isBegin) = 0 :=
    List.countP_eq_zero.mpr fun x hx => by simp [Event.isBegin_of_isReceived (hr x hx)]
  rw [← h.starts]
  simp only [Vigil.events, after, hm, hes, List.countP_append, List.countP_cons, List.countP_nil,
    hz]
  omega

/-- Until the watch is told to stop, the receive that goes with an event is not there when the event
is handled: either it has just ended, or it is the first. -/
theorem Books.outstanding_after (h : Books P v) (hv : v.responder.halt = none)
    (hm : v.responder.watch.mailbox = e :: events) (hn : .shutdown ∉ v.handled)
    (he : e ≠ .shutdown) (rest : List Actor) :
    (v.handled ++ [e]).countP (·.isBegin) =
      (v.responder.taken rest events).watch.outstanding + 1 := by
  have ho := h.outstanding hv hn
  rw [LinkWatch.outstanding, hm, List.countP_cons] at ho
  rw [List.countP_append, ← ho]
  cases e with
  | shutdown => exact absurd rfl he
  | begin => rfl
  | received x => rfl

/-- Every event but a shutdown comes after the start. -/
theorem Books.begun_after (h : Books P v) (hv : v.responder.halt = none)
    (hm : v.responder.watch.mailbox = e :: events) (hn : .shutdown ∉ v.handled)
    (he : e ≠ .shutdown) : .begin ∈ v.handled ++ [e] := by
  have ho := h.outstanding_after hv hm hn he []
  obtain ⟨x, hx, hb⟩ := List.countP_pos_iff.mp (Nat.lt_of_lt_of_eq (Nat.succ_pos _) ho.symm)
  rwa [Event.isBegin_eq_true.mp hb] at hx

theorem Books.isOpen_after (h : Books P v) (hv : v.responder.halt = none)
    (hm : v.responder.watch.mailbox = e :: events) (hn : .shutdown ∉ v.handled)
    (he : e ≠ .shutdown) : v.responder.watch.isOpen = true := by
  refine h.isOpen (h.started ?_) hn
  rcases List.mem_append.mp (h.begun_after hv hm hn he) with hb | hb
  · exact List.mem_append_left _ hb
  · refine List.mem_append_right _ ?_
    rw [hm, List.mem_singleton.mp hb]
    exact List.mem_cons_self

/-- The books after an event that the watch handles before it is told to stop. -/
theorem Books.after_event (h : Books P v) (hv : v.responder.halt = none)
    (hm : v.responder.watch.mailbox = e :: events) (hn : .shutdown ∉ v.handled)
    (he : e ≠ .shutdown) (hhost : P r.host) (hh : Handles (v.responder.taken rest events) e r)
    (hstopped : r.watch.stopped = v.responder.watch.stopped)
    (hopen : r.watch.isOpen = v.responder.watch.isOpen)
    (hr : r.journal.requests.map (·.1) = v.requests.map (·.1) ++
      if e.asks then [Request.links.encode v.responder.watch.sequence] else [])
    (hclean : r.halt ≠ some (.exited 1) → (∀ x ∈ r.journal.requests, x.2 = 0) ∧
      ∀ x, e = .received (.error x) → x = .system Errno.noBufferSpace)
    (hgoing : r.halt = none →
      r.watch.outstanding = (v.responder.taken rest events).watch.outstanding + 1 ∧
      r.watch.sequence = v.responder.watch.sequence + if e.asks then 1 else 0) :
    Books P (v.after e r) := by
  have hheard : (v.after e r).heard = v.handled ++ [e] := heard_after hn he
  have hbegun : .begin ∈ (v.after e r).heard := hheard ▸ h.begun_after hv hm hn he
  have hcount : (v.after e r).heard.countP (·.asks) =
      v.heard.countP (·.asks) + if e.asks then 1 else 0 := by
    rw [hheard, heard_of_not_mem hn, List.countP_append, List.countP_singleton]
  have hseq := h.sequence hv
  have hshutdown : .shutdown ∉ (v.after e r).handled := by
    simp [after, hn, Ne.symm he]
  exact
    { host := hhost
      stopped := iff_of_false (fun hs => hn (h.stopped.mp (hstopped ▸ hs))) hshutdown
      starts := h.starts_after hm hh
      isOpen := fun _ _ => hopen.trans (h.isOpen_after hv hm hn he)
      shut := fun hs => absurd hs hshutdown
      requests := by
        refine hr.trans ?_
        rw [hcount, h.requests, hseq]
        split
        · exact (Request.dumps_succ _).symm
        · exact List.append_nil _
      before := fun hb => absurd hbegun hb
      clean := fun hx => ⟨(hclean hx).1,
        (h.clean (by simp [hv])).errors_after hn he (hclean hx).2, fun _ => hbegun⟩
      outstanding := fun hx _ =>
        (hgoing hx).1.trans (h.outstanding_after hv hm hn he rest).symm
      sequence := fun hx => by
        refine (hgoing hx).2.trans ?_
        rw [hcount, hseq]
        split
        · exact (UInt32.ofNat_add _ 1).symm
        · exact UInt32.add_zero _ }

/-- An event at which links are asked for. -/
theorem Books.asked (h : Books P v) (hv : v.responder.halt = none)
    (hm : v.responder.watch.mailbox = e :: events) (hn : .shutdown ∉ v.handled)
    (hhost : P r.host) (hh : Handles (v.responder.taken rest events) e r)
    (ha : Asked (v.responder.taken rest events) r) (he : e.asks = true) :
    Books P (v.after e r) := by
  have hne : e ≠ .shutdown := by
    rintro rfl
    cases he
  have herrors (x : ErrorCode) (hx : e = .received (.error x)) :
      x = .system Errno.noBufferSpace := by
    subst hx
    simpa [Event.asks, Event.isBegin, Event.isOverrun] using he
  have hrequests {errno : Int32} (hr : r.journal.requests =
      v.requests ++ [(Request.links.encode v.responder.watch.sequence, errno)]) :
      r.journal.requests.map (·.1) = v.requests.map (·.1) ++
        if e.asks then [Request.links.encode v.responder.watch.sequence] else [] := by
    rw [hr, if_pos he]
    exact List.map_append
  cases ha with
  | closed ho =>
    have ho : v.responder.watch.isOpen = false := ho
    cases (h.isOpen_after hv hm hn hne).symm.trans ho
  | failed ho _ hw hr hx =>
    exact h.after_event hv hm hn hne hhost hh (congrArg LinkWatch.stopped hw :)
      (congrArg LinkWatch.isOpen hw :) (hrequests hr) (fun hy => absurd hx hy)
      fun hy => absurd (hx.symm.trans hy) (by simp)
  | sent ho hw hr hx =>
    refine h.after_event hv hm hn hne hhost hh hw.stopped hw.isOpen (hrequests hr)
      (fun _ => ⟨fun x hx => ?_, herrors⟩) fun _ => ⟨hw.outstanding, ?_⟩
    · rw [hr] at hx
      rcases List.mem_append.mp hx with hx | hx
      · exact (h.clean (by simp [hv])).requests x hx
      · rw [List.mem_singleton.mp hx]
    · rw [if_pos he]
      exact hw.sequence

/-- The books after the shutdown, and after an event that the watch handles later. -/
theorem Books.after_shutdown (h : Books P v) (hv : v.responder.halt = none)
    (hm : v.responder.watch.mailbox = e :: events) (hs : .shutdown ∈ v.handled ++ [e])
    (hheard : (v.after e r).heard = v.heard) (hhost : P r.host)
    (hh : Handles (v.responder.taken rest events) e r) (hstopped : r.watch.stopped = true)
    (hshut : r.watch.isOpen = false ∧ r.watch.waiting = 0) (hr : r.journal.requests = v.requests)
    (hclean : r.halt ≠ some (.exited 1) → e ≠ .begin)
    (hgoing : r.halt = none → r.watch.sequence = v.responder.watch.sequence) :
    Books P (v.after e r) := by
  have hc := h.clean (by simp [hv])
  have hr : (v.after e r).requests = v.requests := hr
  exact
    { host := hhost
      stopped := iff_of_true hstopped hs
      starts := h.starts_after hm hh
      isOpen := fun _ hn => absurd hs hn
      shut := fun _ => hshut
      requests := by
        rw [hheard, hr]
        exact h.requests
      before := hheard ▸ h.before
      clean := fun hx => ⟨hr ▸ hc.requests, hheard ▸ hc.errors, fun hb => by
        rw [hheard]
        refine hc.begun ((List.mem_append.mp hb).resolve_right fun hb => ?_)
        exact hclean hx (List.mem_singleton.mp hb).symm⟩
      outstanding := fun _ hn => absurd hs hn
      sequence := fun hx => by
        rw [hheard, ← h.sequence hv]
        exact hgoing hx }

/-- The books after any event. -/
theorem Books.after (h : Books P v) (hv : v.responder.halt = none)
    (hm : v.responder.watch.mailbox = e :: events) (hhost : P r.host)
    (hh : Handles (v.responder.taken rest events) e r) : Books P (v.after e r) := by
  have hc := h.clean (by simp [hv])
  have hnot (hs : v.responder.watch.stopped = false) : .shutdown ∉ v.handled := fun hmem => by
    cases hs.symm.trans (h.stopped.mpr hmem)
  have hsame {r : Responder σ} (hr : r.journal.requests = v.requests) :
      r.journal.requests.map (·.1) = v.requests.map (·.1) ++ [] := by
    rw [hr, List.append_nil]
  have hh' := hh
  cases hh with
  | ignores x hs =>
    have hmem := h.stopped.mp hs
    exact h.after_shutdown hv hm (List.mem_append_left _ hmem) (heard_after_of_mem hmem) hhost hh'
      hs (h.shut hmem) rfl (fun _ => by simp) fun _ => rfl
  | begins ha =>
    by_cases hmem : .shutdown ∈ v.handled
    · obtain ⟨ho, hz⟩ := h.shut hmem
      cases ha with
      | closed _ hw hr hx =>
        refine h.after_shutdown hv hm (List.mem_append_left _ hmem) (heard_after_of_mem hmem) hhost
          hh' ?_ ?_ hr (fun hy => absurd hx hy) fun hy => absurd (hx.symm.trans hy) (by simp)
        · exact (congrArg LinkWatch.stopped hw :).trans (h.stopped.mpr hmem)
        · exact ⟨(congrArg LinkWatch.isOpen hw :).trans ho,
            (congrArg LinkWatch.waiting hw :).trans hz⟩
      | failed hopen | sent hopen => cases ho.symm.trans hopen
    · exact h.asked hv hm hmem hhost hh' ha rfl
  | overruns hs ha => exact h.asked hv hm (hnot hs) hhost hh' ha (by decide)
  | fails hs he hw hr hx =>
    refine h.after_event hv hm (hnot hs) (by simp) hhost hh' (congrArg LinkWatch.stopped hw :)
      (congrArg LinkWatch.isOpen hw :) ?_ (fun hy => absurd hx hy)
      fun hy => absurd (hx.symm.trans hy) (by simp)
    rw [if_neg (by simp [Event.asks, Event.isBegin, Event.isOverrun, he])]
    exact hsame hr
  | hears n hs hr hw =>
    have hissues : r.watch.stopped = v.responder.watch.stopped ∧
        r.watch.isOpen = v.responder.watch.isOpen := by
      rcases hw with ⟨-, hw⟩ | ⟨-, hw⟩
      · exact ⟨hw.stopped, hw.isOpen⟩
      · exact ⟨(congrArg LinkWatch.stopped hw :), (congrArg LinkWatch.isOpen hw :)⟩
    refine h.after_event hv hm (hnot hs) (by simp) hhost hh' hissues.1 hissues.2 (hsame hr)
      (fun _ => ⟨hr ▸ hc.requests, by simp⟩) fun hx => ?_
    rcases hw with ⟨-, hw⟩ | ⟨hy, -⟩
    · exact ⟨hw.outstanding, hw.sequence.trans (UInt32.add_zero _).symm⟩
    · exact absurd hx hy
  | stops hw hr hx ht =>
    exact h.after_shutdown hv hm (by simp) heard_after_shutdown hhost hh'
      (congrArg LinkWatch.stopped hw :)
      ⟨(congrArg LinkWatch.isOpen hw :), (congrArg LinkWatch.waiting hw :)⟩ hr (fun _ => by simp)
      fun _ => (congrArg LinkWatch.sequence hw :)

end After

variable [Host σ]

/-- After a turn that leads to responder `r`. -/
def turned (r : Responder σ) (v : Vigil σ) : Vigil σ :=
  { v with responder := r, handled := v.handled ++ v.responder.watchEvent?.toList }

/-- What can come next. The watch is started once, if it was not stopped before; anything can arrive
for it, and it can be told to stop at any time. The host is free to change within `P`. -/
inductive Step (P : σ → Prop) (v : Vigil σ) : Vigil σ → Prop
  | pass (delay : Nat) : Step P v { v with now := v.now + delay }
  | host {h : σ} (hp : P h) : Step P v (v.become { v.responder with host := h })
  | add (i : Int32) : Step P v (v.become (v.responder.add v.now i).1)
  | close (i : Int32) : Step P v (v.become (v.responder.close i))
  | closeAll : Step P v (v.become v.responder.closeAll)
  | modifyTap (id : TapId) (f : Advertiser → Advertiser) :
    Step P v (v.become (v.responder.modifyTap id f))
  | startWatch (hs : v.started = false) (hn : .shutdown ∉ v.handled) :
    Step P v { v.become (v.responder.startWatch v.now).1 with
      started := (v.responder.startWatch v.now).2 }
  | arrive (x : Except ErrorCode Bytes) : Step P v (v.become (v.responder.arrive x))
  | shutdown : Step P v (v.become v.responder.shutdown)
  | turn {r : Responder σ} (h : v.responder.step? v.now = some r) : Step P v (v.turned r)

/-- What there can be, as long as the program goes on, from a responder that serves nothing and
watches nothing yet. -/
inductive Reachable (P : σ → Prop) : Vigil σ → Prop
  | new (host : σ) (hp : P host) (now : Nat) (timing : Timing) (selects : Bytes → Bool) :
    Reachable P { now := now, responder := { host := host, timing := timing, selects := selects } }
  | step {v v' : Vigil σ} (h : Reachable P v) (hh : v.responder.halt = none) (s : Step P v v') :
    Reachable P v'

theorem Books.startWatch (h : Books P v) (hv : v.responder.halt = none) (hs : v.started = false)
    (hn : .shutdown ∉ v.handled) :
    Books P { v.become (v.responder.startWatch v.now).1 with
      started := (v.responder.startWatch v.now).2 } := by
  have hhost : P (v.responder.startWatch v.now).1.host := by
    rw [host_startWatch]
    exact h.host
  have hzero : v.events.countP (·.isBegin) = 0 := h.starts.trans (by simp [hs])
  have hspec := startWatch_spec v.now v.responder
  generalize v.responder.startWatch v.now = x at hhost hspec
  obtain ⟨hr, ⟨hf, o, hw⟩ | ⟨ht, hw⟩⟩ := hspec
  · refine h.keep hv rfl hhost hr (congrArg LinkWatch.sequence hw :)
      (congrArg LinkWatch.stopped hw :) (congrArg LinkWatch.outstanding hw :) ?_ ?_
      fun hm => absurd hm hn
    · have hm : x.1.watch.mailbox = v.responder.watch.mailbox := (congrArg LinkWatch.mailbox hw :)
      simp only [events, become, hm, hf]
      exact hzero
    · simp [hf]
  · have hm : x.1.watch.mailbox = v.responder.watch.mailbox ++ [.begin] :=
      (congrArg LinkWatch.mailbox hw :)
    refine h.keep hv rfl hhost hr (congrArg LinkWatch.sequence hw :)
      (congrArg LinkWatch.stopped hw :) ?_ ?_ (fun _ _ => (congrArg LinkWatch.isOpen hw :))
      fun hm => absurd hm hn
    · have hz : x.1.watch.waiting = v.responder.watch.waiting := (congrArg LinkWatch.waiting hw :)
      simp [become, LinkWatch.outstanding, hm, hz, Event.isReceived]
    · simp only [events, become, hm, ht]
      rw [← List.append_assoc, List.countP_append]
      exact congrArg (· + 1) hzero

theorem Books.turn (hP : Secluded P) (h : Books P v) (hv : v.responder.halt = none)
    {r : Responder σ} (hr : v.responder.step? v.now = some r) : Books P (v.turned r) := by
  obtain ⟨-, rest, ⟨hs, rfl⟩ | ⟨id, hs, rfl⟩⟩ := step?_cases hr
  · cases hm : v.responder.watch.mailbox with
    | nil =>
      have hr : ({ v.responder with schedule := rest } : Responder σ).stepWatch v.now =
          { v.responder with schedule := rest } := by simp [stepWatch, hm]
      rw [hr]
      exact h.undisturbed hv (.of_eq rfl rfl rfl) rfl (by simp [turned, watchEvent?, hs, hm])
    | cons e events =>
      have hr : v.turned (({ v.responder with schedule := rest } : Responder σ).stepWatch v.now) =
          v.after e ((v.responder.taken rest events).handleWatch v.now e) := by
        simp [turned, watchEvent?, Vigil.after, stepWatch, hs, hm, taken]
      obtain ⟨hhost, hh⟩ := handles_handleWatch (q := v.responder.taken rest events) hP v.now hv
        h.host e
      rw [hr]
      exact h.after hv hm hhost hh
  · refine h.undisturbed hv ?_ rfl (by simp [turned, watchEvent?, hs])
    exact (Undisturbed.stepTap hP v.now id _).from_eq rfl rfl rfl

end Vigil

end RouterAdvert
