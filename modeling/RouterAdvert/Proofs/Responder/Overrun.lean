import RouterAdvert.Proofs.Responder.Announcements
import RouterAdvert.Proofs.Responder.Draining

/-! What becomes of the registry when announcements are lost. All links are asked for again, and the
answer is heard like any other announcements: it brings interfaces into service, but it takes none
out of service. -/
namespace RouterAdvert

namespace Responder

open Netlink LinkMessage

variable {σ : Type} {r : Responder σ}

/-- Whether messages describe the interface, under any name. -/
def Listed (ms : List (Nat × Message)) (i : Int32) : Prop :=
  ∃ x ∈ ms, ∃ l, decode? x.2 = some l ∧ l.index = i

/-- Nothing has happened to what decides who is served. -/
structure Unmoved (r q : Responder σ) : Prop where
  host : q.host = r.host
  timing : q.timing = r.timing
  selects : q.selects = r.selects
  taps : q.taps = r.taps
  registry : q.registry = r.registry
  halt : q.halt = r.halt

theorem unmoved_receiveLinks (r : Responder σ) : Unmoved r r.receiveLinks := by
  unfold receiveLinks
  split <;> exact ⟨rfl, rfl, rfl, rfl, rfl, rfl⟩

theorem rows_receiveLinks (r : Responder σ) : r.receiveLinks.journal = r.journal := by
  unfold receiveLinks
  split <;> rfl

variable [Host σ]

/-- Whether one of the messages announces the interface when it can be served. -/
def Offered (ms : List (Nat × Message)) (i : Int32) (r : Responder σ) : Prop :=
  ∃ before x after, ms = before ++ x :: after ∧ Announces r.selects i x.2 ∧
    (r.hear before).Obtains x.1 i

theorem Offered.listed {ms : List (Nat × Message)} {i : Int32} (h : r.Offered ms i) :
    Listed ms i := by
  obtain ⟨before, x, after, rfl, ⟨-, l, hl, hi⟩, -⟩ := h
  exact ⟨x, by simp, l, hl.1, hi⟩

theorem offered_cons {x : Nat × Message} {ms : List (Nat × Message)} {i : Int32} :
    r.Offered (x :: ms) i ↔
      Announces r.selects i x.2 ∧ r.Obtains x.1 i ∨ (r.processMessage x.1 x.2).Offered ms i := by
  have hs := (heard_processMessage x.1 x.2 r).selects
  constructor
  · rintro ⟨before, y, after, he, ha, ho⟩
    cases before with
    | nil =>
      obtain ⟨rfl, rfl⟩ := List.cons.inj he
      exact Or.inl ⟨ha, ho⟩
    | cons z before =>
      obtain ⟨rfl, rfl⟩ := List.cons.inj he
      exact Or.inr ⟨before, y, after, rfl, hs ▸ ha, ho⟩
  · rintro (⟨ha, ho⟩ | ⟨before, y, after, rfl, ha, ho⟩)
    · exact ⟨[], x, ms, rfl, ha, ho⟩
    · exact ⟨x :: before, y, after, rfl, hs ▸ ha, ho⟩

/-- Announcements bring interfaces into service, and take none out of service. -/
theorem check_hear_iff {ms : List (Nat × Message)} {i : Int32}
    (hms : ∀ x ∈ ms, x.2.type = Message.newLink) :
    (r.hear ms).check i = true ↔ r.check i = true ∨ r.Offered ms i := by
  have hkinds : Message.newLink ≠ Message.delLink := by decide
  induction ms generalizing r with
  | nil =>
    refine ⟨Or.inl, fun h => h.resolve_right fun ⟨before, x, after, he, _⟩ => ?_⟩
    simp at he
  | cons x ms ih =>
    obtain ⟨hx, hms⟩ := List.forall_mem_cons.mp hms
    have hn : ¬Removes r.selects i x.2 := fun h => hkinds (hx.symm.trans h.1)
    have hrest := ih (r := r.processMessage x.1 x.2) hms
    have hx := (heard_processMessage x.1 x.2 r).check_iff (i := i)
    rw [offered_cons, ← or_assoc]
    rw [and_iff_left hn] at hx
    exact hrest.trans (or_congr_left hx)

theorem get?_add_of_ne {now : Nat} {i j : Int32} (h : j ≠ i) :
    (r.add now i).1.get? j = r.get? j := by
  rcases r.add_spec now i with ⟨q, t, p, ha, -, he, -⟩ | ⟨ha, -⟩
  · rw [he, get?, (Orderly.frame_install now i t q).1, Table.get?_insert_of_ne _ h, ha.registry]
    rfl
  · rw [get?, ha.registry]
    rfl

/-- An announcement leaves the tap in service where there is one. -/
theorem Heard.get? {now : Nat} {m : Message} {r' : Responder σ} (h : Heard now m r r')
    (hm : m.type = Message.newLink) {i : Int32} {id : TapId} (hi : r.get? i = some id) :
    r'.get? i = some id := by
  have hkinds : Message.newLink ≠ Message.delLink := by decide
  cases h with
  | removed _ hd => exact absurd (hm.symm.trans hd) hkinds
  | @appeared l _ _ hc =>
    have hne : i ≠ l.index := by
      rintro rfl
      exact Bool.false_ne_true (hc.symm.trans (check_eq_true.mpr ⟨id, hi⟩))
    exact (get?_add_of_ne hne).trans hi
  | ignored => exact hi

theorem get?_hear {ms : List (Nat × Message)} (hms : ∀ x ∈ ms, x.2.type = Message.newLink)
    {i : Int32} {id : TapId} (hi : r.get? i = some id) : (r.hear ms).get? i = some id := by
  induction ms generalizing r with
  | nil => exact hi
  | cons x ms ih =>
    obtain ⟨hx, hms⟩ := List.forall_mem_cons.mp hms
    exact ih hms ((heard_processMessage x.1 x.2 r).get? hx hi)

/-- The request for all links that is made at some time. -/
def linksRequest (now : Nat) (sequence : UInt32) : Stamp × Entry :=
  (⟨now, none⟩, watchUse (.send (Netlink.Request.links.encode sequence)) 0)

/-- Asking for the links with a socket that takes the request. -/
theorem requestLinks_of_open (ho : r.watch.isOpen = true)
    (hsend : Host.watchErrno .send r.host = 0) (now : Nat) :
    Unmoved r (r.requestLinks now) ∧
      linksRequest now r.watch.sequence ∈ (r.requestLinks now).journal.rows := by
  have hok : ErrorCode.ofErrno? (Host.watchErrno .send r.host) = none := by rw [hsend]; rfl
  simp only [requestLinks, ho, Bool.not_true, Bool.false_eq_true, if_false, hok]
  rw [hsend]
  split <;> exact ⟨⟨rfl, rfl, rfl, rfl, rfl, rfl⟩, List.mem_cons_self⟩

/-- After lost announcements the links are asked for again, and nothing else happens. -/
theorem linksReceived_of_overrun (hs : r.watch.stopped = false) (ho : r.watch.isOpen = true)
    (hsend : Host.watchErrno .send r.host = 0) (now : Nat) :
    Unmoved r (r.linksReceived now (.error (.system Errno.noBufferSpace))) ∧
      linksRequest now r.watch.sequence ∈
        (r.linksReceived now (.error (.system Errno.noBufferSpace))).journal.rows := by
  have hl : r.linksReceived now (.error (.system Errno.noBufferSpace)) =
      (r.note ⟨now, none⟩ .linksOverrun |>.requestLinks now |>.receiveLinks) := by
    simp [linksReceived, hs]
  obtain ⟨hu, hrows⟩ := requestLinks_of_open (r := r.note ⟨now, none⟩ .linksOverrun) ho hsend now
  have hv := unmoved_receiveLinks (r.note ⟨now, none⟩ .linksOverrun |>.requestLinks now)
  rw [hl, rows_receiveLinks]
  exact ⟨⟨hv.host.trans hu.host, hv.timing.trans hu.timing, hv.selects.trans hu.selects,
    hv.taps.trans hu.taps, hv.registry.trans hu.registry, hv.halt.trans hu.halt⟩, hrows⟩

end Responder

open Responder Netlink LinkMessage

namespace Course

variable {σ : Type} [Host σ] {c : Course σ}

/-- What is in service after lost announcements, when the answer to the new request for links has
been heard: all that was in service before, by the same taps, and the interfaces that are announced
when they can be served. Nothing else than what the answer lists is in service exactly if it lists
all that was in service before. -/
theorem check_after_overrun (h : Reachable c) (hh : c.responder.halt = none)
    (hs : c.responder.watch.stopped = false)
    (hsend : Host.watchErrno .send c.responder.host = 0) {rest : List Actor}
    (hturn : c.responder.schedule = .watch :: rest) {events : List LinkWatch.Event}
    (hm : c.responder.watch.mailbox =
      .received (.error (.system Errno.noBufferSpace)) :: events)
    {ms : List (Nat × Message)} (hms : ∀ x ∈ ms, x.2.type = Message.newLink) :
    ∃ q, c.responder.step? c.now = some q ∧ Unmoved c.responder q ∧
      linksRequest c.now c.responder.watch.sequence ∈ q.journal.rows ∧
      (∀ i, (q.hear ms).check i = true ↔ c.responder.check i = true ∨ q.Offered ms i) ∧
      (∀ i id, c.responder.get? i = some id → (q.hear ms).get? i = some id) ∧
      ((∀ i, (q.hear ms).check i = true → Listed ms i) ↔
        ∀ i, c.responder.check i = true → Listed ms i) := by
  obtain ⟨e, es, he, hstep, -, -, -, hopen⟩ :=
    exists_watchTurn h.attained.orderly h.watched c.now hturn
  obtain ⟨rfl, rfl⟩ := List.cons.inj (hm.symm.trans he)
  obtain ⟨hu, hrows⟩ := linksReceived_of_overrun (r := c.responder.taken rest events) hs
    (hopen (by simp) hs) hsend c.now
  have hu : Unmoved c.responder ((c.responder.taken rest events).linksReceived c.now
      (.error (.system Errno.noBufferSpace))) :=
    ⟨hu.host, hu.timing, hu.selects, hu.taps, hu.registry, hu.halt⟩
  refine ⟨_, ?_, hu, hrows, ?_⟩
  · simp only [step?, hturn]
    rw [if_neg (by simp [hh])]
    exact congrArg some hstep
  · generalize (c.responder.taken rest events).linksReceived c.now
      (.error (.system Errno.noBufferSpace)) = q at hu
    have hcheck (i : Int32) : q.check i = c.responder.check i := by rw [check, hu.registry, check]
    have hiff (i : Int32) :
        (q.hear ms).check i = true ↔ c.responder.check i = true ∨ q.Offered ms i := by
      rw [check_hear_iff hms, hcheck]
    refine ⟨hiff, fun i id hi => get?_hear hms ?_, ?_⟩
    · rwa [get?, hu.registry]
    · refine ⟨fun hl i hi => hl i ((hiff i).mpr (Or.inl hi)), fun hl i hi => ?_⟩
      exact ((hiff i).mp hi).elim (hl i) Offered.listed

/-- An error on the socket of the watch is handled next if nothing else is queued. -/
theorem Reachable.arrive_error (h : Reachable c) (hq : c.responder.schedule = [])
    (hw : c.responder.watch.waiting ≠ 0) (e : ErrorCode) :
    Reachable (c.become (c.responder.arrive (.error e))) ∧
      (c.responder.arrive (.error e)).schedule = [.watch] ∧
      (c.responder.arrive (.error e)).watch.mailbox = [.received (.error e)] := by
  have hm := h.watched.mailbox_eq_nil hq
  have hs : (c.responder.arrive (.error e)).watch.mailbox = [.received (.error e)] := by
    simp [Responder.arrive, LinkWatch.arrive, hw, setWatch, enroll, LinkWatch.deliver,
      LinkWatch.post, hm]
  refine ⟨h.step (.arrive (.error e)), ?_, hs⟩
  simp [Responder.arrive, LinkWatch.arrive, hw, setWatch, enroll, LinkWatch.deliver,
    LinkWatch.post, hm, hq]

/-- A responder that watches, and serves an interface that was announced. -/
def serving : Course Bench :=
  let watching := (become (attentive.startWatch 0).1 { now := 0, responder := attentive }).drain
  (watching.become (watching.responder.process 0
    (linkMessage Message.newLink 5 "tap5").tail)).drain

theorem reachable_serving : Reachable serving :=
  (((Reachable.new 0 attentive.host attentive.timing attentive.selects).step
    .startWatch).drain.2.2.1.step (.process _)).drain.2.2.1

/-- A link that is listed again keeps its tap. -/
theorem kept_after_overrun :
    ∃ (c : Course Bench) (q : Responder Bench), Reachable c ∧ c.responder.step? c.now = some q ∧
      (q.hear [(0, linkMessage Message.newLink 5 "tap5")]).get? 5 = some ⟨5, 0⟩ := by
  obtain ⟨h, hs, hm⟩ := reachable_serving.arrive_error (by decide +kernel) (by decide +kernel)
    (.system Errno.noBufferSpace)
  have hms : ∀ x ∈ [(0, linkMessage Message.newLink 5 "tap5")], x.2.type = Message.newLink := by
    decide +kernel
  obtain ⟨q, hq, -, -, -, hkept, -⟩ := check_after_overrun h (by decide +kernel)
    (by decide +kernel) (by decide +kernel) hs hm hms
  exact ⟨_, q, h, hq, hkept 5 ⟨5, 0⟩ (by decide +kernel)⟩

/-- A link whose removal was lost stays in service, though the answer does not list it. -/
theorem in_service_after_overrun :
    ∃ (c : Course Bench) (q : Responder Bench), Reachable c ∧ c.responder.halt = none ∧
      c.responder.schedule = [.watch] ∧
      c.responder.watch.mailbox = [.received (.error (.system Errno.noBufferSpace))] ∧
      c.responder.step? c.now = some q ∧
      ¬Listed [(0, linkMessage Message.newLink 6 "tap6")] 5 ∧
      (q.hear [(0, linkMessage Message.newLink 6 "tap6")]).check 5 = true := by
  obtain ⟨h, hs, hm⟩ := reachable_serving.arrive_error (by decide +kernel) (by decide +kernel)
    (.system Errno.noBufferSpace)
  have hstep : ((serving.responder.arrive (.error (.system Errno.noBufferSpace))).step?
      serving.now).any fun q =>
        (q.hear [(0, linkMessage Message.newLink 6 "tap6")]).check 5 = true := by decide +kernel
  obtain ⟨q, hq, hc⟩ := (Option.any_eq_true _ _).mp hstep
  refine ⟨_, q, h, by decide +kernel, hs, hm, hq, ?_, by simpa using hc⟩
  rintro ⟨x, hx, l, hl, hi⟩
  have hd : decode? (linkMessage Message.newLink 6 "tap6") =
      some { index := 6, name := "tap6" } := by decide +kernel
  rw [List.mem_singleton.mp hx, hd] at hl
  rw [← Option.some.inj hl] at hi
  exact absurd hi (by decide)

end Course

end RouterAdvert
