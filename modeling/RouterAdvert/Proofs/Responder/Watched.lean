import RouterAdvert.Proofs.Responder.Progress

/-! What is true of the watch in any course: it has one place in the schedule for each event, its
buffer keeps its size, and nothing but a shutdown waits for it before its socket is open. So every
turn takes some of the work away, and the loop comes to an end. -/
namespace RouterAdvert

namespace Responder

open Advertiser

variable {σ : Type}

structure Watched (r : Responder σ) : Prop where
  turns : r.WatchTurns
  buffer : r.watch.buffer.length = Netlink.Query.bufferSize
  fits : r.watch.Fits
  unopened : r.watch.isOpen = false → r.watch.stopped = true ∨
    r.watch.waiting = 0 ∧ ∀ e ∈ r.watch.mailbox, e = .shutdown

theorem Watched.shutdown {r : Responder σ} (h : Watched r) : Watched r.shutdown where
  turns := h.turns.setWatch rfl
  buffer := h.buffer
  fits := h.fits.post rfl nofun
  unopened ho := by
    refine (h.unopened ho).imp_right (And.imp_right fun hm e he => ?_)
    rcases List.mem_append.mp he with he | he
    · exact hm e he
    · exact List.mem_singleton.mp he

theorem modifyTap_watch (id : TapId) (f : Advertiser → Advertiser) (r : Responder σ) :
    (r.modifyTap id f).watch = r.watch ∧ (r.modifyTap id f).halt = r.halt := by
  unfold modifyTap
  split <;> exact ⟨rfl, rfl⟩

theorem cancelAll_watch (ids : List TapId) (r : Responder σ) :
    (Orderly.cancelAll ids r).watch = r.watch ∧ (Orderly.cancelAll ids r).halt = r.halt := by
  induction ids generalizing r with
  | nil => exact ⟨rfl, rfl⟩
  | cons id ids ih =>
    obtain ⟨hw, hh⟩ := modifyTap_watch id .cancel r
    exact ⟨(ih _).1.trans hw, (ih _).2.trans hh⟩

theorem deregister_watch (now : Nat) (id : TapId) (name : Bytes) (code : ErrorCode)
    (r : Responder σ) :
    (r.deregister now id name code).watch = r.watch ∧
      (r.deregister now id name code).halt = r.halt := by
  unfold deregister
  dsimp only
  split <;> split <;> exact ⟨rfl, rfl⟩

/-- With nobody's turn left, nothing waits for the watch. -/
theorem Watched.mailbox_eq_nil {r : Responder σ} (h : Watched r) (hs : r.schedule = []) :
    r.watch.mailbox = [] := by
  have hc := h.turns
  rw [WatchTurns, hs] at hc
  exact List.eq_nil_of_length_eq_zero hc.symm

variable [Host σ] {n : Nat} {r r' : Responder σ}

theorem Proceeds.watched (p : Proceeds n r r') (h : Watched r) : Watched r' := by
  obtain ⟨m, hg⟩ := p.watch
  refine ⟨p.turns h.turns, hg.buffer.trans h.buffer, hg.fits h.fits, fun ho => ?_⟩
  have ho : r.watch.isOpen = false := hg.isOpen.symm.trans ho
  rcases h.unopened ho with hs | ⟨hz, hm⟩
  · exact Or.inl (hg.stopped.trans hs)
  · obtain ⟨hz', hm'⟩ := hg.idle ho hz
    exact Or.inr ⟨hz', hm' ▸ hm⟩

theorem Watched.startWatch (h : Watched r) (now : Nat) : Watched (r.startWatch now).1 := by
  dsimp only [Responder.startWatch]
  split
  · exact ⟨h.turns, h.buffer, h.fits, h.unopened⟩
  · split
    · exact ⟨h.turns, h.buffer, h.fits, fun ho => by cases ho⟩
    · refine ⟨?_, h.buffer, h.fits.post rfl nofun, fun ho => by cases ho⟩
      refine WatchTurns.setWatch ?_ rfl
      exact h.turns

/-- Stopping the watch reports the receives that waited, and closes every tap in service. -/
theorem stopWatch_spec (now : Nat) (h : Watched r) :
    Watched (r.stopWatch now) ∧ (r.stopWatch now).work ≤ r.work ∧
      (r.stopWatch now).halt = r.halt ∧ (r.stopWatch now).registry = .empty ∧
      (r.stopWatch now).watch.stopped = true ∧ (r.stopWatch now).watch.waiting = 0 ∧
      ∃ es, (r.stopWatch now).watch.mailbox = r.watch.mailbox ++ es ∧
        ∀ e ∈ es, e.isReceived = true := by
  let q : Responder σ := Responder.record ⟨now, none⟩ (watchUse .close 0)
    { r.setWatch r.watch.close with watch.stopped := true }
  have hturns : q.WatchTurns := h.turns.setWatch rfl
  have hq : Watched q := ⟨hturns, h.buffer, h.fits.close, fun _ => Or.inl rfl⟩
  have hwork : q.work ≤ r.work := by
    have hc := LinkWatch.work_close r.watch
    have hs : q.watch.work = r.watch.close.work := rfl
    have ht : q.taps = r.taps := rfl
    have hr : q.registry = r.registry := rfl
    rw [work_eq, work_eq, hs, ht, hr]
    omega
  have hp : Proceeds 0 q (r.stopWatch now) := Proceeds.closeAll q
  obtain ⟨m, hg⟩ := hp.watch
  obtain ⟨hz, hm⟩ := hg.idle rfl rfl
  refine ⟨hp.watched hq, Nat.le_trans hp.work hwork, (cancelAll_watch _ _).2,
    (Orderly.frame_closeAll q).1, hg.stopped, hz, _, hm, fun e he => ?_⟩
  obtain rfl := List.eq_of_mem_replicate he
  rfl

/-- A request for links and the receive after it. -/
theorem askLinks_proceeds (now : Nat) (r : Responder σ) :
    Proceeds (LinkWatch.datagramWeight + 1) r (r.requestLinks now).receiveLinks := by
  obtain ⟨hp, ho, hh⟩ := Proceeds.requestLinks now r
  exact hp.trans (Proceeds.receiveLinks fun hn => ho.trans (hh hn))

/-- The end of a receive leads to less than it weighs. -/
theorem linksReceived_proceeds (h : Orderly r) (hw : Watched r) (now : Nat)
    (ho : r.watch.stopped = false → r.watch.isOpen = true) (x : Except ErrorCode Nat) :
    ∃ n, n < LinkWatch.arrivalWeight x ∧ Proceeds n r (r.linksReceived now x) := by
  have hone := LinkWatch.one_le_arrivalWeight x
  dsimp only [linksReceived]
  split
  · exact ⟨0, hone, .refl r⟩
  · rename_i hs
    have ho : r.watch.isOpen = true := ho (by simpa using hs)
    split
    · rename_i e
      split
      · rename_i he
        have hn : Proceeds 0 r (r.note ⟨now, none⟩ .linksOverrun) := .note _ _ r
        refine ⟨0 + (LinkWatch.datagramWeight + 1), ?_, hn.trans (askLinks_proceeds now _)⟩
        have hc : e ≠ .canceled := by
          rw [he]
          decide
        have hx : LinkWatch.arrivalWeight (.error e : Except ErrorCode Nat) =
            LinkWatch.datagramWeight + 2 := if_neg hc
        omega
      · exact ⟨0, hone, .of_rfl rfl rfl rfl rfl⟩
    · rename_i k
      have hp := Proceeds.processBuffer h now r.watch.buffer k
      obtain ⟨m, hg⟩ := hp.watch
      refine ⟨_, ?_, hp.trans (Proceeds.receiveLinks fun _ => hg.isOpen.trans ho)⟩
      have hlen := Netlink.Message.length_inBuffer_le hw.buffer k
      have hmul := Nat.mul_le_mul_left LinkWatch.messageWeight hlen
      have hx : LinkWatch.arrivalWeight (.ok k : Except ErrorCode Nat) =
          2 + LinkWatch.messageWeight * LinkWatch.messageLimit := rfl
      omega

/-- The responder when the watch has taken its oldest event. -/
def taken (rest : List Actor) (events : List LinkWatch.Event) (r : Responder σ) : Responder σ :=
  { r with schedule := rest, watch.mailbox := events }

/-- The place of the watch in the schedule is there for an event. -/
theorem exists_watchTurn {rest : List Actor} (h : Orderly r) (hw : Watched r) (now : Nat)
    (hs : r.schedule = .watch :: rest) :
    ∃ e events, r.watch.mailbox = e :: events ∧
      ({ r with schedule := rest } : Responder σ).stepWatch now =
        (r.taken rest events).handleWatch now e ∧
      Orderly (r.taken rest events) ∧ Watched (r.taken rest events) ∧
      (r.taken rest events).work + e.weight = r.work ∧
      (e ≠ .shutdown → r.watch.stopped = false → r.watch.isOpen = true) := by
  have hc := hw.turns
  rw [WatchTurns, hs, List.count_cons_self] at hc
  cases hm : r.watch.mailbox with
  | nil => simp [hm] at hc
  | cons e events =>
    rw [hm, List.length_cons] at hc
    refine ⟨e, events, rfl, ?_, h.aside ⟨rfl, rfl, fun id => ?_⟩,
      ⟨?_, hw.buffer, fun n hn => ?_, fun ho => ?_⟩, ?_, fun he hn => ?_⟩
    · simp [stepWatch, hm, taken]
    · change rest.count (.tap id) = r.schedule.count (.tap id)
      rw [count_of_schedule hs]
      simp
    · exact Nat.succ.inj hc
    · refine hw.fits n ?_
      rw [hm]
      exact List.mem_cons_of_mem e hn
    · refine (hw.unopened ho).imp_right (And.imp_right fun hall x hx => hall x ?_)
      rw [hm]
      exact List.mem_cons_of_mem e hx
    · have ht : (r.taken rest events).taps = r.taps := rfl
      have hr : (r.taken rest events).registry = r.registry := rfl
      have hi : (r.taken rest events).watch.work =
          total LinkWatch.Event.weight events + total LinkWatch.arrivalWeight r.watch.inbox +
            r.watch.waiting := rfl
      rw [work_eq, work_eq, ht, hr, hi, LinkWatch.work_eq r.watch, hm, total_cons]
      omega
    · rcases Bool.eq_false_or_eq_true r.watch.isOpen with ho | ho
      · exact ho
      · rcases hw.unopened ho with hx | ⟨-, hall⟩
        · cases hn.symm.trans hx
        · exact absurd (hall e (by simp [hm])) he

/-- Whatever the watch handles leads to less work, and to nothing for the watch but the ends of
receives. -/
theorem handleWatch_spec (h : Orderly r) (hw : Watched r) (now : Nat) (e : LinkWatch.Event)
    (ho : e ≠ .shutdown → r.watch.stopped = false → r.watch.isOpen = true) :
    Watched (r.handleWatch now e) ∧ (r.handleWatch now e).work < r.work + e.weight ∧
      ∃ es, (r.handleWatch now e).watch.mailbox = r.watch.mailbox ++ es ∧
        ∀ x ∈ es, x.isReceived = true := by
  have of_proceeds {n : Nat} {q : Responder σ} (hn : n < e.weight) (hp : Proceeds n r q) :
      Watched q ∧ q.work < r.work + e.weight ∧
        ∃ es, q.watch.mailbox = r.watch.mailbox ++ es ∧ ∀ x ∈ es, x.isReceived = true := by
    obtain ⟨m, hg⟩ := hp.watch
    exact ⟨hp.watched hw, Nat.lt_of_le_of_lt hp.work (Nat.add_lt_add_left hn _), hg.mailbox⟩
  cases e with
  | begin => exact of_proceeds (Nat.lt_succ_self _) (askLinks_proceeds now r)
  | received x =>
    obtain ⟨n, hn, hp⟩ := linksReceived_proceeds h hw now (ho (by simp)) x
    exact of_proceeds hn hp
  | shutdown =>
    obtain ⟨hs, hle, -, -, -, -, hm⟩ := stopWatch_spec now hw
    exact ⟨hs, Nat.lt_succ_of_le hle, hm⟩

/-- Nothing that a tap does concerns the watch. -/
theorem performAll_watch (now : Nat) (id : TapId) (a : Advertiser) (es : List Effect)
    (r : Responder σ) :
    (es.foldl (perform now id a) r).watch = r.watch ∧
      (es.foldl (perform now id a) r).halt = r.halt := by
  have hone (e : Effect) (q : Responder σ) :
      (perform now id a q e).watch = q.watch ∧ (perform now id a q e).halt = q.halt := by
    cases e with
    | note | dial | call | armed => exact ⟨rfl, rfl⟩
    | exit x code =>
      cases x with
      | numbered | announce => exact ⟨rfl, rfl⟩
      | deregister => exact deregister_watch now id a.profile.link.name code _
  induction es generalizing r with
  | nil => exact ⟨rfl, rfl⟩
  | cons e es ih =>
    obtain ⟨hw, hh⟩ := ih (perform now id a r e)
    exact ⟨hw.trans (hone e r).1, hh.trans (hone e r).2⟩

theorem size_withdraw_le (id : TapId) (registry : Table Int32 TapId) :
    (withdraw id registry).size ≤ registry.size := by
  unfold withdraw
  split
  · exact Table.size_erase_le _ _
  · exact Nat.le_refl _

/-- A turn of a tap leads to less work, and leaves the watch alone. -/
theorem stepTap_spec {rest : List Actor} {id : TapId} (h : Orderly r) (now : Nat)
    (hs : r.schedule = .tap id :: rest) :
    Proceeds 0 r ({ r with schedule := rest }.stepTap now id) ∧
      ({ r with schedule := rest }.stepTap now id).work < r.work ∧
      ({ r with schedule := rest }.stepTap now id).watch = r.watch ∧
      ({ r with schedule := rest }.stepTap now id).halt = r.halt ∧
      ({ r with schedule := rest }.stepTap now id).size ≤ r.size ∧
      ({ r with schedule := rest }.stepTap now id).taps.keys = r.taps.keys := by
  obtain ⟨t, u, ht, hk⟩ := h.tended.exists_turn now hs
  obtain ⟨e, events, hm⟩ := exists_of_step? hk
  have hsound := (h.tended.taps id t ht).sound
  have hlt : u.state.work < t.advertiser.work := by
    obtain ⟨hf, o⟩ := Life.outcome_of_step? hsound hm hk
    have hw := o.work_lt hf
    rwa [← work_facing, ← eq_facing hm] at hw
  obtain ⟨htaps, hsched, hreg⟩ := performAll_spec now id u.state u.effects
    ({ r with schedule := rest }.setTap id { t with advertiser := u.state })
  obtain ⟨hwatch, hhalt⟩ := performAll_watch now id u.state u.effects
    ({ r with schedule := rest }.setTap id { t with advertiser := u.state })
  rw [← stepTap_eq (r := { r with schedule := rest }) ht hk] at htaps hsched hreg hwatch hhalt
  have hsize : ({ r with schedule := rest }.stepTap now id).registry.size ≤ r.registry.size := by
    rw [hreg]
    split
    · exact size_withdraw_le id r.registry
    · exact Nat.le_refl _
  have hwork : ({ r with schedule := rest }.stepTap now id).work < r.work := by
    have hsum := Table.total_insert_of_some (·.advertiser.work) ht { t with advertiser := u.state }
    rw [work_eq, work_eq, htaps, hwatch]
    simp only [setTap, enroll] at *
    omega
  refine ⟨.of_same hwatch ?_ (Nat.le_of_lt hwork), hwork, hwatch, hhalt, hsize, ?_⟩
  · rw [hsched, hs, List.count_cons_of_ne (by simp)]
    exact count_watch_enroll _ _ _
  · rw [htaps]
    exact Table.keys_insert_of_some (by rw [ht]; rfl) _

/-- Every turn takes some of the work away. -/
theorem Watched.step? {now : Nat} (hw : Watched r) (h : Orderly r)
    (hr : r.step? now = some r') : Watched r' ∧ r'.work < r.work := by
  obtain ⟨-, rest, ⟨hs, rfl⟩ | ⟨id, hs, rfl⟩⟩ := step?_cases hr
  · obtain ⟨e, events, -, he, ho, hq, hwork, hopen⟩ := exists_watchTurn h hw now hs
    rw [he, ← hwork]
    obtain ⟨hw', hlt, -⟩ := handleWatch_spec ho hq now e hopen
    exact ⟨hw', hlt⟩
  · obtain ⟨hp, hlt, -⟩ := stepTap_spec h now hs
    exact ⟨hp.watched hw, hlt⟩

end Responder

open Responder

namespace Course

variable {σ : Type} [Host σ] {c c' : Course σ}

theorem Step.watched (s : Step c c') (h : Orderly c.responder) (hw : Watched c.responder) :
    Watched c'.responder := by
  cases s with
  | pass => exact hw
  | host | journal => exact ⟨hw.turns, hw.buffer, hw.fits, hw.unopened⟩
  | add i => exact (Proceeds.add h c.now i).watched hw
  | close i => exact (Proceeds.close i _).watched hw
  | closeAll => exact (Proceeds.closeAll _).watched hw
  | @stir id f hf =>
    obtain ⟨n, hn⟩ : ∃ n, ∀ t, c.responder.taps.get? id = some t →
        (f t.advertiser).work ≤ t.advertiser.work + n := by
      cases ht : c.responder.taps.get? id with
      | none => exact ⟨0, by simp⟩
      | some t =>
        refine ⟨(f t.advertiser).work, fun x hx => ?_⟩
        obtain rfl := Option.some.inj hx
        exact Nat.le_add_left _ _
    exact (Proceeds.modifyTap hn).watched hw
  | startWatch => exact hw.startWatch c.now
  | arrive x => exact (Proceeds.setWatch (LinkWatch.grows_arrive x _)).watched hw
  | process d => exact (Proceeds.processBuffer h c.now _ _).watched hw
  | shutdown => exact hw.shutdown
  | turn hr => exact (hw.step? h hr).1

theorem Reachable.watched (h : Reachable c) : Watched c.responder := by
  induction h with
  | new => exact ⟨rfl, List.length_replicate, nofun, fun _ => Or.inr ⟨rfl, by simp⟩⟩
  | step h s ih => exact s.watched h.attained.orderly ih

end Course

end RouterAdvert
