import RouterAdvert.Proofs.Advertiser.Work
import RouterAdvert.Proofs.LinkWatch
import RouterAdvert.Proofs.Responder.Course

/-! How much work each operation of the responder adds. It adds to what waits for the watch nothing
but the ends of receives, and each event leads to less work than it weighs, so that every turn takes
some of the work away. -/
namespace RouterAdvert.Responder

open Advertiser

variable {σ : Type}

theorem count_watch_enroll (id : TapId) (k : Nat) (r : Responder σ) :
    (r.enroll (.tap id) k).schedule.count .watch = r.schedule.count .watch :=
  count_enroll_of_ne (b := .watch) (by simp) _ _

theorem work_eq [Host σ] (r : Responder σ) :
    r.work = total (·.advertiser.work) r.taps.values + r.watch.work + r.registry.size := rfl

/-- One place in the schedule for each event that waits for the watch. -/
def WatchTurns (r : Responder σ) : Prop := r.schedule.count .watch = r.watch.mailbox.length

/-- Events that are added get their places. -/
theorem WatchTurns.setWatch {r : Responder σ} (h : r.WatchTurns) {w : LinkWatch}
    {es : List LinkWatch.Event} (hw : w.mailbox = r.watch.mailbox ++ es) :
    (r.setWatch w).WatchTurns := by
  have hle : r.schedule.count .watch ≤ w.mailbox.length := by
    rw [h, hw, List.length_append]
    exact Nat.le_add_right _ _
  exact (count_enroll_self .watch _ _).trans (Nat.max_eq_left hle)

/-- What an operation can come to that adds no more than some work: the watch goes on as before. -/
structure Proceeds [Host σ] (n : Nat) (r r' : Responder σ) : Prop where
  watch : ∃ m, LinkWatch.Grows m r.watch r'.watch
  turns : r.WatchTurns → r'.WatchTurns
  work : r'.work ≤ r.work + n

namespace Proceeds

variable [Host σ] {m n : Nat} {r r' r'' : Responder σ}

theorem trans (h : Proceeds m r r') (h' : Proceeds n r' r'') : Proceeds (m + n) r r'' := by
  obtain ⟨i, hi⟩ := h.watch
  obtain ⟨j, hj⟩ := h'.watch
  refine ⟨⟨_, hi.trans hj⟩, h'.turns ∘ h.turns, ?_⟩
  have hw := h.work
  have hw' := h'.work
  omega

theorem mono (h : Proceeds m r r') (hn : m ≤ n) : Proceeds n r r' :=
  ⟨h.watch, h.turns, Nat.le_trans h.work (Nat.add_le_add_left hn _)⟩

/-- Nothing has happened to the watch. -/
theorem of_same (hw : r'.watch = r.watch)
    (hs : r'.schedule.count .watch = r.schedule.count .watch) (hn : r'.work ≤ r.work + n) :
    Proceeds n r r' := by
  refine ⟨⟨0, hw ▸ .refl 0 r.watch⟩, fun ht => ?_, hn⟩
  rw [WatchTurns, hs, hw]
  exact ht

theorem refl (r : Responder σ) : Proceeds 0 r r := of_same rfl rfl (Nat.le_refl _)

theorem of_rfl (hw : r'.watch = r.watch) (hs : r'.schedule = r.schedule) (ht : r'.taps = r.taps)
    (hr : r'.registry = r.registry) : Proceeds 0 r r' := by
  refine of_same hw (by rw [hs]) ?_
  rw [work_eq, work_eq, hw, ht, hr]
  omega

theorem note (stamp : Stamp) (x : Notice) (r : Responder σ) : Proceeds 0 r (r.note stamp x) :=
  of_rfl rfl rfl rfl rfl

theorem setWatch {w : LinkWatch} (h : LinkWatch.Grows n r.watch w) :
    Proceeds n r (r.setWatch w) := by
  refine ⟨⟨n, h⟩, fun ht => ?_, ?_⟩
  · obtain ⟨es, hes, -⟩ := h.mailbox
    exact ht.setWatch hes
  · have hw := h.work
    simp only [work_eq, Responder.setWatch, enroll]
    omega

theorem modifyTap {id : TapId} {f : Advertiser → Advertiser}
    (hf : ∀ t, r.taps.get? id = some t → (f t.advertiser).work ≤ t.advertiser.work + n) :
    Proceeds n r (r.modifyTap id f) := by
  cases ht : r.taps.get? id with
  | none =>
    have hr : r.modifyTap id f = r := by simp [Responder.modifyTap, ht]
    rw [hr]
    exact (refl r).mono (Nat.zero_le n)
  | some t =>
    rw [modifyTap_of_some ht]
    refine of_same rfl (count_watch_enroll _ _ _) ?_
    have hs := Table.total_insert_of_some (·.advertiser.work) ht
      { t with advertiser := f t.advertiser }
    have hn := hf t ht
    simp only [work_eq, setTap, enroll] at *
    omega

theorem work_cancel (a : Advertiser) : a.cancel.work ≤ a.work + 1 := by
  simp only [Advertiser.work_eq, Advertiser.cancel, post, total_append, total_cons, total_nil,
    Event.weight]
  omega

theorem work_start (x : ExitHandler) (a : Advertiser) : (a.start x).work ≤ a.work + 5 := by
  simp only [Advertiser.work_eq, Advertiser.start, post, total_append, total_cons, total_nil,
    Event.weight]
  omega

theorem cancelAll (ids : List TapId) (r : Responder σ) :
    Proceeds ids.length r (Orderly.cancelAll ids r) := by
  induction ids generalizing r with
  | nil => exact refl r
  | cons id ids ih =>
    have hc : Proceeds 1 r (r.modifyTap id .cancel) := modifyTap fun _ _ => work_cancel _
    rw [List.length_cons, Nat.add_comm]
    exact hc.trans (ih _)

/-- A tap that goes out of service leaves room for its cancellation. -/
theorem close (i : Int32) (r : Responder σ) : Proceeds 0 r (r.close i) := by
  cases hi : r.registry.get? i with
  | none =>
    have hr : r.close i = r := by simp [Responder.close, hi]
    rw [hr]
    exact refl r
  | some id =>
    have hc := cancelAll [id] { r with registry := r.registry.erase i }
    have hlt : (r.registry.erase i).size < r.registry.size :=
      Table.size_erase_lt (by rw [hi]; rfl)
    rw [Orderly.close_of_some hi]
    refine ⟨hc.watch, hc.turns, ?_⟩
    have hw := hc.work
    simp only [work_eq, List.length_singleton] at *
    omega

theorem closeAll (r : Responder σ) : Proceeds 0 r r.closeAll := by
  have hc := cancelAll r.registry.values { r with registry := .empty }
  refine ⟨hc.watch, hc.turns, ?_⟩
  have hw : r.closeAll.work ≤ ({ r with registry := .empty } : Responder σ).work +
      r.registry.values.length := hc.work
  have hz : (Table.empty : Table Int32 TapId).size = 0 := rfl
  have hl : r.registry.values.length = r.registry.size := List.length_map _
  simp only [work_eq] at *
  omega

/-- A new tap is started, the one before it is canceled, and one more is in service. -/
theorem install {now : Nat} {i : Int32} {t : Tap} {p : Profile} (h : Orderly r)
    (hp : t.advertiser = { profile := p }) :
    Proceeds LinkWatch.messageWeight r (r.install now i t) := by
  have hput : Proceeds 1 r
      ({ r with registry := r.registry.insert i (r.freshId i) }.setTap (r.freshId i) t) := by
    refine of_same rfl (count_watch_enroll _ _ _) ?_
    have hs := Table.total_insert_of_none (·.advertiser.work) (h.tended.freshId i) t
    have hz : t.advertiser.work = 0 := by rw [hp]; rfl
    have hr := r.registry.size_insert_le i (r.freshId i)
    simp only [work_eq, setTap, enroll] at *
    omega
  have hreplace (q : Responder σ) (previous : Option TapId) :
      Proceeds 1 q (Orderly.replace now t.link.name previous q) := by
    cases previous with
    | none => exact (refl q).mono (Nat.zero_le 1)
    | some x =>
      have hn : Proceeds 0 q (q.note ⟨now, none⟩ (.tapReplaced t.link.name)) := note _ _ q
      exact (hn.trans (modifyTap fun _ _ => work_cancel _)).mono (Nat.le_refl 1)
  have hstart (q : Responder σ) : Proceeds 5 q (q.modifyTap (r.freshId i) (.start .deregister)) :=
    modifyTap fun _ _ => work_start .deregister _
  rw [Orderly.install_eq]
  exact (hput.trans (hreplace _ _)).trans (hstart _)

theorem build (now : Nat) (i : Int32) (r : Responder σ) : Proceeds 0 r (r.build now i).1 := by
  have hf (stamp : Stamp) (t : Tap) (q : Responder σ) : Proceeds 0 q (q.noteFindings stamp t) := by
    dsimp only [noteFindings]
    split <;> split <;> exact of_rfl rfl rfl rfl rfl
  dsimp only [Responder.build]
  split
  · exact of_rfl rfl rfl rfl rfl
  · split
    · exact of_rfl rfl rfl rfl rfl
    · exact of_rfl rfl rfl rfl rfl
    · split
      · exact of_rfl rfl rfl rfl rfl
      · refine (Proceeds.trans ?_ (hf _ _ _) : Proceeds (0 + 0) r _)
        exact of_rfl rfl rfl rfl rfl

theorem add (h : Orderly r) (now : Nat) (i : Int32) :
    Proceeds LinkWatch.messageWeight r (r.add now i).1 := by
  obtain ⟨ha, ht⟩ := r.build_spec now i
  have hb := build now i r
  rw [Responder.add_eq]
  cases hr : r.build now i with
  | mk q x =>
    rw [hr] at ha ht hb
    have hq : Orderly q := h.aside ha
    cases x with
    | ok t =>
      obtain ⟨p, hp⟩ := ht t rfl
      exact (hb.trans (install hq hp)).mono (Nat.le_of_eq (Nat.zero_add _))
    | error o =>
      have hz : Proceeds 0 r q := hb
      refine Proceeds.mono (m := 0) ?_ (Nat.zero_le _)
      cases o with
      | impossibleRoute =>
        have hh : Proceeds 0 q { q with halt := some .failed } := of_rfl rfl rfl rfl rfl
        exact hz.trans hh
      | refused e => cases e <;> exact hz.trans (note _ _ q)

theorem processLink (h : Orderly r) (now : Nat) (x : Netlink.Message) :
    Proceeds LinkWatch.messageWeight r (r.processLink now x) := by
  have hr : Proceeds LinkWatch.messageWeight r r := (refl r).mono (Nat.zero_le _)
  have hn (y : Notice) : Proceeds 0 r (r.note ⟨now, none⟩ y) := note _ _ r
  have ho (y : Notice) : Orderly (r.note ⟨now, none⟩ y) := h.aside (aside_note _ y r)
  dsimp only [Responder.processLink, Factory.processLink]
  split
  · exact hr
  · split
    · exact hr
    · split
      · exact (hn _).mono (Nat.zero_le _)
      · split
        · exact ((hn _).trans (close _ _)).mono (Nat.zero_le _)
        · split
          · exact hr
          · exact ((hn _).trans (add (ho _) now _)).mono (Nat.le_of_eq (Nat.zero_add _))

theorem processMessage (h : Orderly r) (now : Nat) (x : Netlink.Message) :
    Proceeds LinkWatch.messageWeight r (r.processMessage now x) := by
  have hr : Proceeds LinkWatch.messageWeight r r := (refl r).mono (Nat.zero_le _)
  have hn (y : Notice) : Proceeds LinkWatch.messageWeight r (r.note ⟨now, none⟩ y) :=
    (note _ _ r).mono (Nat.zero_le _)
  dsimp only [Responder.processMessage, Factory.processMessage]
  split
  · exact processLink h now x
  · split
    · split
      · exact hr
      · exact hn _
    · split
      · exact hn _
      · exact hr

theorem processAll (h : Orderly r) (now : Nat) (xs : List Netlink.Message) :
    Proceeds (LinkWatch.messageWeight * xs.length) r (r.processAll now xs) := by
  unfold Responder.processAll Factory.processAll
  induction xs generalizing r with
  | nil => exact refl r
  | cons x xs ih =>
    have hx : Orderly (if r.halt.isSome then r else r.processMessage now x) ∧
        Proceeds LinkWatch.messageWeight r
          (if r.halt.isSome then r else r.processMessage now x) := by
      split
      · exact ⟨h, (refl r).mono (Nat.zero_le _)⟩
      · exact ⟨(kept_orderly now).processMessage h x, processMessage h now x⟩
    refine (hx.2.trans (ih hx.1)).mono ?_
    rw [List.length_cons, Nat.mul_succ]
    omega

theorem comeBack (e : Netlink.Message.Ending) (r : Responder σ) : Proceeds 0 r (r.comeBack e) := by
  unfold Responder.comeBack
  split
  · exact refl r
  · exact of_rfl rfl rfl rfl rfl

theorem processBuffer (h : Orderly r) (now : Nat) (buffer : Bytes) (count : Nat) :
    Proceeds (LinkWatch.messageWeight * (Netlink.Message.inBuffer buffer count).length) r
      (r.processBuffer now buffer count) :=
  (processAll h now _).trans (comeBack _ _)

/-- A request for links is answered by one datagram. Without a socket the program ends. -/
theorem requestLinks (now : Nat) (r : Responder σ) :
    Proceeds LinkWatch.datagramWeight r (r.requestLinks now) ∧
      (r.requestLinks now).watch.isOpen = r.watch.isOpen ∧
      ((r.requestLinks now).halt = none → r.watch.isOpen = true) := by
  -- The next number, with whatever is written into the journal.
  have hcount {q : Responder σ} (hw : q.watch = { r.watch with sequence := r.watch.sequence + 1 })
      (hs : q.schedule = r.schedule) (ht : q.taps = r.taps) (hr : q.registry = r.registry) :
      Proceeds 0 r q := by
    refine ⟨⟨0, ?_⟩, fun hturns => ?_, ?_⟩
    · rw [hw]
      exact ⟨⟨[], by simp⟩, id, rfl, rfl, rfl, fun _ hz => ⟨hz, rfl⟩, Nat.le_refl _⟩
    · rw [WatchTurns, hs, hw]
      exact hturns
    · rw [work_eq, work_eq, hw, ht, hr]
      exact Nat.le_refl _
  dsimp only [Responder.requestLinks]
  split
  · refine ⟨Proceeds.mono (hcount rfl rfl rfl rfl) (Nat.zero_le _), rfl, fun hh => ?_⟩
    cases hh
  · rename_i ho
    have ho : r.watch.isOpen = true := by simpa using ho
    split
    · exact ⟨Proceeds.mono (hcount rfl rfl rfl rfl) (Nat.zero_le _), rfl, fun _ => ho⟩
    · split
      · exact ⟨Proceeds.mono (hcount rfl rfl rfl rfl) (Nat.zero_le _), rfl, fun _ => ho⟩
      · rename_i d _
        have hg := LinkWatch.grows_arrive (.ok d) { r.watch with sequence := r.watch.sequence + 1 }
        refine ⟨?_, hg.isOpen, fun _ => ho⟩
        refine Proceeds.mono (m := 0 + LinkWatch.datagramWeight) ?_ (Nat.le_of_eq (Nat.zero_add _))
        refine Proceeds.trans ?_ (setWatch hg)
        exact hcount rfl rfl rfl rfl

theorem receiveLinks (h : r.halt = none → r.watch.isOpen = true) :
    Proceeds 1 r r.receiveLinks := by
  unfold Responder.receiveLinks
  split
  · exact (refl r).mono (Nat.zero_le 1)
  · rename_i hh
    exact setWatch (LinkWatch.grows_receive (h (by simpa using hh)))

end Proceeds

end RouterAdvert.Responder
