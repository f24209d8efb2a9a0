import RouterAdvert.Proofs.Responder.Secluded
import RouterAdvert.Proofs.Responder.Watched

/-! What becomes of each event that the watch handles: which receives it issues, what it asks for,
and whether the program goes on. -/
namespace RouterAdvert

namespace Netlink.Request

/-- The first requests for all links, numbered from one on. -/
def dumps (n : Nat) : List Bytes := (List.range n).map fun k => links.encode (k + 1).toUInt32

theorem dumps_succ (n : Nat) : dumps (n + 1) = dumps n ++ [links.encode (n + 1).toUInt32] := by
  simp [dumps, List.range_succ]

end Netlink.Request

namespace LinkWatch.Event

def isBegin : Event → Bool
  | begin => true
  | _ => false

def isShutdown : Event → Bool
  | shutdown => true
  | _ => false

/-- Whether announcements were lost. -/
def isOverrun : Event → Bool
  | received (.error e) => e = .system Errno.noBufferSpace
  | _ => false

/-- Whether links are asked for when the event is handled. -/
def asks (e : Event) : Bool := e.isBegin || e.isOverrun

theorem isBegin_eq_true {e : Event} : e.isBegin = true ↔ e = .begin := by
  cases e <;> simp [isBegin]

theorem isBegin_of_isReceived {e : Event} (h : e.isReceived = true) : e.isBegin = false := by
  cases e <;> simp_all [isReceived, isBegin]

/-- The events before the first shutdown. -/
def untilShutdown (es : List Event) : List Event := es.takeWhile (!·.isShutdown)

theorem untilShutdown_of_not_mem {es : List Event} (h : .shutdown ∉ es) :
    untilShutdown es = es := by
  induction es with
  | nil => rfl
  | cons e es ih =>
    obtain ⟨he, hes⟩ := not_or.mp (mt List.mem_cons.mpr h)
    cases e with
    | shutdown => exact absurd rfl he
    | begin | received => exact congrArg (List.cons _) (ih hes)

theorem untilShutdown_append_of_mem {es : List Event} (h : .shutdown ∈ es) (more : List Event) :
    untilShutdown (es ++ more) = untilShutdown es := by
  induction es with
  | nil => cases h
  | cons e es ih =>
    cases e with
    | shutdown => rfl
    | begin | received =>
      have hes : .shutdown ∈ es := by simpa using h
      exact congrArg (List.cons _) (ih hes)

end LinkWatch.Event

namespace Responder

open Netlink LinkWatch

variable {σ : Type} {P : σ → Prop} {q q' : Responder σ}

/-- What a request for links, and the receive after it, come to. -/
inductive Asked (q q' : Responder σ) : Prop
  | closed (ho : q.watch.isOpen = false)
    (hw : q'.watch = { q.watch with sequence := q.watch.sequence + 1 })
    (hr : q'.journal.requests = q.journal.requests) (hh : q'.halt = some (.exited 1))
  | failed {errno : Int32} (ho : q.watch.isOpen = true) (he : errno ≠ 0)
    (hw : q'.watch = { q.watch with sequence := q.watch.sequence + 1 })
    (hr : q'.journal.requests =
      q.journal.requests ++ [(Request.links.encode q.watch.sequence, errno)])
    (hh : q'.halt = some (.exited 1))
  | sent (ho : q.watch.isOpen = true)
    (hw : Issues 1 { q.watch with sequence := q.watch.sequence + 1 } q'.watch)
    (hr : q'.journal.requests = q.journal.requests ++ [(Request.links.encode q.watch.sequence, 0)])
    (hh : q'.halt = none)

/-- What becomes of an event of the watch. -/
inductive Handles (q : Responder σ) : Event → Responder σ → Prop
  | ignores (x : Except ErrorCode Nat) (hs : q.watch.stopped = true) : Handles q (.received x) q
  | begins {q' : Responder σ} (h : Asked q q') : Handles q .begin q'
  | overruns {q' : Responder σ} (hs : q.watch.stopped = false) (h : Asked q q') :
    Handles q (.received (.error (.system Errno.noBufferSpace))) q'
  | fails {q' : Responder σ} {e : ErrorCode} (hs : q.watch.stopped = false)
    (he : e ≠ .system Errno.noBufferSpace) (hw : q'.watch = q.watch)
    (hr : q'.journal.requests = q.journal.requests) (hh : q'.halt = some (.exited 1)) :
    Handles q (.received (.error e)) q'
  | hears {q' : Responder σ} (n : Nat) (hs : q.watch.stopped = false)
    (hr : q'.journal.requests = q.journal.requests)
    (hw : q'.halt = none ∧ Issues 1 q.watch q'.watch ∨ q'.halt ≠ none ∧ q'.watch = q.watch) :
    Handles q (.received (.ok n)) q'
  | stops {q' : Responder σ} (hw : q'.watch = { q.watch.close with stopped := true })
    (hr : q'.journal.requests = q.journal.requests) (hh : q'.halt = q.halt)
    (ht : q'.taps.size = q.taps.size) : Handles q .shutdown q'

/-- Nothing but the ends of receives comes of an event. -/
theorem Handles.mailbox {e : Event} (h : Handles q e q') :
    ∃ es, q'.watch.mailbox = q.watch.mailbox ++ es ∧ ∀ x ∈ es, x.isReceived = true := by
  have hnone {r : Responder σ} (hw : r.watch.mailbox = q.watch.mailbox) :
      ∃ es, r.watch.mailbox = q.watch.mailbox ++ es ∧ ∀ x ∈ es, x.isReceived = true :=
    ⟨[], by simpa using hw⟩
  have hasked {r : Responder σ} (ha : Asked q r) :
      ∃ es, r.watch.mailbox = q.watch.mailbox ++ es ∧ ∀ x ∈ es, x.isReceived = true := by
    cases ha with
    | closed _ hw | failed _ _ hw => exact hnone (congrArg LinkWatch.mailbox hw :)
    | sent _ hw => exact hw.mailbox
  cases h with
  | ignores => exact hnone rfl
  | begins ha | overruns _ ha => exact hasked ha
  | fails _ _ hw => exact hnone (congrArg _ hw)
  | hears n hs hr hw =>
    rcases hw with ⟨-, hw⟩ | ⟨-, hw⟩
    · exact hw.mailbox
    · exact hnone (congrArg _ hw)
  | stops hw =>
    refine ⟨_, (congrArg LinkWatch.mailbox hw :), fun x hx => ?_⟩
    rw [List.eq_of_mem_replicate hx]
    rfl

theorem receiveLinks_of_halt (hh : q.halt = none) :
    q.receiveLinks = q.setWatch q.watch.receive := by
  simp [receiveLinks, hh]

variable [Host σ]

theorem asked (now : Nat) (hh : q.halt = none) : Asked q (q.requestLinks now).receiveLinks := by
  cases ho : q.watch.isOpen with
  | false => refine .closed ho ?_ ?_ ?_ <;> simp [requestLinks, ho, receiveLinks, giveUp]
  | true =>
    have sent {r : Responder σ} (he : q.requestLinks now = r)
        (hw : Issues 0 { q.watch with sequence := q.watch.sequence + 1 } r.watch)
        (hr : r.journal = q.journal.record ⟨now, none⟩
          (watchUse (.send (Request.links.encode q.watch.sequence)) 0))
        (hn : r.halt = q.halt) : Asked q (q.requestLinks now).receiveLinks := by
      rw [he, receiveLinks_of_halt (hn.trans hh)]
      exact .sent ho (hw.trans (issues_receive _))
        ((congrArg _ hr).trans (Journal.requests_record ..)) (hn.trans hh)
    by_cases he : Host.watchErrno .send q.host = 0
    · let counted : Responder σ := { q with
        watch.sequence := q.watch.sequence + 1
        journal := q.journal.record ⟨now, none⟩
          (watchUse (.send (Request.links.encode q.watch.sequence)) 0) }
      cases ha : Host.announceAll q.watch.sequence q.host with
      | none =>
        exact sent (r := counted)
          (by simp [requestLinks, ho, he, ha, ErrorCode.ofErrno?, record, counted])
          ⟨⟨[], by simp [counted]⟩, rfl, rfl, rfl, rfl⟩ rfl rfl
      | some d =>
        exact sent (r := counted.arrive (.ok d))
          (by simp [requestLinks, ho, he, ha, ErrorCode.ofErrno?, record, counted])
          (issues_arrive (.ok d) counted.watch) rfl rfl
    · refine .failed ho he ?_ ?_ ?_ <;>
        simp [requestLinks, ho, receiveLinks, giveUp, ErrorCode.ofErrno?, he, record, watchUse,
          Entry.request?]

/-- A start either fails, perhaps with the socket open, or is there to be handled. -/
theorem startWatch_spec (now : Nat) (q : Responder σ) :
    (q.startWatch now).1.journal.requests = q.journal.requests ∧
      ((q.startWatch now).2 = false ∧
          (∃ o, (q.startWatch now).1.watch = { q.watch with isOpen := o }) ∨
        (q.startWatch now).2 = true ∧
          (q.startWatch now).1.watch = { q.watch with isOpen := true }.post .begin) := by
  have hrecord (call : SocketCall) (errno : Int32) (j : Journal) (hc : ∀ d, call ≠ .send d) :
      (j.record ⟨now, none⟩ (watchUse call errno)).requests = j.requests := by
    rw [Journal.requests_record]
    cases call with
    | send d => exact absurd rfl (hc d)
    | _ => exact List.append_nil _
  dsimp only [startWatch]
  split
  · refine ⟨?_, Or.inl ⟨rfl, q.watch.isOpen, rfl⟩⟩
    exact (Journal.requests_note ..).trans (hrecord _ _ _ (by simp))
  · split
    · refine ⟨?_, Or.inl ⟨rfl, true, rfl⟩⟩
      exact (Journal.requests_note ..).trans
        ((hrecord _ _ _ (by simp)).trans (hrecord _ _ _ (by simp)))
    · exact ⟨(hrecord _ _ _ (by simp)).trans (hrecord _ _ _ (by simp)), Or.inr ⟨rfl, rfl⟩⟩

theorem handles_handleWatch (hP : Secluded P) (now : Nat) (hh : q.halt = none) (hq : P q.host)
    (e : Event) : P (q.handleWatch now e).host ∧ Handles q e (q.handleWatch now e) := by
  have hask (r : Responder σ) : (r.requestLinks now).receiveLinks.host = r.host :=
    (host_receiveLinks _).trans (host_requestLinks now r)
  cases e with
  | begin => exact ⟨(hask q).symm ▸ hq, .begins (asked now hh)⟩
  | shutdown =>
    let closed : Responder σ := Responder.record ⟨now, none⟩ (watchUse .close 0)
      { q.setWatch q.watch.close with watch.stopped := true }
    have hclose : Undisturbed P closed (q.stopWatch now) := .closeAll closed
    have hrequests : closed.journal.requests = q.journal.requests :=
      (Journal.requests_record ..).trans (List.append_nil _)
    refine ⟨hclose.host hq, .stops hclose.watch ((hclose.requests hq).trans hrequests) ?_ ?_⟩
    · exact (cancelAll_watch _ _).2
    · exact Orderly.size_cancelAll _ _
  | received x =>
    cases hs : q.watch.stopped with
    | true =>
      have he : q.handleWatch now (.received x) = q := if_pos hs
      rw [he]
      exact ⟨hq, .ignores x hs⟩
    | false =>
      cases x with
      | error e =>
        by_cases he : e = .system Errno.noBufferSpace
        · subst he
          let noted := q.note ⟨now, none⟩ .linksOverrun
          have heq : q.handleWatch now (.received (.error (.system Errno.noBufferSpace))) =
              (noted.requestLinks now).receiveLinks := by
            simp [handleWatch, linksReceived, hs, noted]
          have hrequests : noted.journal.requests = q.journal.requests := Journal.requests_note ..
          rw [heq]
          refine ⟨(hask noted).symm ▸ hq, .overruns hs ?_⟩
          cases asked now (q := noted) hh with
          | closed ho hw hr hh => exact .closed ho hw (hr.trans hrequests) hh
          | failed ho he hw hr hh => exact .failed ho he hw (hrequests ▸ hr) hh
          | sent ho hw hr hh => exact .sent ho hw (hrequests ▸ hr) hh
        · have heq : q.handleWatch now (.received (.error e)) =
              q.giveUp ⟨now, none⟩ (.watchFailed e) := by
            simp [handleWatch, linksReceived, hs, he]
          rw [heq]
          exact ⟨hq, .fails hs he rfl (Journal.requests_write ..) rfl⟩
      | ok n =>
        have heq : q.handleWatch now (.received (.ok n)) =
            (q.processBuffer now q.watch.buffer n).receiveLinks := by
          simp [handleWatch, linksReceived, hs]
        have hall := Undisturbed.processBuffer hP now q.watch.buffer n q
        rw [heq]
        generalize q.processBuffer now q.watch.buffer n = r at hall
        refine ⟨(host_receiveLinks r).symm ▸ hall.host hq, ?_⟩
        by_cases hn : r.halt = none
        · rw [receiveLinks_of_halt hn]
          refine .hears n hs (hall.requests hq) (Or.inl ⟨hn, ?_⟩)
          have hi : Issues 1 r.watch r.watch.receive := issues_receive r.watch
          rw [hall.watch] at hi
          exact hall.watch ▸ hi
        · have hend : r.receiveLinks = r := if_pos (Option.isSome_iff_ne_none.mpr hn)
          rw [hend]
          exact .hears n hs (hall.requests hq) (Or.inr ⟨hn, hall.watch⟩)

end Responder

end RouterAdvert
