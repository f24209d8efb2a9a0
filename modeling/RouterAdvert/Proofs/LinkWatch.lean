import RouterAdvert.LinkWatch
import RouterAdvert.Proofs.Loop
import RouterAdvert.Proofs.Netlink.Datagram

/-! What the socket of the watch does: receives that end are reported in the mailbox, and nothing
else is; how many receives are outstanding; and how much each operation adds to the work. -/
namespace RouterAdvert.LinkWatch

namespace Event

def isReceived : Event → Bool
  | received _ => true
  | _ => false

end Event

theorem work_eq (w : LinkWatch) :
    w.work = total Event.weight w.mailbox + total arrivalWeight w.inbox + w.waiting := rfl

theorem one_le_arrivalWeight {α : Type} (x : Except ErrorCode α) : 1 ≤ arrivalWeight x := by
  have hd : 1 ≤ datagramWeight := by
    unfold datagramWeight
    omega
  cases x with
  | ok => exact hd
  | error e =>
    unfold arrivalWeight
    dsimp only
    split <;> omega

/-- No receive that has ended filled more than the buffer. -/
def Fits (w : LinkWatch) : Prop :=
  ∀ n, .received (.ok n) ∈ w.mailbox → n ≤ Netlink.Query.bufferSize

theorem Fits.post {w w' : LinkWatch} {e : Event} (h : w.Fits) (hm : w'.mailbox = w.mailbox ++ [e])
    (he : ∀ n, e = .received (.ok n) → n ≤ Netlink.Query.bufferSize) : w'.Fits := by
  intro n hn
  rw [hm] at hn
  exact (List.mem_append.mp hn).elim (h n) fun hn => he n (List.mem_singleton.mp hn).symm

/-- Nothing but the ends of receives has been added, and no more than some work; nothing at all if
the socket is not open and no receive waits. -/
structure Grows (n : Nat) (w w' : LinkWatch) : Prop where
  mailbox : ∃ es, w'.mailbox = w.mailbox ++ es ∧ ∀ e ∈ es, e.isReceived = true
  fits : w.Fits → w'.Fits
  buffer : w'.buffer.length = w.buffer.length
  isOpen : w'.isOpen = w.isOpen
  stopped : w'.stopped = w.stopped
  idle : w.isOpen = false → w.waiting = 0 → w'.waiting = 0 ∧ w'.mailbox = w.mailbox
  work : w'.work ≤ w.work + n

namespace Grows

variable {m n : Nat} {w w' w'' : LinkWatch}

theorem refl (n : Nat) (w : LinkWatch) : Grows n w w :=
  ⟨⟨[], by simp⟩, id, rfl, rfl, rfl, fun _ hz => ⟨hz, rfl⟩, Nat.le_add_right _ _⟩

theorem trans (h : Grows m w w') (h' : Grows n w' w'') : Grows (m + n) w w'' := by
  obtain ⟨es, hes, hr⟩ := h.mailbox
  obtain ⟨xs, hxs, hr'⟩ := h'.mailbox
  refine ⟨⟨es ++ xs, ?_, ?_⟩, h'.fits ∘ h.fits, h'.buffer.trans h.buffer,
    h'.isOpen.trans h.isOpen, h'.stopped.trans h.stopped, fun ho hz => ?_, ?_⟩
  · rw [hxs, hes, List.append_assoc]
  · exact fun e he => (List.mem_append.mp he).elim (hr e) (hr' e)
  · obtain ⟨hz', hm⟩ := h.idle ho hz
    obtain ⟨hz'', hm'⟩ := h'.idle (h.isOpen.trans ho) hz'
    exact ⟨hz'', hm'.trans hm⟩
  · have hw := h.work
    have hw' := h'.work
    omega

end Grows

/-- What has arrived is handed over, and the end of a receive reported. -/
theorem deliver_spec (x : Except ErrorCode Bytes) (w : LinkWatch) :
    ∃ r b, w.deliver x = { w with mailbox := w.mailbox ++ [.received r], buffer := b } ∧
      b.length = w.buffer.length ∧ arrivalWeight r = arrivalWeight x ∧
      ∀ n, r = .ok n → n ≤ Netlink.Query.bufferSize := by
  cases x with
  | error e => exact ⟨.error e, w.buffer, rfl, rfl, rfl, nofun⟩
  | ok d =>
    refine ⟨.ok _, _, rfl, Netlink.Query.length_overlay w.buffer d, rfl, fun n hn => ?_⟩
    exact Except.ok.inj hn ▸ Nat.min_le_right _ _

theorem Fits.deliver {w w' : LinkWatch} {r : Except ErrorCode Nat} (h : w.Fits)
    (hm : w'.mailbox = w.mailbox ++ [.received r])
    (hr : ∀ n, r = .ok n → n ≤ Netlink.Query.bufferSize) : w'.Fits :=
  h.post hm fun n hn => hr n (Event.received.inj hn)

theorem Fits.close {w : LinkWatch} (h : w.Fits) : w.close.Fits := fun n hn =>
  (List.mem_append.mp hn).elim (h n) fun hn => by cases List.eq_of_mem_replicate hn

theorem grows_arrive (x : Except ErrorCode Bytes) (w : LinkWatch) :
    Grows (arrivalWeight x) w (w.arrive x) := by
  unfold arrive
  split
  · rename_i hz
    refine ⟨⟨[], by simp⟩, id, rfl, rfl, rfl, fun _ _ => ⟨hz, rfl⟩, ?_⟩
    simp only [work_eq, total_append, total_cons, total_nil]
    omega
  · rename_i hz
    obtain ⟨r, b, hd, hb, hr, hn⟩ := deliver_spec x { w with waiting := w.waiting - 1 }
    rw [hd]
    refine ⟨⟨_, rfl, by simp [Event.isReceived]⟩, fun h => h.deliver rfl hn, hb, rfl, rfl,
      fun _ hz' => absurd hz' hz, ?_⟩
    simp only [work_eq, total_append, total_cons, total_nil, Event.weight, hr]
    omega

/-- A receive on an open socket waits, or takes something over that has arrived. -/
theorem grows_receive {w : LinkWatch} (ho : w.isOpen = true) : Grows 1 w w.receive := by
  have hidle {p : Prop} (hc : w.isOpen = false) : p := by
    rw [ho] at hc
    cases hc
  unfold receive
  split
  · rename_i hn
    simp [ho] at hn
  · split
    · refine ⟨⟨[], by simp⟩, id, rfl, rfl, rfl, fun hc _ => hidle hc, ?_⟩
      simp only [work_eq]
      omega
    · rename_i x rest hx
      obtain ⟨r, b, hd, hb, hr, hn⟩ := deliver_spec x { w with inbox := rest }
      rw [hd]
      refine ⟨⟨_, rfl, by simp [Event.isReceived]⟩, fun h => h.deliver rfl hn, hb, rfl, rfl,
        fun hc _ => hidle hc, ?_⟩
      simp only [work_eq, total_append, total_cons, total_nil, Event.weight, hr, hx]
      omega

theorem work_close (w : LinkWatch) : w.close.work ≤ w.work := by
  have hc : total Event.weight (List.replicate w.waiting (.received (.error .canceled))) =
      w.waiting := by
    rw [total_of_forall fun e he => congrArg Event.weight (List.eq_of_mem_replicate he),
      List.length_replicate]
    exact Nat.mul_one _
  simp only [work_eq, close, total_append, total_nil, hc]
  omega

def outstanding (w : LinkWatch) : Nat := w.waiting + w.mailbox.countP (·.isReceived)

/-- Nothing has happened but that `n` receives were issued, and that some have ended. -/
structure Issues (n : Nat) (w w' : LinkWatch) : Prop where
  mailbox : ∃ es, w'.mailbox = w.mailbox ++ es ∧ ∀ e ∈ es, e.isReceived = true
  isOpen : w'.isOpen = w.isOpen
  stopped : w'.stopped = w.stopped
  sequence : w'.sequence = w.sequence
  outstanding : w'.outstanding = w.outstanding + n

theorem Issues.trans {m n : Nat} {w w' w'' : LinkWatch} (h : Issues m w w') (h' : Issues n w' w'') :
    Issues (m + n) w w'' := by
  obtain ⟨es, hes, hr⟩ := h.mailbox
  obtain ⟨xs, hxs, hr'⟩ := h'.mailbox
  refine ⟨⟨es ++ xs, ?_, fun e he => (List.mem_append.mp he).elim (hr e) (hr' e)⟩,
    h'.isOpen.trans h.isOpen, h'.stopped.trans h.stopped, h'.sequence.trans h.sequence, ?_⟩
  · rw [hxs, hes, List.append_assoc]
  · rw [h'.outstanding, h.outstanding, Nat.add_assoc]

/-- Handing something over ends a receive. -/
theorem issues_deliver (x : Except ErrorCode Bytes) (w : LinkWatch) : Issues 1 w (w.deliver x) := by
  obtain ⟨r, b, hd, -⟩ := deliver_spec x w
  rw [hd]
  refine ⟨⟨_, rfl, by simp [Event.isReceived]⟩, rfl, rfl, rfl, ?_⟩
  simp [outstanding, Event.isReceived, Nat.add_assoc]

/-- What arrives ends a receive that waits, if there is one. -/
theorem issues_arrive (x : Except ErrorCode Bytes) (w : LinkWatch) : Issues 0 w (w.arrive x) := by
  unfold arrive
  split
  · exact ⟨⟨[], by simp⟩, rfl, rfl, rfl, rfl⟩
  · rename_i hz
    have hd := issues_deliver x { w with waiting := w.waiting - 1 }
    refine ⟨hd.mailbox, hd.isOpen, hd.stopped, hd.sequence, hd.outstanding.trans ?_⟩
    simp only [outstanding]
    omega

theorem issues_receive (w : LinkWatch) : Issues 1 w w.receive := by
  unfold receive
  split
  · refine ⟨⟨_, rfl, by simp [Event.isReceived]⟩, rfl, rfl, rfl, ?_⟩
    simp [outstanding, post, Event.isReceived, Nat.add_assoc]
  · split
    · refine ⟨⟨[], by simp⟩, rfl, rfl, rfl, ?_⟩
      simp only [outstanding]
      omega
    · rename_i x rest _
      have hd := issues_deliver x { w with inbox := rest }
      exact ⟨hd.mailbox, hd.isOpen, hd.stopped, hd.sequence, hd.outstanding⟩

end RouterAdvert.LinkWatch

namespace RouterAdvert.Netlink.Message

/-- Every message in a buffer takes up at least the room for its header. -/
theorem length_walk (buffer : Bytes) (remaining : UInt64) :
    headerSize * (walk buffer remaining).visited.length ≤ buffer.length := by
  fun_induction walk buffer remaining with
  | case1 buffer remaining he => simpa using (stands he).1
  | case2 => exact Nat.zero_le _
  | case3 buffer remaining he ih =>
    obtain ⟨hh, -, hsize, -, hz⟩ := goes_on he
    have hl : headerSize ≤ (mk buffer).stride.toNat :=
      Nat.le_trans (UInt32.le_iff_toNat_le.mp hsize) (length_le_stride hz)
    rw [List.length_drop] at ih
    rw [Walk.visit, List.length_cons, Nat.mul_succ]
    omega

/-- A full buffer holds no more messages than the limit. -/
theorem length_inBuffer_le {buffer : Bytes} (h : buffer.length = Query.bufferSize) (n : Nat) :
    (inBuffer buffer n).length ≤ LinkWatch.messageLimit := by
  have hl : headerSize * (inBuffer buffer n).length ≤ buffer.length := length_walk buffer _
  simp only [h, headerSize, Query.bufferSize, LinkWatch.messageLimit] at *
  omega

end RouterAdvert.Netlink.Message
