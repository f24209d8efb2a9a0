import RouterAdvert.Proofs.Netlink.Datagram

/-! How replies make up an answer. What counts are the messages to the question, one after another;
how they came in datagrams, and what other messages came between them, does not. -/
namespace RouterAdvert.Netlink

namespace Message

/-- Whether the message says that the question has been answered. -/
def Completes (m : Message) : Prop := m.type = done ∨ m.type = error ∧ m.errno = 0

/-- Whether the message says that the question has been refused. -/
def Refuses (m : Message) : Prop := m.type = error ∧ m.errno ≠ 0

def Concludes (m : Message) : Prop := m.Completes ∨ m.Refuses

/-- Whether the message says nothing at all. -/
def Idle (m : Message) : Prop := m.type = noop ∨ m.type = overrun

/-- What a message is to the question with this number. -/
inductive Role (sequence : UInt32) (m : Message) : Prop
  | passed (h : m.sequence ≠ sequence ∨ m.Idle)
  | completes (hs : m.sequence = sequence) (h : m.Completes)
  | refuses (hs : m.sequence = sequence) (h : m.Refuses)
  | contributes (hs : m.sequence = sequence) (hc : ¬m.Concludes) (hi : ¬m.Idle)

theorem role (sequence : UInt32) (m : Message) : Role sequence m := by
  by_cases hs : m.sequence = sequence
  · by_cases hc : m.Completes
    · exact .completes hs hc
    · by_cases hr : m.Refuses
      · exact .refuses hs hr
      · by_cases hi : m.Idle
        · exact .passed (Or.inr hi)
        · exact .contributes hs (not_or.mpr ⟨hc, hr⟩) hi
  · exact .passed (Or.inl hs)

theorem not_concludes_iff {m : Message} : ¬m.Concludes ↔ m.type ≠ done ∧ m.type ≠ error := by
  unfold Concludes Completes Refuses
  by_cases hz : m.errno = 0 <;> simp [hz]

theorem Idle.not_concludes {m : Message} (h : m.Idle) : ¬m.Concludes := by
  rw [not_concludes_iff]
  rcases h with h | h <;> rw [h] <;> decide

end Message

/-- The socket of a question can be used, and these are the replies to its request. -/
structure Exchange.Delivers (x : Exchange) (request : Bytes) (replies : List Reply) : Prop where
  opened : x.openErrno = 0
  bound : x.bindErrno = 0
  sent : x.sendErrno = 0
  received : x.replies request = replies

namespace Query

/-- The datagrams that are received before a receive fails, each one cut to the buffer. -/
def datagrams : List Reply → List Bytes
  | [] => []
  | .ok d :: rest => d.take bufferSize :: datagrams rest
  | .error e :: rest => if e = 0 then datagrams rest else []

/-- The error of the first receive that fails. -/
def failure : List Reply → ErrorCode
  | [] => .system Errno.wouldBlock
  | .ok _ :: rest => failure rest
  | .error e :: rest => if e = 0 then failure rest else .system e

/-- The messages that are received with this sequence number. -/
def addressed (sequence : UInt32) (replies : List Reply) : List Message :=
  ((datagrams replies).flatMap Message.ofDatagram).filter (·.sequence = sequence)

/-- Replies of whole messages: none lacks its padding, and no error lacks its number. -/
structure Readable (replies : List Reply) : Prop where
  padded : ∀ d ∈ datagrams replies, ¬Message.EndsUnpadded d
  numbered : ∀ d ∈ datagrams replies, ∀ m ∈ Message.ofDatagram d,
    m.type = Message.error → 4 ≤ m.payload.length

/-- Whether the messages so far answer the question. -/
inductive Progress where
  | unfinished
  | answered
  | refused (e : ErrorCode)
  deriving DecidableEq, Repr

/-- The messages that contribute to the answer, and whether it is complete. Only a dump takes more
than one. -/
def absorb (dump : Bool) (sequence : UInt32) : List Message → List Message × Progress
  | [] => ([], .unfinished)
  | m :: ms =>
    if m.sequence ≠ sequence then absorb dump sequence ms
    else if m.type = Message.done then ([], .answered)
    else if m.type = Message.error then
      if m.errno = 0 then ([], .answered) else ([], .refused (.system (-m.errno)))
    else if m.type = Message.noop ∨ m.type = Message.overrun then absorb dump sequence ms
    else if dump then
      let (found, progress) := absorb dump sequence ms
      (m :: found, progress)
    else ([m], .answered)

/-- What `handle` tells. -/
def Progress.verdict? : Progress → Option Bool
  | .unfinished => none
  | .answered => some true
  | .refused _ => some false

def Progress.refusal? : Progress → Option ErrorCode
  | .refused e => some e
  | _ => none

/-- The error that a question ends with; while it is unfinished, that of the receive that ends the
wait for more. -/
def Progress.error? (otherwise : ErrorCode) : Progress → Option ErrorCode
  | .unfinished => some otherwise
  | .answered => none
  | .refused e => some e

variable {dump : Bool} {s : UInt32} {m : Message}

theorem absorb_of_passed (h : m.sequence ≠ s ∨ m.Idle) (ms : List Message) :
    absorb dump s (m :: ms) = absorb dump s ms := by
  rw [absorb]
  split
  · rfl
  · rename_i hs
    have hi : m.Idle := h.resolve_left hs
    obtain ⟨hd, he⟩ := Message.not_concludes_iff.mp hi.not_concludes
    rw [if_neg hd, if_neg he]
    exact if_pos hi

theorem absorb_of_completes (hs : m.sequence = s) (h : m.Completes) (ms : List Message) :
    absorb dump s (m :: ms) = ([], .answered) := by
  rw [absorb, if_neg (not_not_intro hs)]
  rcases h with hd | ⟨he, hz⟩
  · rw [if_pos hd]
  · rw [if_neg (by rw [he]; decide), if_pos he, if_pos hz]

theorem absorb_of_refuses (hs : m.sequence = s) (h : m.Refuses) (ms : List Message) :
    absorb dump s (m :: ms) = ([], .refused (.system (-m.errno))) := by
  obtain ⟨he, hz⟩ := h
  rw [absorb, if_neg (not_not_intro hs), if_neg (by rw [he]; decide), if_pos he, if_neg hz]

theorem absorb_of_contributes (hs : m.sequence = s) (hc : ¬m.Concludes) (hi : ¬m.Idle)
    (ms : List Message) : absorb dump s (m :: ms) =
      if dump then (m :: (absorb dump s ms).1, (absorb dump s ms).2) else ([m], .answered) := by
  obtain ⟨hd, he⟩ := Message.not_concludes_iff.mp hc
  rw [absorb, if_neg (not_not_intro hs), if_neg hd, if_neg he]
  exact if_neg hi

theorem absorb_append (ms ms' : List Message) : absorb dump s (ms ++ ms') =
    if (absorb dump s ms).2 = .unfinished then
      ((absorb dump s ms).1 ++ (absorb dump s ms').1, (absorb dump s ms').2)
    else absorb dump s ms := by
  induction ms with
  | nil => rfl
  | cons m ms ih =>
    rw [List.cons_append]
    cases Message.role s m with
    | passed h => rw [absorb_of_passed h, absorb_of_passed h, ih]
    | completes hs h => rw [absorb_of_completes hs h, absorb_of_completes hs h, if_neg (by simp)]
    | refuses hs h => rw [absorb_of_refuses hs h, absorb_of_refuses hs h, if_neg (by simp)]
    | contributes hs hc hi =>
      rw [absorb_of_contributes hs hc hi, absorb_of_contributes hs hc hi, ih]
      cases dump
      · rfl
      · by_cases hp : (absorb true s ms).2 = .unfinished <;> simp [hp]

/-- Messages to others are passed over. -/
theorem absorb_filter (ms : List Message) :
    absorb dump s (ms.filter (·.sequence = s)) = absorb dump s ms := by
  induction ms with
  | nil => rfl
  | cons m ms ih =>
    by_cases hs : m.sequence = s
    · rw [List.filter_cons_of_pos (by simpa using hs)]
      simp only [absorb, ih]
    · rw [List.filter_cons_of_neg (by simpa using hs), absorb_of_passed (Or.inl hs), ih]

theorem mem_of_mem_absorb {ms : List Message} (h : m ∈ (absorb dump s ms).1) : m ∈ ms := by
  induction ms with
  | nil => cases h
  | cons x ms ih =>
    cases Message.role s x with
    | passed hx =>
      rw [absorb_of_passed hx] at h
      exact List.mem_cons_of_mem x (ih h)
    | completes hs hx =>
      rw [absorb_of_completes hs hx] at h
      cases h
    | refuses hs hx =>
      rw [absorb_of_refuses hs hx] at h
      cases h
    | contributes hs hc hi =>
      rw [absorb_of_contributes hs hc hi] at h
      cases dump
      · exact List.mem_cons.mpr (Or.inl (List.mem_singleton.mp h))
      · exact List.mem_cons.mpr ((List.mem_cons.mp h).imp_right ih)

/-- What is behind the messages in the buffer does not count. -/
theorem absorb_alone {ms : List Message} (hh : ∀ m ∈ ms, Message.headerSize ≤ m.length)
    (he : ∀ m ∈ ms, m.type = Message.error → Message.headerSize + 4 ≤ m.length) :
    absorb dump s (ms.map Message.alone) =
      ((absorb dump s ms).1.map Message.alone, (absorb dump s ms).2) := by
  induction ms with
  | nil => rfl
  | cons m ms ih =>
    have hrest := ih (fun x hx => hh x (List.mem_cons_of_mem m hx))
      (fun x hx => he x (List.mem_cons_of_mem m hx))
    have hsequence := Message.sequence_alone (hh m List.mem_cons_self)
    have htype := Message.type_alone (hh m List.mem_cons_self)
    have herrno (ht : m.type = Message.error) : m.alone.errno = m.errno :=
      Message.errno_alone (he m List.mem_cons_self ht)
    have hidle : m.alone.Idle ↔ m.Idle := by
      unfold Message.Idle
      rw [htype]
    rw [List.map_cons]
    cases Message.role s m with
    | passed h =>
      rw [absorb_of_passed h, absorb_of_passed, hrest]
      rwa [hsequence, hidle]
    | completes hs h =>
      rw [absorb_of_completes hs h, absorb_of_completes (hsequence.trans hs)]
      · rfl
      · unfold Message.Completes
        rw [htype]
        exact h.imp_right fun ⟨ht, hz⟩ => ⟨ht, (herrno ht).trans hz⟩
    | refuses hs h =>
      rw [absorb_of_refuses hs h, absorb_of_refuses (hsequence.trans hs), herrno h.1]
      · rfl
      · unfold Message.Refuses
        rw [htype, herrno h.1]
        exact h
    | contributes hs hc hi =>
      have hc' : ¬m.alone.Concludes := by
        rw [Message.not_concludes_iff, htype]
        exact Message.not_concludes_iff.mp hc
      rw [absorb_of_contributes hs hc hi,
        absorb_of_contributes (hsequence.trans hs) hc' (mt hidle.mp hi), hrest]
      cases dump <;> rfl

section Handling

variable {α : Type} {keep : α → Message → α}

/-- Going through messages keeps what those leave that contribute. -/
theorem handle_eq (ms : List Message) (v : Variables α) : handle dump s keep ms v =
    ({ v with
        code := (absorb dump s ms).2.refusal? <|> v.code
        value := (absorb dump s ms).1.foldl keep v.value },
      (absorb dump s ms).2.verdict?) := by
  induction ms generalizing v with
  | nil => rfl
  | cons m ms ih =>
    unfold handle absorb
    by_cases hs : m.sequence ≠ s
    · rw [if_pos hs, if_pos hs, ih]
    rw [if_neg hs, if_neg hs]
    by_cases hd : m.type = Message.done
    · rw [if_pos hd, if_pos hd]
      rfl
    rw [if_neg hd, if_neg hd]
    by_cases he : m.type = Message.error
    · rw [if_pos he, if_pos he]
      split <;> rfl
    rw [if_neg he, if_neg he]
    by_cases hi : m.type = Message.noop ∨ m.type = Message.overrun
    · rw [if_pos hi, if_pos hi, ih]
    rw [if_neg hi, if_neg hi]
    cases dump
    · rfl
    · simp only [if_true, ih, List.foldl_cons]

/-- Whether nothing that is behind a message in the buffer is kept of it. -/
def KeepsInside (keep : α → Message → α) : Prop :=
  ∀ a (m : Message), Message.headerSize ≤ m.length → keep a m.alone = keep a m

theorem keepsInside_link : KeepsInside fun (_ : Option Link) m => LinkMessage.decode? m :=
  fun _ _ => Message.link_alone

theorem keepsInside_routes :
    KeepsInside fun rs m => rs ++ (RouteMessage.decode? m).toList :=
  fun rs _ hm => congrArg (rs ++ ·.toList) (Message.route_alone hm)

theorem KeepsInside.foldl_alone (h : KeepsInside keep) {ms : List Message}
    (hh : ∀ m ∈ ms, Message.headerSize ≤ m.length) (a : α) :
    (ms.map Message.alone).foldl keep a = ms.foldl keep a := by
  induction ms generalizing a with
  | nil => rfl
  | cons m ms ih =>
    rw [List.map_cons, List.foldl_cons, List.foldl_cons, h a m (hh m List.mem_cons_self)]
    exact ih (fun x hx => hh x (List.mem_cons_of_mem m hx)) _

/-- It makes no difference to a question what is behind its messages in the buffer. -/
theorem handle_alone (hk : KeepsInside keep) {ms : List Message}
    (hh : ∀ m ∈ ms, Message.headerSize ≤ m.length)
    (he : ∀ m ∈ ms, m.type = Message.error → Message.headerSize + 4 ≤ m.length)
    (v : Variables α) : handle dump s keep (ms.map Message.alone) v = handle dump s keep ms v := by
  have hfound : ∀ m ∈ (absorb dump s ms).1, Message.headerSize ≤ m.length :=
    fun m hm => hh m (mem_of_mem_absorb hm)
  have hfold := hk.foldl_alone hfound v.value
  rw [handle_eq, handle_eq, absorb_alone hh he, hfold]

end Handling

/-- What counts in the buffer after a receive are the messages of the datagram. -/
theorem absorb_overlay (dump : Bool) (s : UInt32) {buffer d : Bytes}
    (hb : buffer.length = bufferSize)
    (hp : ¬Message.EndsUnpadded (d.take bufferSize))
    (hn : ∀ m ∈ Message.ofDatagram (d.take bufferSize),
      m.type = Message.error → 4 ≤ m.payload.length) :
    absorb dump s (Message.ofDatagram (d.take bufferSize)) =
      let a := absorb dump s (Message.inBuffer (overlay buffer d) (min d.length bufferSize))
      (a.1.map Message.alone, a.2) := by
  obtain ⟨halone, -⟩ := walk_overlay hb hp
  generalize hms : Message.inBuffer (overlay buffer d) (min d.length bufferSize) = ms at halone
  have hheader : ∀ m ∈ ms, Message.headerSize ≤ m.length := fun m hm =>
    Message.length_le_of_mem (hms ▸ hm)
  rw [← halone]
  apply absorb_alone hheader
  intro m hm ht
  apply Message.le_length_of_payload (by decide)
  rw [← Message.payload_alone (hheader m hm)]
  apply hn m.alone
  · rw [← halone]
    exact List.mem_map_of_mem hm
  · rwa [Message.type_alone (hheader m hm)]

section Receiving

variable {α : Type} {keep : α → Message → α}

/-- The outcome of replies is that of their messages, however they are grouped. -/
theorem receiveAll_of_readable (dump : Bool) (s : UInt32) (hk : KeepsInside keep)
    {replies : List Reply} (h : Readable replies) {buffer : Bytes}
    (hb : buffer.length = bufferSize) (v : Variables α) :
    let f := receiveAll dump s keep buffer replies v
    let a := absorb dump s ((datagrams replies).flatMap Message.ofDatagram)
    f.state.value = a.1.foldl keep v.value ∧
      f.state.code = a.2.error? (failure replies) ∧
      f.answered = some (a.2.error? (failure replies)).isNone := by
  -- For any buffer, since it keeps what earlier datagrams left behind shorter ones.
  induction replies generalizing buffer v with
  | nil => exact ⟨rfl, rfl, rfl⟩
  | cons reply rest ih =>
    cases reply with
    | error e =>
      by_cases he : e = 0
      · subst he
        exact ih ⟨h.padded, h.numbered⟩ hb (v.pass .received none)
      · have hcode : ErrorCode.ofErrno? e = some (.system e) := if_neg he
        simp only [receiveAll, datagrams, failure, hcode, if_neg he]
        exact ⟨rfl, rfl, rfl⟩
    | ok d =>
      have hd : d.take bufferSize ∈ datagrams (.ok d :: rest) := List.mem_cons_self
      have hrest : Readable rest :=
        ⟨fun x hx => h.padded x (List.mem_cons_of_mem _ hx),
          fun x hx => h.numbered x (List.mem_cons_of_mem _ hx)⟩
      have hfirst := absorb_overlay dump s hb (h.padded _ hd) (h.numbered _ hd)
      obtain ⟨-, hstops⟩ := walk_overlay hb (h.padded _ hd)
      have hheader : ∀ m ∈ (absorb dump s (Message.inBuffer (overlay buffer d)
          (min d.length bufferSize))).1, Message.headerSize ≤ m.length := fun m hm =>
        Message.length_le_of_mem (mem_of_mem_absorb hm)
      simp only [datagrams, failure, List.flatMap_cons, receiveAll, handle_eq]
      rw [absorb_append, hfirst, hstops]
      unfold Message.inBuffer at hheader ⊢
      generalize absorb dump s (Message.walk (overlay buffer d)
        (min d.length bufferSize).toUInt64).visited = a at hheader
      obtain ⟨found, progress⟩ := a
      have hkept := hk.foldl_alone hheader v.value
      cases progress with
      | unfinished =>
        obtain ⟨hvalue, hcode, hanswered⟩ := ih hrest ((length_overlay buffer d).trans hb)
          { v.pass .received none with value := found.foldl keep v.value }
        refine ⟨?_, hcode, hanswered⟩
        rw [if_pos rfl, List.foldl_append, hkept]
        exact hvalue
      | answered => exact ⟨hkept.symm, rfl, rfl⟩
      | refused e => exact ⟨hkept.symm, rfl, rfl⟩

/-- Receiving comes back if no datagram ends in a message without its padding. -/
theorem isSome_receiveAll (dump : Bool) (s : UInt32) (keep : α → Message → α)
    {replies : List Reply} (h : ∀ d ∈ datagrams replies, ¬Message.EndsUnpadded d)
    {buffer : Bytes} (hb : buffer.length = bufferSize) (v : Variables α) :
    (receiveAll dump s keep buffer replies v).answered.isSome := by
  induction replies generalizing buffer v with
  | nil => rfl
  | cons reply rest ih =>
    cases reply with
    | error e =>
      by_cases he : e = 0
      · subst he
        exact ih h hb (v.pass .received none)
      · have hcode : ErrorCode.ofErrno? e = some (.system e) := if_neg he
        simp only [receiveAll, hcode]
        rfl
    | ok d =>
      obtain ⟨hd, hrest⟩ := List.forall_mem_cons.mp h
      obtain ⟨-, hstops⟩ := walk_overlay hb hd
      simp only [receiveAll, handle_eq, hstops]
      cases (absorb dump s (Message.walk (overlay buffer d)
        (min d.length bufferSize).toUInt64).visited).2 with
      | unfinished => exact ih hrest ((length_overlay buffer d).trans hb) _
      | answered => rfl
      | refused e => rfl

/-- What holds of the value stays so if every message keeps it. -/
theorem receiveAll_value {P : α → Prop} (hk : ∀ a m, P a → P (keep a m)) (dump : Bool)
    (s : UInt32) (replies : List Reply) (buffer : Bytes) {v : Variables α} (hv : P v.value) :
    P (receiveAll dump s keep buffer replies v).state.value := by
  have hfold (ms : List Message) (a : α) (ha : P a) : P (ms.foldl keep a) := by
    induction ms generalizing a with
    | nil => exact ha
    | cons m ms ih => exact ih _ (hk a m ha)
  induction replies generalizing buffer v with
  | nil => exact hv
  | cons reply rest ih =>
    cases reply with
    | error e =>
      unfold receiveAll
      dsimp only
      split
      · exact hv
      · exact ih buffer hv
    | ok d =>
      simp only [receiveAll, handle_eq]
      cases (absorb dump s (Message.walk (overlay buffer d)
        (min d.length bufferSize).toUInt64).visited).2 with
      | unfinished =>
        dsimp only [Progress.verdict?]
        split
        · exact ih _ (hfold _ _ hv)
        · exact hfold _ _ hv
      | answered => exact hfold _ _ hv
      | refused e => exact hfold _ _ hv

end Receiving

end Query

end RouterAdvert.Netlink
