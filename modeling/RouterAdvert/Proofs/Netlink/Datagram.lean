import RouterAdvert.Netlink.Query

/-! The messages of a datagram. They are the same wherever the datagram lies, and whatever is left
behind it in the buffer, unless it ends in a message without its padding: the count of what remains
would wrap there. -/
namespace RouterAdvert

namespace Bytes

variable {b c : Bytes} {k n : Nat}

theorem getD_take (h : k < n) : (b.take n).getD k 0 = b.getD k 0 := by
  simp only [List.getD_eq_getElem?_getD, List.getElem?_take_of_lt h]

theorem getD_append (h : k < b.length) : (b ++ c).getD k 0 = b.getD k 0 := by
  simp only [List.getD_eq_getElem?_getD, List.getElem?_append_left h]

theorem le16_take (h : 2 ≤ n) : le16 (b.take n) = le16 b := by
  unfold le16
  rw [getD_take (by omega), getD_take (by omega)]

theorem le32_take (h : 4 ≤ n) : le32 (b.take n) = le32 b := by
  unfold le32
  rw [getD_take (by omega), getD_take (by omega), getD_take (by omega), getD_take (by omega)]

theorem le32_append (h : 4 ≤ b.length) : le32 (b ++ c) = le32 b := by
  unfold le32
  rw [getD_append (by omega), getD_append (by omega), getD_append (by omega),
    getD_append (by omega)]

end Bytes

theorem Netlink.le_roundUp (n : Nat) : n ≤ roundUp n := by
  unfold roundUp
  omega

/-- Lengths below this one are rounded up in words of 32 bits without wrapping. -/
def Netlink.roundLimit : Nat := 4294967293

theorem Netlink.toNat_align {n : UInt32} (h : n.toNat < roundLimit) :
    (align n).toNat = roundUp n.toNat := by
  unfold roundLimit at h
  simp only [align, roundUp, UInt32.toNat_mul, UInt32.toNat_div, UInt32.toNat_add,
    UInt32.reduceToNat]
  omega

theorem Netlink.align_eq_zero {n : UInt32} (h : roundLimit ≤ n.toNat) : align n = 0 := by
  have hn := n.toNat_lt
  unfold roundLimit at h
  apply UInt32.toNat_inj.mp
  simp only [align, UInt32.toNat_mul, UInt32.toNat_div, UInt32.toNat_add, UInt32.reduceToNat]
  omega

namespace Netlink.Message

variable {m : Message} {d : Bytes}

/-- The message alone, without what is behind it in the buffer. -/
def alone (m : Message) : Message := ⟨m.tail.take m.length⟩

theorem size_alone (h : headerSize ≤ m.length) : m.alone.size = m.size := by
  unfold headerSize at h
  exact Bytes.le32_take (by omega)

theorem length_alone (h : headerSize ≤ m.length) : m.alone.length = m.length :=
  congrArg UInt32.toNat (size_alone h)

theorem type_alone (h : headerSize ≤ m.length) : m.alone.type = m.type := by
  unfold headerSize at h
  simp only [type, alone, List.drop_take]
  exact Bytes.le16_take (by omega)

theorem sequence_alone (h : headerSize ≤ m.length) : m.alone.sequence = m.sequence := by
  unfold headerSize at h
  simp only [sequence, alone, List.drop_take]
  exact Bytes.le32_take (by omega)

theorem payload_alone (h : headerSize ≤ m.length) : m.alone.payload = m.payload := by
  unfold payload
  rw [length_alone h, alone, List.take_take, Nat.min_self]

/-- The error number of a message that is long enough to hold one. -/
theorem errno_alone (h : headerSize + 4 ≤ m.length) : m.alone.errno = m.errno := by
  simp only [errno, alone, List.drop_take]
  rw [Bytes.le32_take (by omega)]

section Attributes

variable {fixedSize : Nat} (h : headerSize + fixedSize ≤ m.length)

include h

theorem attributesEnd_le : m.attributesEnd fixedSize ≤ m.length := by
  unfold attributesEnd
  split
  · exact h
  · exact Nat.le_refl _

/-- What fits in a positive word is counted as it is. -/
theorem attributesEnd_eq (hs : m.length < headerSize + fixedSize + 2147483648) :
    m.attributesEnd fixedSize = m.length := by
  have hm : m.length < 2 ^ 32 := m.size.toNat_lt
  have hfront : (headerSize + fixedSize).toUInt32.toNat = headerSize + fixedSize :=
    UInt32.toNat_ofNat_of_lt' (Nat.lt_of_le_of_lt h hm)
  have hleft : (m.size - (headerSize + fixedSize).toUInt32).toNat =
      m.length - (headerSize + fixedSize) := by
    rw [UInt32.toNat_sub_of_le _ _ (UInt32.le_iff_toNat_le.mpr (by rwa [hfront])), hfront]
    rfl
  refine if_neg fun hneg => ?_
  have hneg := BitVec.toInt_neg_iff.mp (Int32.lt_iff_toInt_lt.mp hneg)
  have hleft' : (m.size - (headerSize + fixedSize).toUInt32).toBitVec.toNat =
      m.length - (headerSize + fixedSize) := hleft
  change 2 ^ 32 ≤ 2 * (m.size - (headerSize + fixedSize).toUInt32).toBitVec.toNat at hneg
  omega

/-- Nothing of what is behind a message is taken for an attribute of it. -/
theorem attributeBytes_alone :
    m.alone.attributeBytes fixedSize = m.attributeBytes fixedSize := by
  have hheader : headerSize ≤ m.length := Nat.le_trans (Nat.le_add_right _ _) h
  have hsame : m.alone.attributesEnd fixedSize = m.attributesEnd fixedSize := by
    rw [attributesEnd, attributesEnd, size_alone hheader, length_alone hheader]
  rw [attributeBytes, hsame, alone, List.take_take, Nat.min_eq_left (attributesEnd_le h),
    attributeBytes]

end Attributes

theorem link_alone (h : headerSize ≤ m.length) :
    LinkMessage.decode? m.alone = LinkMessage.decode? m := by
  unfold LinkMessage.decode?
  rw [type_alone h, length_alone h, payload_alone h]
  split
  · rename_i hm
    rw [attributeBytes_alone hm.2]
  · rfl

theorem route_alone (h : headerSize ≤ m.length) :
    RouteMessage.decode? m.alone = RouteMessage.decode? m := by
  unfold RouteMessage.decode?
  rw [type_alone h, length_alone h, payload_alone h]
  dsimp only
  split
  · rename_i hm
    rw [attributeBytes_alone hm.2.1]
  · rfl

/-- A message with room for an error number behind its header holds one. -/
theorem le_length_of_payload {k : Nat} (h : 0 < k) (hk : k ≤ m.payload.length) :
    headerSize + k ≤ m.length := by
  simp only [payload, List.length_drop, List.length_take] at hk
  omega

/-- Whether the octets begin with a whole message. -/
def Begins (d : Bytes) : Prop :=
  headerSize ≤ d.length ∧ headerSize ≤ (mk d).length ∧ (mk d).length ≤ d.length

instance : Decidable (Begins d) := inferInstanceAs (Decidable (_ ∧ _ ∧ _))

/-- The messages of a datagram, each one alone. -/
def ofDatagram (d : Bytes) : List Message := (inDatagram d).map alone

/-- Whether the last message of a datagram lacks its padding. -/
def EndsUnpadded (d : Bytes) : Prop := ∃ m ∈ inDatagram d, m.tail.length < roundUp m.length

instance : Decidable (EndsUnpadded d) := inferInstanceAs (Decidable (∃ m ∈ inDatagram d, _))

/-- What is left of a datagram where the message behind its first one is looked for. -/
def behindFirst (d : Bytes) : Bytes := d.drop (mk d).stride.toNat

theorem size_append (d stale : Bytes) (h : 4 ≤ d.length) :
    (mk (d ++ stale)).size = (mk d).size := Bytes.le32_append h

theorem length_append (d stale : Bytes) (h : headerSize ≤ d.length) :
    (mk (d ++ stale)).length = (mk d).length :=
  congrArg UInt32.toNat (size_append d stale (Nat.le_trans (by decide) h))

theorem stride_append (d stale : Bytes) (h : headerSize ≤ d.length) :
    (mk (d ++ stale)).stride = (mk d).stride :=
  congrArg align (size_append d stale (Nat.le_trans (by decide) h))

theorem toNat_count {n : Nat} (h : n < UInt64.size) : n.toUInt64.toNat = n :=
  UInt64.toNat_ofNat_of_lt' h

/-- In a datagram that is not too long, the next message is looked for where it is. -/
theorem Begins.toNat_stride (h : Begins d) (hd : d.length < roundLimit) :
    (mk d).stride.toNat = roundUp (mk d).length :=
  toNat_align (Nat.lt_of_le_of_lt h.2.2 hd)

theorem Begins.le_stride (h : Begins d) (hd : d.length < roundLimit) :
    (mk d).length ≤ (mk d).stride.toNat := by
  rw [h.toNat_stride hd]
  exact le_roundUp _

theorem Begins.stride_ne_zero (h : Begins d) (hd : d.length < roundLimit) :
    (mk d).stride ≠ 0 := by
  intro hz
  have hle := h.le_stride hd
  have hl := h.2.1
  rw [hz] at hle
  exact absurd (Nat.le_trans hl hle) (by decide)

theorem Begins.length_behindFirst (h : Begins d) (hd : d.length < roundLimit) :
    (behindFirst d).length < d.length := by
  have hle := h.le_stride hd
  have hl := h.2.1
  have hh := h.1
  unfold headerSize at hl hh
  rw [behindFirst, List.length_drop]
  omega

/-- A datagram begins with a padded message, or with one that lacks its padding and is the last, or
with no message at all. -/
theorem datagram_induction {motive : (d : Bytes) → d.length < roundLimit → Prop}
    (none : ∀ d hd, ¬Begins d → motive d hd)
    (last : ∀ d hd, Begins d → d.length < (mk d).stride.toNat → motive d hd)
    (next : ∀ d hd hd', Begins d → (mk d).stride.toNat ≤ d.length →
      motive (behindFirst d) hd' → motive d hd)
    (d : Bytes) (hd : d.length < roundLimit) : motive d hd := by
  induction hn : d.length using Nat.strongRecOn generalizing d with
  | ind n ih =>
    subst hn
    by_cases hb : Begins d
    · by_cases hp : (mk d).stride.toNat ≤ d.length
      · have hshort := hb.length_behindFirst hd
        exact next d hd (Nat.lt_trans hshort hd) hb hp (ih _ hshort _ _ rfl)
      · exact last d hd hb (Nat.not_le.mp hp)
    · exact none d hd hb

/-- The walk goes forward by whole messages, unless it stands. -/
theorem length_le_stride (h : m.stride ≠ 0) : m.length ≤ m.stride.toNat := by
  have hlt : m.length < roundLimit := Nat.not_le.mp fun hle => h (align_eq_zero hle)
  rw [stride, toNat_align hlt]
  exact le_roundUp _

theorem walk_eq (buffer : Bytes) (remaining : UInt64) :
    walk buffer remaining =
      match ending? buffer remaining with
      | some .standing => { visited := [mk buffer], ending := .standing }
      | some e => { ending := e }
      | none =>
        (walk (buffer.drop (mk buffer).stride.toNat)
          (remaining - (mk buffer).stride.toUInt64)).visit (mk buffer) := by
  rw [walk]
  split <;> simp only [*]

theorem walk_of_goes_on {buffer : Bytes} {remaining : UInt64}
    (h : ending? buffer remaining = none) :
    walk buffer remaining =
      (walk (buffer.drop (mk buffer).stride.toNat)
        (remaining - (mk buffer).stride.toUInt64)).visit (mk buffer) := by
  rw [walk_eq, h]

theorem walk_of_ends {buffer : Bytes} {remaining : UInt64} {e : Ending} (he : e ≠ .standing)
    (h : ending? buffer remaining = some e) : walk buffer remaining = { ending := e } := by
  rw [walk_eq, h]
  cases e with
  | stopped => rfl
  | standing => exact absurd rfl he
  | outside => rfl

theorem ending?_of_not_begins (h : ¬Begins d) (hd : d.length < UInt64.size)
    (stale : Bytes) : ending? (d ++ stale) d.length.toUInt64 = some .stopped := by
  have hcount := toNat_count hd
  refine if_pos ?_
  by_cases hh : headerSize ≤ d.length
  · have h4 : 4 ≤ d.length := Nat.le_trans (by decide) hh
    refine Or.inr ⟨by rw [List.length_append]; omega, ?_⟩
    rw [size_append d stale h4, UInt32.lt_iff_toNat_lt, UInt64.lt_iff_toNat_lt, hcount,
      UInt32.toNat_toUInt64]
    by_cases hl : headerSize ≤ (mk d).length
    · exact Or.inr (Nat.not_le.mp fun hle => h ⟨hh, hl, hle⟩)
    · exact Or.inl (Nat.not_le.mp hl)
  · refine Or.inl (UInt64.lt_iff_toNat_lt.mpr ?_)
    rw [hcount]
    exact Nat.not_le.mp hh

theorem ending?_of_begins (h : Begins d) (hs : (mk d).stride ≠ 0)
    (hd : d.length < UInt64.size) (stale : Bytes) :
    ending? (d ++ stale) d.length.toUInt64 = none := by
  obtain ⟨hh, hl, hle⟩ := h
  have hcount := toNat_count hd
  have h4 : 4 ≤ d.length := Nat.le_trans (by decide) hh
  have hlength : d.length ≤ (d ++ stale).length := by
    rw [List.length_append]
    exact Nat.le_add_right _ _
  have hgo : ¬(d.length.toUInt64 < 16 ∨ 4 ≤ (d ++ stale).length ∧
      ((mk (d ++ stale)).size < 16 ∨
        d.length.toUInt64 < (mk (d ++ stale)).size.toUInt64)) := by
    rw [size_append d stale h4, UInt32.lt_iff_toNat_lt, UInt64.lt_iff_toNat_lt,
      UInt64.lt_iff_toNat_lt, hcount, UInt32.toNat_toUInt64]
    rintro (hlt | ⟨-, hlt | hlt⟩)
    · exact absurd hh (Nat.not_le.mpr hlt)
    · exact absurd hl (Nat.not_le.mpr hlt)
    · exact absurd hle (Nat.not_le.mpr hlt)
  unfold ending?
  rw [if_neg hgo, stride_append d stale hh, length_append d stale hh, if_neg fun hz => hs hz.2,
    if_pos ⟨Nat.le_trans hh hlength, Nat.le_trans hle hlength⟩]

theorem walk_of_not_begins (h : ¬Begins d) (hd : d.length < UInt64.size)
    (stale : Bytes) : walk (d ++ stale) d.length.toUInt64 = { ending := .stopped } :=
  walk_of_ends (by decide) (ending?_of_not_begins h hd stale)

theorem walk_of_begins (h : Begins d) (hs : (mk d).stride ≠ 0)
    (hd : d.length < UInt64.size) (stale : Bytes) :
    walk (d ++ stale) d.length.toUInt64 =
      (walk ((d ++ stale).drop (mk d).stride.toNat)
        (d.length.toUInt64 - (mk d).stride.toUInt64)).visit (mk (d ++ stale)) := by
  rw [walk_of_goes_on (ending?_of_begins h hs hd stale), stride_append d stale h.1]

/-- Behind a padded message, what remains is what is left of the datagram. -/
theorem remaining_of_padded (hp : (mk d).stride.toNat ≤ d.length)
    (hd : d.length < UInt64.size) :
    d.length.toUInt64 - (mk d).stride.toUInt64 = (behindFirst d).length.toUInt64 := by
  have hcount := toNat_count hd
  apply UInt64.toNat_inj.mp
  rw [UInt64.toNat_sub_of_le _ _ (by rwa [UInt64.le_iff_toNat_le, hcount, UInt32.toNat_toUInt64]),
    hcount, UInt32.toNat_toUInt64, behindFirst, List.length_drop, toNat_count (by omega)]

/-- Behind a padded message, the walk goes on in what is left of the datagram. -/
theorem walk_of_padded (h : Begins d) (hs : (mk d).stride ≠ 0)
    (hp : (mk d).stride.toNat ≤ d.length) (hd : d.length < UInt64.size)
    (stale : Bytes) :
    walk (d ++ stale) d.length.toUInt64 =
      (walk (behindFirst d ++ stale) (behindFirst d).length.toUInt64).visit
        (mk (d ++ stale)) := by
  rw [walk_of_begins h hs hd, List.drop_append_of_le_length hp, remaining_of_padded hp hd,
    behindFirst]

theorem stands {buffer : Bytes} {remaining : UInt64}
    (h : ending? buffer remaining = some .standing) :
    headerSize ≤ buffer.length ∧ 16 ≤ (mk buffer).size ∧
      (mk buffer).size.toUInt64 ≤ remaining ∧ (mk buffer).stride = 0 := by
  unfold ending? at h
  dsimp only at h
  split at h
  · cases h
  · rename_i hstop
    split at h
    · rename_i hstand
      have hsize : ¬((mk buffer).size < 16 ∨ remaining < (mk buffer).size.toUInt64) :=
        fun hs => hstop (Or.inr ⟨Nat.le_trans (by decide) hstand.1, hs⟩)
      exact ⟨hstand.1, UInt32.not_lt.mp fun hs => hsize (Or.inl hs),
        UInt64.not_lt.mp fun hs => hsize (Or.inr hs), hstand.2⟩
    · split at h <;> cases h

theorem walk_of_standing {buffer : Bytes} {remaining : UInt64}
    (h : ending? buffer remaining = some .standing) :
    walk buffer remaining = { visited := [mk buffer], ending := .standing } := by
  rw [walk_eq, h]

theorem length_le_of_mem_walk {buffer : Bytes} {remaining : UInt64}
    (h : m ∈ (walk buffer remaining).visited) : headerSize ≤ m.length := by
  fun_induction walk buffer remaining with
  | case1 buffer remaining he =>
    obtain rfl := List.mem_singleton.mp h
    exact UInt32.le_iff_toNat_le.mp (stands he).2.1
  | case2 => cases h
  | case3 buffer remaining he ih =>
    rcases List.mem_cons.mp h with rfl | h
    · exact UInt32.le_iff_toNat_le.mp (goes_on he).2.2.1
    · exact ih h

theorem length_le_of_mem {n : Nat} (h : m ∈ inBuffer d n) : headerSize ≤ m.length :=
  length_le_of_mem_walk h

theorem lt_count_of_lt_roundLimit {n : Nat} (h : n < roundLimit) : n < UInt64.size :=
  Nat.lt_trans h (by decide)

theorem inDatagram_of_padded (h : Begins d) (hs : (mk d).stride ≠ 0)
    (hp : (mk d).stride.toNat ≤ d.length) (hd : d.length < UInt64.size) :
    inDatagram d = mk d :: inDatagram (behindFirst d) := by
  have hw := walk_of_padded h hs hp hd []
  rw [List.append_nil, List.append_nil] at hw
  exact congrArg Walk.visited hw

theorem mem_inDatagram_of_begins (h : Begins d) (hs : (mk d).stride ≠ 0)
    (hd : d.length < UInt64.size) : mk d ∈ inDatagram d := by
  have hw := walk_of_begins h hs hd []
  rw [List.append_nil] at hw
  rw [inDatagram, inBuffer, hw]
  exact List.mem_cons_self

theorem alone_append (h : Begins d) (stale : Bytes) : (mk (d ++ stale)).alone = (mk d).alone := by
  unfold alone
  rw [length_append d stale h.1]
  exact congrArg mk (List.take_append_of_le_length h.2.2)

/-- In a buffer that holds more, the walk finds the messages of the datagram and stops behind them.
-/
theorem walk_append (hd : d.length < roundLimit) (h : ¬EndsUnpadded d) (stale : Bytes) :
    (inBuffer (d ++ stale) d.length).map alone = ofDatagram d ∧
      (walk (d ++ stale) d.length.toUInt64).ending = .stopped := by
  induction d, hd using datagram_induction with
  | none d hd hb =>
    have hcount := lt_count_of_lt_roundLimit hd
    have halone := walk_of_not_begins hb hcount []
    rw [List.append_nil] at halone
    rw [ofDatagram, inDatagram, inBuffer, inBuffer, walk_of_not_begins hb hcount, halone]
    exact ⟨rfl, rfl⟩
  | last d hd hb hp =>
    refine absurd ⟨mk d, ?_, ?_⟩ h
    · exact mem_inDatagram_of_begins hb (hb.stride_ne_zero hd) (lt_count_of_lt_roundLimit hd)
    · rwa [← hb.toNat_stride hd]
  | next d hd hd' hb hp ih =>
    have hcount := lt_count_of_lt_roundLimit hd
    have hs := hb.stride_ne_zero hd
    have hfirst := inDatagram_of_padded hb hs hp hcount
    have hrest : ¬EndsUnpadded (behindFirst d) := fun ⟨m, hm, hlt⟩ =>
      h ⟨m, by rw [hfirst]; exact List.mem_cons_of_mem _ hm, hlt⟩
    obtain ⟨hmessages, hending⟩ := ih hrest
    rw [inBuffer, walk_of_padded hb hs hp hcount stale, ofDatagram, hfirst]
    refine ⟨?_, hending⟩
    rw [Walk.visit, List.map_cons, List.map_cons, alone_append hb]
    exact congrArg _ hmessages

end Netlink.Message

namespace Netlink.Query

open Message

theorem length_overlay (buffer d : Bytes) : (overlay buffer d).length = buffer.length := by
  unfold overlay
  rw [List.length_append, List.length_take, List.length_drop]
  omega

theorem length_received (d : Bytes) : (d.take bufferSize).length = min d.length bufferSize := by
  rw [List.length_take, Nat.min_comm]

theorem length_received_lt (d : Bytes) : (d.take bufferSize).length < roundLimit := by
  rw [length_received]
  exact Nat.lt_of_le_of_lt (Nat.min_le_right _ _) (by decide)

/-- What was received is read from the buffer message by message, without what was there before. -/
theorem walk_overlay {buffer d : Bytes} (hb : buffer.length = bufferSize)
    (h : ¬EndsUnpadded (d.take bufferSize)) :
    (inBuffer (overlay buffer d) (min d.length bufferSize)).map alone =
        ofDatagram (d.take bufferSize) ∧
      (walk (overlay buffer d) (min d.length bufferSize).toUInt64).ending = .stopped := by
  rw [overlay, hb, ← length_received]
  exact walk_append (length_received_lt d) h _

end Netlink.Query

end RouterAdvert
