import RouterAdvert.Proofs.Netlink.Attributes

/-! What a message says about a link: of the attributes in it that can be read as a name, an address
or an mtu, the last of each kind. Everything else in it can be anything. -/
namespace RouterAdvert.Netlink

theorem Message.type_append (d rest : Bytes) (h : headerSize ≤ d.length) :
    (mk (d ++ rest)).type = (mk d).type := by
  unfold headerSize at h
  have hagree : Bytes.Agree 4 2 (d ++ rest) d := fun k _ hk => Bytes.getD_append (by omega)
  exact hagree.le16 (Nat.le_refl 2)

/-- What a message carries that has its header, and says that it ends, where it does. -/
theorem Message.payload_append {front c : Bytes} (h : headerSize ≤ front.length)
    (hl : (mk front).length = front.length + c.length) (rest : Bytes) :
    (mk (front ++ (c ++ rest))).payload = front.drop headerSize ++ c := by
  have hlength := length_append front (c ++ rest) h
  have hwhole : (front ++ c).length = (mk (front ++ (c ++ rest))).length := by
    rw [hlength, hl, List.length_append]
  rw [payload, ← hwhole, ← List.append_assoc, List.take_left, List.drop_append_of_le_length h]

/-- The attributes of such a message are all that it carries behind its fixed part. -/
theorem Message.attributeBytes_append {front c : Bytes} {fixedSize : Nat}
    (h : front.length = headerSize + fixedSize)
    (hl : (mk front).length = headerSize + fixedSize + c.length) (hc : c.length < 2147483648)
    (rest : Bytes) : (mk (front ++ (c ++ rest))).attributeBytes fixedSize = c := by
  have hlength := length_append front (c ++ rest) (h ▸ Nat.le_add_right _ _)
  rw [hl] at hlength
  have hend : (mk (front ++ (c ++ rest))).attributesEnd fixedSize = (front ++ c).length := by
    rw [attributesEnd_eq (by omega) (by omega), hlength, List.length_append, h]
  rw [attributeBytes, hend, ← List.append_assoc, List.take_left, List.drop_left' h]

namespace LinkMessage

open Attribute

def name? (a : Attribute) : Option Bytes :=
  if a.type = nameType then some (Bytes.untilZero a.payload) else none

def mac? (a : Attribute) : Option Mac :=
  if a.type = addressType ∧ a.payload.length = 6 then some (.ofBytes a.payload) else none

def mtu? (a : Attribute) : Option UInt32 :=
  if a.type = mtuType ∧ 4 ≤ a.payload.length then some (Bytes.le32 a.payload) else none

/-- Whether an attribute says anything about a link. -/
def speaks (a : Attribute) : Bool := (name? a).isSome || (mac? a).isSome || (mtu? a).isSome

/-- What becomes of a link by attributes, the last of each kind. -/
def described (as : List Attribute) (l : Link) : Link where
  index := l.index
  name := (as.filterMap name?).getLast?.getD l.name
  mac := (as.filterMap mac?).getLast?.or l.mac
  mtu := (as.filterMap mtu?).getLast?.getD l.mtu

theorem extend_eq (l : Link) (a : Attribute) :
    extend l a =
      { index := l.index
        name := (name? a).getD l.name
        mac := (mac? a).or l.mac
        mtu := (mtu? a).getD l.mtu } := by
  have hkinds : nameType ≠ addressType ∧ nameType ≠ mtuType ∧ addressType ≠ mtuType := by decide
  obtain ⟨hna, hnm, ham⟩ := hkinds
  unfold extend name? mac? mtu?
  by_cases hn : a.type = nameType
  · simp [hn, hna, hnm]
  · by_cases ha : a.type = addressType
    · by_cases h6 : a.payload.length = 6 <;> simp [ha, h6, hna.symm, ham]
    · by_cases hm : a.type = mtuType
      · by_cases h4 : 4 ≤ a.payload.length <;> simp [hm, h4, hnm.symm, ham.symm]
      · simp [hn, ha, hm]

/-- Later attributes override earlier ones, each kind by itself. -/
theorem foldl_extend (as : List Attribute) (l : Link) : as.foldl extend l = described as l := by
  induction as generalizing l with
  | nil => rfl
  | cons a as ih =>
    rw [List.foldl_cons, ih, extend_eq]
    unfold described
    simp only [getLast?_filterMap_cons, Option.getD_or, Option.or_assoc]

variable {m : Message}

theorem decode?_of_places (ht : m.type = Message.newLink ∨ m.type = Message.delLink)
    (hl : Message.headerSize + fixedSize ≤ m.length) (hc : m.length ≤ m.tail.length)
    {os : List Nat}
    (h : Places m.tail (m.attributesEnd fixedSize) (Message.headerSize + fixedSize) os) :
    decode? m = some ((os.map (readAt m.tail)).foldl extend
      { index := (Bytes.le32 (m.tail.drop 20)).toInt32 }) := by
  have hattributes : Attribute.all (m.attributeBytes fixedSize) = os.map (readAt m.tail) :=
    h.all_eq (Nat.le_trans (Message.attributesEnd_le hl) hc)
  have hindex : Bytes.le32 (m.payload.drop 4) = Bytes.le32 (m.tail.drop 20) := by
    unfold Message.headerSize fixedSize at hl
    rw [Message.payload, List.drop_drop, List.drop_take]
    exact Bytes.le32_take (by unfold Message.headerSize; omega)
  rw [decode?, if_pos ⟨ht, hl⟩, hattributes, hindex]

/-- Bytes behind the message and padding in it do not count. -/
theorem decode?_congr (hl : Message.headerSize + fixedSize ≤ m.length)
    (hc : m.length ≤ m.tail.length) {os : List Nat}
    (h : Places m.tail (m.attributesEnd fixedSize) (Message.headerSize + fixedSize) os)
    {m' : Message}
    (hc' : m.length ≤ m'.tail.length)
    (hs : ∀ k < m.length, ¬Padding m.tail os k → m.tail.getD k 0 = m'.tail.getD k 0) :
    decode? m' = decode? m := by
  have hfront : Bytes.Agree 0 32 m.tail m'.tail := fun k _ hk => by
    have hk : k < Message.headerSize + fixedSize := by
      unfold Message.headerSize fixedSize
      omega
    exact hs k (Nat.lt_of_lt_of_le hk hl) (h.not_padding hk)
  have hpart (o n : Nat) (hn : o + n ≤ 32) : Bytes.Agree o n m.tail m'.tail :=
    fun k _ hk => hfront k (Nat.zero_le k) (by omega)
  have hsize : m'.size = m.size := ((hpart 0 4 (by decide)).le32 (Nat.le_refl 4)).symm
  have hlength : m'.length = m.length := congrArg UInt32.toNat hsize
  have hend : m'.attributesEnd fixedSize = m.attributesEnd fixedSize := by
    rw [Message.attributesEnd, Message.attributesEnd, hsize, hlength]
  have hle := Message.attributesEnd_le hl
  have htype : m'.type = m.type := ((hpart 4 2 (by decide)).le16 (Nat.le_refl 2)).symm
  by_cases ht : m.type = Message.newLink ∨ m.type = Message.delLink
  · obtain ⟨hplaces, hread⟩ := h.congr (fun k _ hk hp => hs k (Nat.lt_of_lt_of_le hk hle) hp)
      (Nat.le_trans hle hc) (Nat.le_trans hle hc')
    rw [decode?_of_places ht hl hc h, ← hread, (hpart 20 4 (by decide)).le32 (Nat.le_refl 4)]
    refine decode?_of_places (by rwa [htype]) ?_ ?_ ?_
    · rwa [hlength]
    · rwa [hlength]
    · rwa [hend]
  · rw [decode?, decode?, htype, if_neg fun hm => ht hm.1, if_neg fun hm => ht hm.1]

variable {l : Link}

/-- Attributes that describe a link, in any order and with others between them. -/
def Describes (l : Link) (as : List Attribute) : Prop := (as.filter speaks).Perm (attributes l)

theorem names_attributes (h : 0 ∉ l.name) :
    (attributes l).filterMap name? = (some l.name).toList := by
  have hzero : Bytes.untilZero (l.name ++ [0]) = l.name := by
    have hne : ∀ x ∈ l.name, (x != 0) = true := fun x hx => by
      rw [bne_iff_ne]
      rintro rfl
      exact h hx
    rw [Bytes.untilZero, List.takeWhile_append_of_pos hne]
    exact List.append_nil _
  cases hm : l.mac <;> simp [attributes, hm, name?, hzero, nameType, mtuType, addressType]

theorem macs_attributes (l : Link) : (attributes l).filterMap mac? = l.mac.toList := by
  have hread (m : Mac) : Mac.ofBytes m.toBytes = m := by
    have hp := Bytes.prefixOf_append m.octets []
    rw [List.append_nil] at hp
    exact congrArg Mac.mk hp
  cases hm : l.mac with
  | none => simp [attributes, hm, mac?, nameType, mtuType, addressType]
  | some m =>
    have hsize : m.toBytes.length = 6 := by simp [Mac.toBytes]
    simp [attributes, hm, mac?, hsize, hread, nameType, mtuType, addressType]

theorem mtus_attributes (l : Link) : (attributes l).filterMap mtu? = (some l.mtu).toList := by
  have hread : Bytes.le32 (Bytes.ofLe32 l.mtu) = l.mtu := by
    have hr := Bytes.le32_ofLe32 l.mtu []
    rwa [List.append_nil] at hr
  have hsize : (Bytes.ofLe32 l.mtu).length = 4 := rfl
  cases hm : l.mac <;>
    simp [attributes, hm, mtu?, hread, hsize, nameType, mtuType, addressType]

theorem speaks_of_mem_attributes (l : Link) : ∀ a ∈ attributes l, speaks a = true := by
  cases hm : l.mac <;>
    simp [attributes, hm, speaks, name?, mtu?, mac?, Mac.toBytes, Bytes.ofLe32]

theorem Describes.described_eq {as : List Attribute} (h : Describes l as) (hname : 0 ∉ l.name) :
    described as { index := l.index } = l := by
  have hnames := getLast?_filterMap_of_perm h (f := name?) (fun a ha => by simp [speaks, ha])
    (names_attributes hname)
  have hmacs := getLast?_filterMap_of_perm h (f := mac?) (fun a ha => by simp [speaks, ha])
    (macs_attributes l)
  have hmtus := getLast?_filterMap_of_perm h (f := mtu?) (fun a ha => by simp [speaks, ha])
    (mtus_attributes l)
  rw [described, hnames, hmacs, hmtus, Option.or_none]
  rfl

/-- Attributes one behind the other, each with what fills it up to the next start. -/
def body (as : List (Attribute × Bytes)) : Bytes := as.flatMap fun x => x.1.encodeWith x.2

theorem all_body {as : List (Attribute × Bytes)} (h : ∀ x ∈ as, x.1.Encodable x.2) :
    Attribute.all (body as) = as.map (·.1) := by
  induction as with
  | nil => rw [body, List.flatMap_nil, Attribute.all, if_neg (by decide), List.map_nil]
  | cons x as ih =>
    obtain ⟨hx, has⟩ := List.forall_mem_cons.mp h
    rw [List.map_cons, ← ih has]
    exact Attribute.all_encodeWith hx _

/-- A message that describes a link reads as the link, whatever else is in it or behind it. -/
theorem decode?_of_describes {as : List (Attribute × Bytes)} {head : Bytes}
    (h : Describes l (as.map (·.1))) (hname : 0 ∉ l.name) (henc : ∀ x ∈ as, x.1.Encodable x.2)
    (hhead : head.length = Message.headerSize + fixedSize)
    (ht : (Message.mk head).type = Message.newLink ∨ (Message.mk head).type = Message.delLink)
    (hl : (Message.mk head).length = Message.headerSize + fixedSize + (body as).length)
    (hb : (body as).length < 2147483648) (hi : (Bytes.le32 (head.drop 20)).toInt32 = l.index)
    (rest : Bytes) :
    decode? ⟨head ++ (body as ++ rest)⟩ = some l := by
  have hheader : Message.headerSize ≤ head.length := by
    rw [hhead]
    exact Nat.le_add_right _ _
  have htype := Message.type_append head (body as ++ rest) hheader
  have hpayload := Message.payload_append (c := body as) hheader (by rw [hl, hhead]) rest
  have hlength := Message.length_append head (body as ++ rest) hheader
  rw [hl] at hlength
  have hfixed : (head.drop Message.headerSize).length = fixedSize := by
    rw [List.length_drop, hhead]
    rfl
  have hindex : Bytes.le32 ((head.drop Message.headerSize ++ body as).drop 4) =
      Bytes.le32 (head.drop 20) := by
    have hlong : 4 ≤ (head.drop 20).length := by
      rw [List.length_drop, hhead]
      decide
    rw [List.drop_append_of_le_length (by rw [hfixed]; decide), List.drop_drop]
    exact Bytes.le32_append hlong
  rw [decode?, htype, hlength, if_pos ⟨ht, Nat.le_add_right _ _⟩, hpayload, hindex, hi,
    Message.attributeBytes_append hhead hl hb, all_body henc, foldl_extend,
    h.described_eq hname]

theorem size_attributes (h : l.name.length + 5 < 65536) :
    (∀ a ∈ attributes l, Attribute.headerSize + a.payload.length < 65536) ∧
      ((attributes l).flatMap Attribute.encode).length ≤ l.name.length + 28 := by
  constructor
  · cases hm : l.mac <;>
      simp [attributes, hm, Attribute.headerSize, Bytes.ofLe32, Mac.toBytes] <;>
      omega
  · cases hm : l.mac <;>
      simp [attributes, hm, Attribute.encode, Attribute.headerSize, Bytes.text, Bytes.ofLe16,
        Bytes.ofLe32, roundUp, Mac.toBytes] <;>
      omega

/-- The header and the fixed part of a message with this length. -/
def head (type : UInt16) (sequence length : UInt32) (index : Int32) : Bytes :=
  Bytes.text [Bytes.ofLe32 length, Bytes.ofLe16 type, Bytes.ofLe16 0, Bytes.ofLe32 sequence,
    Bytes.ofLe32 0, fixedPart index]

theorem head_reads (type : UInt16) (sequence length : UInt32) (index : Int32) :
    (Message.mk (head type sequence length index)).length = length.toNat ∧
      (Message.mk (head type sequence length index)).type = type ∧
      (Bytes.le32 ((head type sequence length index).drop 20)).toInt32 = index := by
  have hlength : head type sequence length index = Bytes.ofLe32 length ++ Bytes.text
      [Bytes.ofLe16 type, Bytes.ofLe16 0, Bytes.ofLe32 sequence, Bytes.ofLe32 0,
        fixedPart index] := rfl
  have htype : (head type sequence length index).drop 4 = Bytes.ofLe16 type ++ Bytes.text
      [Bytes.ofLe16 0, Bytes.ofLe32 sequence, Bytes.ofLe32 0, fixedPart index] := rfl
  have hindex : (head type sequence length index).drop 20 =
      Bytes.ofLe32 index.toUInt32 ++ List.replicate 8 0 := rfl
  rw [Message.length, Message.size, Message.type, htype, hindex, hlength, Bytes.le32_ofLe32,
    Bytes.le16_ofLe16, Bytes.le32_ofLe32, Int32.toInt32_toUInt32]
  exact ⟨rfl, rfl, rfl⟩

theorem encode_eq (type : UInt16) (sequence : UInt32) (l : Link) :
    ∃ zeros, encode type sequence l =
      head type sequence (32 + ((attributes l).flatMap Attribute.encode).length).toUInt32 l.index ++
        ((attributes l).flatMap Attribute.encode ++ zeros) := by
  have hlength : Message.headerSize +
      (fixedPart l.index ++ (attributes l).flatMap Attribute.encode).length =
        32 + ((attributes l).flatMap Attribute.encode).length := by
    rw [List.length_append, ← Nat.add_assoc]
    rfl
  rw [encode, Message.encode]
  simp only [hlength, head, Bytes.text, List.flatten_cons, List.flatten_nil, List.append_nil,
    List.append_assoc]
  exact ⟨_, rfl⟩

/-- Messages about links as the kernel makes them read back. -/
theorem decode?_encode {type : UInt16} (ht : type = Message.newLink ∨ type = Message.delLink)
    (sequence : UInt32) (hname : 0 ∉ l.name) (hsize : l.name.length + 5 < 65536) (rest : Bytes) :
    decode? ⟨encode type sequence l ++ rest⟩ = some l := by
  obtain ⟨hsmall, hlength⟩ := size_attributes hsize
  let as := (attributes l).map fun a => (a, a.zeros)
  have hbody : body as = (attributes l).flatMap Attribute.encode := List.flatMap_map ..
  have hdescribes : Describes l (as.map (·.1)) := by
    have hall : as.map (·.1) = attributes l := by
      rw [List.map_map]
      exact List.map_id _
    rw [Describes, hall, List.filter_eq_self.mpr (speaks_of_mem_attributes l)]
  have henc : ∀ x ∈ as, x.1.Encodable x.2 :=
    List.forall_mem_map.mpr fun a ha => encodable_zeros (hsmall a ha)
  obtain ⟨zeros, he⟩ := encode_eq type sequence l
  rw [← hbody] at he hlength
  rw [he, List.append_assoc, List.append_assoc]
  obtain ⟨hl, htype, hindex⟩ :=
    head_reads type sequence (32 + (body as).length).toUInt32 l.index
  refine decode?_of_describes hdescribes hname henc rfl (by rwa [htype]) ?_ (by omega) hindex
    (zeros ++ rest)
  rw [hl]
  exact UInt32.toNat_ofNat_of_lt' (by
    rw [UInt32.size]
    omega)

/-- A message about a link that is there as a whole is read from its attributes, from the first one
to the place where none fits any more: the last name, the last address of six bytes and the last mtu
of at least four. They go as far as the message, unless a signed word cannot tell how far that is.
Padding and what is behind the message do not count. So a message that describes a link reads as the
link, whatever it contains besides. -/
theorem decode?_reads :
    (∀ m : Message, (m.type = Message.newLink ∨ m.type = Message.delLink) →
      Message.headerSize + fixedSize ≤ m.length → m.length ≤ m.tail.length →
        let stop := m.attributesEnd fixedSize
        (m.length < Message.headerSize + fixedSize + 2147483648 → stop = m.length) ∧
        ∃ os, Places m.tail stop (Message.headerSize + fixedSize) os ∧
          (∀ os', Places m.tail stop (Message.headerSize + fixedSize) os' → os' = os) ∧
          (∀ o ∈ os, Message.headerSize + fixedSize ≤ o ∧ o + lengthAt m.tail o ≤ m.length) ∧
          decode? m = some ((os.map (readAt m.tail)).foldl extend
            { index := (Bytes.le32 (m.tail.drop 20)).toInt32 }) ∧
          decode? m = some (described (os.map (readAt m.tail))
            { index := (Bytes.le32 (m.tail.drop 20)).toInt32 }) ∧
          ∀ m' : Message, m.length ≤ m'.tail.length →
            (∀ k < m.length, ¬Padding m.tail os k → m.tail.getD k 0 = m'.tail.getD k 0) →
              decode? m' = decode? m) ∧
    ∀ (l : Link) (as : List (Attribute × Bytes)) (head rest : Bytes), 0 ∉ l.name →
      Describes l (as.map (·.1)) → (∀ x ∈ as, x.1.Encodable x.2) →
        head.length = Message.headerSize + fixedSize →
          ((Message.mk head).type = Message.newLink ∨ (Message.mk head).type = Message.delLink) →
            (Message.mk head).length = Message.headerSize + fixedSize + (body as).length →
              (body as).length < 2147483648 →
                (Bytes.le32 (head.drop 20)).toInt32 = l.index →
                  decode? ⟨head ++ (body as ++ rest)⟩ = some l := by
  refine ⟨fun m ht hl hc => ⟨Message.attributesEnd_eq hl, ?_⟩,
    fun l as head rest hname h henc hhead ht hl hb hi =>
      decode?_of_describes h hname henc hhead ht hl hb hi rest⟩
  obtain ⟨os, h⟩ :=
    exists_places m.tail (m.attributesEnd fixedSize) (Message.headerSize + fixedSize)
  have hfold := decode?_of_places ht hl hc h
  refine ⟨os, h, fun os' h' => h'.ext h, fun o ho => ?_, hfold, ?_, fun m' => decode?_congr hl hc h⟩
  · obtain ⟨hle, -, hinside⟩ := h.inside o ho
    exact ⟨hle, Nat.le_trans hinside (Message.attributesEnd_le hl)⟩
  · rwa [foldl_extend] at hfold

/-- A link between attributes that say nothing about it, one of another kind and an address that is
too short. The padding is filled with this byte. -/
def tap5 (x : UInt8) : List (Attribute × Bytes) :=
  [(⟨99, [1, 2, 3]⟩, [x]), (⟨nameType, Bytes.ofString "tap5" ++ [0]⟩, [x, x, x]),
    (⟨addressType, [10, 0, 0, 1]⟩, []), (⟨mtuType, Bytes.ofLe32 1500⟩, [])]

def tap5Head : Bytes :=
  Bytes.text [Bytes.ofLe32 68, Bytes.ofLe16 Message.newLink, Bytes.ofLe16 2, Bytes.ofLe32 1,
    Bytes.ofLe32 0, fixedPart 5]

/-- It reads the same with other padding and with other bytes behind it. -/
theorem decode?_tap5 :
    decode? ⟨tap5Head ++ (body (tap5 7) ++ [1, 2])⟩ =
        some { index := 5, name := "tap5", mtu := 1500 } ∧
      decode? ⟨tap5Head ++ (body (tap5 8) ++ [3])⟩ =
        decode? ⟨tap5Head ++ (body (tap5 7) ++ [1, 2])⟩ := by
  obtain ⟨hplaces, hread⟩ := decode?_reads
  refine ⟨hread { index := 5, name := "tap5", mtu := 1500 } (tap5 7) tap5Head [1, 2] (by decide)
    (by unfold Describes; decide +kernel) (by decide +kernel) (by decide) (by decide +kernel)
    (by decide +kernel) (by decide +kernel) (by decide +kernel), ?_⟩
  obtain ⟨-, os, -, hos, -, -, -, hcongr⟩ := hplaces ⟨tap5Head ++ (body (tap5 7) ++ [1, 2])⟩
    (by decide +kernel) (by decide +kernel) (by decide +kernel)
  obtain rfl : [32, 40, 52, 60] = os := hos _ <|
    .step (by decide +kernel) <| .step (by decide +kernel) <| .step (by decide +kernel) <|
      .step (by decide +kernel) <| .done (by decide +kernel)
  exact hcongr ⟨tap5Head ++ (body (tap5 8) ++ [3])⟩ (by decide +kernel) (by decide +kernel)

end LinkMessage

end RouterAdvert.Netlink
