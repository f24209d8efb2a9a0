import RouterAdvert.Proofs.Netlink.Links

/-! What a message says about a route. A single destination that is no whole address makes it say
nothing at all; otherwise the last attribute of each kind counts, and everything else in the message
can be anything. -/
namespace RouterAdvert.Netlink.RouteMessage

open Attribute
open LinkMessage (body all_body)

/-- Whether a message can hold the attribute: a destination must be a whole address. -/
def Admits (a : Attribute) : Prop := a.type = destinationType → a.payload.length = 16

instance (a : Attribute) : Decidable (Admits a) := inferInstanceAs (Decidable (_ → _))

def destination? (a : Attribute) : Option Address :=
  if a.type = destinationType then some (.ofBytes a.payload) else none

def interface? (a : Attribute) : Option Int32 :=
  if a.type = interfaceType ∧ 4 ≤ a.payload.length then some (Bytes.le32 a.payload).toInt32
  else none

def table? (a : Attribute) : Option UInt32 :=
  if a.type = tableType ∧ 4 ≤ a.payload.length then some (Bytes.le32 a.payload) else none

/-- Whether an attribute says anything about a route. -/
def speaks (a : Attribute) : Bool :=
  (destination? a).isSome || (interface? a).isSome || (table? a).isSome

/-- What becomes of a route by attributes, the last of each kind. -/
def described (as : List Attribute) (r : Route) : Route where
  destination := (as.filterMap destination?).getLast?.getD r.destination
  length := r.length
  interface := (as.filterMap interface?).getLast?.getD r.interface
  table := (as.filterMap table?).getLast?.getD r.table

theorem extend?_eq (r : Route) (a : Attribute) :
    extend? r a =
      if Admits a then
        some
          { destination := (destination? a).getD r.destination
            length := r.length
            interface := (interface? a).getD r.interface
            table := (table? a).getD r.table }
      else none := by
  have hkinds : destinationType ≠ interfaceType ∧ destinationType ≠ tableType ∧
      interfaceType ≠ tableType := by decide
  obtain ⟨hdi, hdt, hit⟩ := hkinds
  unfold extend? Admits destination? interface? table?
  by_cases hd : a.type = destinationType
  · simp [hd, hdi, hdt]
  · by_cases hi : a.type = interfaceType
    · by_cases h4 : 4 ≤ a.payload.length <;> simp [hi, h4, hdi.symm, hit]
    · by_cases ht : a.type = tableType
      · by_cases h4 : 4 ≤ a.payload.length <;> simp [ht, h4, hdt.symm, hit.symm]
      · simp [hd, hi, ht]

/-- One attribute that cannot be there spoils all the others, before it and behind it. -/
theorem foldlM_extend?_eq_some_iff {as : List Attribute} {r s : Route} :
    as.foldlM extend? r = some s ↔ (∀ a ∈ as, Admits a) ∧ described as r = s := by
  induction as generalizing r with
  | nil => simp [described]
  | cons a as ih =>
    rw [List.foldlM_cons, extend?_eq, List.forall_mem_cons, Option.bind_eq_bind]
    by_cases ha : Admits a
    · rw [if_pos ha, Option.bind_some, ih]
      unfold described
      simp only [getLast?_filterMap_cons, Option.getD_or, ha, true_and]
    · rw [if_neg ha, Option.bind_none]
      simp [ha]

variable {m : Message}

/-- What the fixed part says. -/
def header (b : Bytes) : Route := { length := b.getD 17 0, table := (b.getD 20 0).toUInt32 }

theorem decode?_of_places (hl : Message.headerSize + fixedSize ≤ m.length)
    (hc : m.length ≤ m.tail.length) {os : List Nat}
    (h : Places m.tail (m.attributesEnd fixedSize) (Message.headerSize + fixedSize) os) :
    decode? m =
      if m.type = Message.newRoute ∧ m.tail.getD 16 0 = inet6 ∧ m.tail.getD 17 0 ≤ 128 then
        (os.map (readAt m.tail)).foldlM extend? (header m.tail)
      else none := by
  have hattributes : Attribute.all (m.attributeBytes fixedSize) = os.map (readAt m.tail) :=
    h.all_eq (Nat.le_trans (Message.attributesEnd_le hl) hc)
  have hfixed {k : Nat} (hk : k < fixedSize) : m.payload.getD k 0 = m.tail.getD (16 + k) 0 := by
    rw [Message.payload, Bytes.getD_drop, Bytes.getD_take (by omega)]
    rfl
  simp only [decode?, hattributes, hl, true_and, hfixed (k := 0) (by decide),
    hfixed (k := 1) (by decide), hfixed (k := 4) (by decide), header]

theorem decode?_eq_some_iff (hc : m.length ≤ m.tail.length) {os : List Nat}
    (h : Places m.tail (m.attributesEnd fixedSize) (Message.headerSize + fixedSize) os)
    {r : Route} :
    decode? m = some r ↔
      m.type = Message.newRoute ∧ Message.headerSize + fixedSize ≤ m.length ∧
        m.tail.getD 16 0 = inet6 ∧ m.tail.getD 17 0 ≤ 128 ∧
        (∀ o ∈ os, Admits (readAt m.tail o)) ∧
        described (os.map (readAt m.tail)) (header m.tail) = r := by
  by_cases hl : Message.headerSize + fixedSize ≤ m.length
  · rw [decode?_of_places hl hc h]
    split
    · rename_i hm
      rw [foldlM_extend?_eq_some_iff, List.forall_mem_map]
      simp only [hm, hl, true_and]
    · rename_i hm
      refine iff_of_false (by simp) ?_
      rintro ⟨ht, -, hf, hd, -⟩
      exact hm ⟨ht, hf, hd⟩
  · refine iff_of_false ?_ fun hm => hl hm.2.1
    rw [decode?, if_neg fun hm => hl hm.2.1]
    simp

/-- Bytes behind the message and padding in it do not count. -/
theorem decode?_congr (hh : Message.headerSize ≤ m.length) (hc : m.length ≤ m.tail.length)
    {os : List Nat}
    (h : Places m.tail (m.attributesEnd fixedSize) (Message.headerSize + fixedSize) os)
    {m' : Message} (hc' : m.length ≤ m'.tail.length)
    (hs : ∀ k < m.length, ¬Padding m.tail os k → m.tail.getD k 0 = m'.tail.getD k 0) :
    decode? m' = decode? m := by
  have hfront {k : Nat} (hk : k < Message.headerSize + fixedSize) (hkm : k < m.length) :
      m.tail.getD k 0 = m'.tail.getD k 0 := hs k hkm (h.not_padding hk)
  have hheader : Bytes.Agree 0 16 m.tail m'.tail := fun k _ hk => by
    unfold Message.headerSize at hh
    exact hfront (by unfold Message.headerSize fixedSize; omega) (by omega)
  have hsize : m'.size = m.size := by
    have hagree : Bytes.Agree 0 4 m.tail m'.tail := fun k ho hk => hheader k ho (by omega)
    exact (hagree.le32 (Nat.le_refl 4)).symm
  have hlength : m'.length = m.length := congrArg UInt32.toNat hsize
  have htype : m'.type = m.type := by
    have hagree : Bytes.Agree 4 2 m.tail m'.tail := fun k _ hk => hheader k (by omega) (by omega)
    exact (hagree.le16 (Nat.le_refl 2)).symm
  have hend : m'.attributesEnd fixedSize = m.attributesEnd fixedSize := by
    rw [Message.attributesEnd, Message.attributesEnd, hsize, hlength]
  by_cases hl : Message.headerSize + fixedSize ≤ m.length
  · have hle := Message.attributesEnd_le hl
    obtain ⟨hplaces, hread⟩ := h.congr (fun k _ hk hp => hs k (Nat.lt_of_lt_of_le hk hle) hp)
      (Nat.le_trans hle hc) (Nat.le_trans hle hc')
    rw [← hlength] at hc'
    rw [← hend] at hplaces
    have hfixed {k : Nat} (hk : k < 28) : m'.tail.getD k 0 = m.tail.getD k 0 :=
      (hfront hk (Nat.lt_of_lt_of_le hk hl)).symm
    rw [decode?_of_places hl hc h, decode?_of_places (by rwa [hlength]) hc' hplaces, htype, hread,
      header, header, hfixed (by decide : 16 < 28), hfixed (by decide : 17 < 28),
      hfixed (by decide : 20 < 28)]
  · rw [decode?, decode?, if_neg fun hm => hl (hlength ▸ hm.2.1), if_neg fun hm => hl hm.2.1]

variable {r : Route} {table : UInt8}

/-- Whether one attribute is there, or left out for a reason. -/
def Holds (reason : Prop) (a : Attribute) (as : List Attribute) : Prop :=
  as = [a] ∨ reason ∧ as = []

/-- Attributes that describe a route, in any order and with others between them. What is zero need
not be said, and neither does the table if the fixed part tells it. -/
def Describes (r : Route) (table : UInt8) (as : List Attribute) : Prop :=
  ∃ ds is ts,
    Holds (r.destination = .unspecified) ⟨destinationType, r.destination.toBytes⟩ ds ∧
      Holds (r.interface = 0) ⟨interfaceType, Bytes.ofLe32 r.interface.toUInt32⟩ is ∧
      Holds (r.table = table.toUInt32) ⟨tableType, Bytes.ofLe32 r.table⟩ ts ∧
      (as.filter speaks).Perm (ds ++ is ++ ts)

/-- What is said, or else was so before, is what becomes of it. -/
theorem Holds.getD_eq {β : Type} {reason : Prop} {a : Attribute} {as : List Attribute}
    (h : Holds reason a as) {f : Attribute → Option β} {x y : β} (hx : f a = some x)
    (hy : reason → y = x) : ∃ z : Option β, as.filterMap f = z.toList ∧ z.getD y = x := by
  rcases h with rfl | ⟨hr, rfl⟩
  · exact ⟨some x, by simp [hx], rfl⟩
  · exact ⟨none, rfl, hy hr⟩

theorem Holds.eq_of_mem {reason : Prop} {a b : Attribute} {as : List Attribute}
    (h : Holds reason a as) (hb : b ∈ as) : b = a := by
  rcases h with rfl | ⟨-, rfl⟩
  · exact List.mem_singleton.mp hb
  · cases hb

theorem Holds.filterMap_eq_nil {β : Type} {reason : Prop} {a : Attribute} {as : List Attribute}
    (h : Holds reason a as) {f : Attribute → Option β} (hf : f a = none) : as.filterMap f = [] :=
  List.filterMap_eq_nil_iff.mpr fun _ hb => h.eq_of_mem hb ▸ hf

theorem Describes.described_eq {as : List Attribute} (h : Describes r table as) :
    described as { length := r.length, table := table.toUInt32 } = r := by
  obtain ⟨ds, is, ts, hd, hi, ht, hperm⟩ := h
  have hword (v : UInt32) : Bytes.le32 (Bytes.ofLe32 v) = v := by
    have hv := Bytes.le32_ofLe32 v []
    rwa [List.append_nil] at hv
  have hsize (v : UInt32) : (Bytes.ofLe32 v).length = 4 := rfl
  have hwhole : Address.ofBytes r.destination.toBytes = r.destination := by
    have ho := Bytes.prefixOf_append r.destination.octets []
    rw [List.append_nil] at ho
    exact congrArg Address.mk ho
  obtain ⟨d, hds, hdest⟩ := hd.getD_eq (f := destination?) (x := r.destination) (y := .unspecified)
    (by simp [destination?, hwhole]) Eq.symm
  obtain ⟨i, his, hinter⟩ := hi.getD_eq (f := interface?) (x := r.interface) (y := 0)
    (by simp [interface?, hword, hsize]) Eq.symm
  obtain ⟨t, hts, htable⟩ := ht.getD_eq (f := table?) (x := r.table) (y := table.toUInt32)
    (by simp [table?, hword, hsize]) Eq.symm
  have hlast {β : Type} {f : Attribute → Option β} {x : Option β}
      (hf : ∀ a, (f a).isSome → speaks a = true) (hx : (ds ++ is ++ ts).filterMap f = x.toList) :
      (as.filterMap f).getLast? = x := getLast?_filterMap_of_perm hperm hf hx
  rw [described, hlast (f := destination?) (x := d) (fun a ha => by simp [speaks, ha]) ?_,
    hlast (f := interface?) (x := i) (fun a ha => by simp [speaks, ha]) ?_,
    hlast (f := table?) (x := t) (fun a ha => by simp [speaks, ha]) ?_, hdest, hinter, htable]
  · rw [List.filterMap_append, List.filterMap_append, hts, hd.filterMap_eq_nil (by rfl),
      hi.filterMap_eq_nil (by rfl)]
    simp
  · rw [List.filterMap_append, List.filterMap_append, his, hd.filterMap_eq_nil (by rfl),
      ht.filterMap_eq_nil (by rfl)]
    simp
  · rw [List.filterMap_append, List.filterMap_append, hds, hi.filterMap_eq_nil (by rfl),
      ht.filterMap_eq_nil (by rfl)]
    simp

/-- The only destination is a whole address. -/
theorem Describes.admits {as : List Attribute} (h : Describes r table as) :
    ∀ a ∈ as, Admits a := by
  obtain ⟨ds, is, ts, hd, hi, ht, hperm⟩ := h
  intro a ha hdest
  have hmem : a ∈ ds ++ is ++ ts :=
    hperm.mem_iff.mp (List.mem_filter.mpr ⟨ha, by simp [speaks, destination?, hdest]⟩)
  rcases List.mem_append.mp hmem with hmem | hmem
  · rcases List.mem_append.mp hmem with hmem | hmem
    · rw [hd.eq_of_mem hmem, Address.toBytes, Vector.length_toList]
    · rw [hi.eq_of_mem hmem] at hdest
      cases hdest
  · rw [ht.eq_of_mem hmem] at hdest
    cases hdest

/-- A message that describes a route reads as the route, whatever else is in it or behind it. -/
theorem decode?_of_describes {as : List (Attribute × Bytes)} {front : Bytes}
    (h : Describes r table (as.map (·.1))) (hr : r.length ≤ 128)
    (henc : ∀ x ∈ as, x.1.Encodable x.2)
    (hfront : front.length = Message.headerSize + fixedSize)
    (ht : (Message.mk front).type = Message.newRoute)
    (hl : (Message.mk front).length = Message.headerSize + fixedSize + (body as).length)
    (hb : (body as).length < 2147483648) (hf : front.getD 16 0 = inet6)
    (hd : front.getD 17 0 = r.length)
    (htable : front.getD 20 0 = table) (rest : Bytes) :
    decode? ⟨front ++ (body as ++ rest)⟩ = some r := by
  have hheader : Message.headerSize ≤ front.length := by
    rw [hfront]
    exact Nat.le_add_right _ _
  have htype := Message.type_append front (body as ++ rest) hheader
  have hpayload := Message.payload_append (c := body as) hheader (by rw [hl, hfront]) rest
  have hlength := Message.length_append front (body as ++ rest) hheader
  rw [hl] at hlength
  have hfixed : (front.drop Message.headerSize).length = fixedSize := by
    rw [List.length_drop, hfront]
    rfl
  have hoctet {k : Nat} (hk : k < fixedSize) :
      (front.drop Message.headerSize ++ body as).getD k 0 = front.getD (16 + k) 0 := by
    rw [Bytes.getD_append (by rwa [hfixed]), Bytes.getD_drop]
    rfl
  simp only [decode?, htype, hlength, hpayload, hoctet (k := 0) (by decide),
    hoctet (k := 1) (by decide), hoctet (k := 4) (by decide), Nat.add_zero]
  rw [Message.attributeBytes_append hfront hl hb, all_body henc, hf, hd, htable,
    if_pos ⟨ht, Nat.le_add_right _ _, rfl, hr⟩]
  exact foldlM_extend?_eq_some_iff.mpr ⟨h.admits, h.described_eq⟩

/-- The fixed part of messages about a route, with what this library says in it. -/
def fixedPart (r : Route) : Bytes :=
  [inet6, r.length, 0, 0, r.table.toUInt8, 0, 0, 0, 0, 0, 0, 0]

/-- The header and the fixed part of a message with this length. -/
def front (sequence length : UInt32) (r : Route) : Bytes :=
  Bytes.text [Bytes.ofLe32 length, Bytes.ofLe16 Message.newRoute, Bytes.ofLe16 0,
    Bytes.ofLe32 sequence, Bytes.ofLe32 0, fixedPart r]

theorem front_reads (sequence length : UInt32) (r : Route) :
    (Message.mk (front sequence length r)).length = length.toNat ∧
      (Message.mk (front sequence length r)).type = Message.newRoute := by
  have hlength : front sequence length r = Bytes.ofLe32 length ++ Bytes.text
      [Bytes.ofLe16 Message.newRoute, Bytes.ofLe16 0, Bytes.ofLe32 sequence, Bytes.ofLe32 0,
        fixedPart r] := rfl
  have htype : (front sequence length r).drop 4 = Bytes.ofLe16 Message.newRoute ++ Bytes.text
      [Bytes.ofLe16 0, Bytes.ofLe32 sequence, Bytes.ofLe32 0, fixedPart r] := rfl
  rw [Message.length, Message.size, Message.type, htype, hlength, Bytes.le32_ofLe32,
    Bytes.le16_ofLe16]
  exact ⟨rfl, rfl⟩

theorem describes_attributes (hr : r.length = 0 → r.destination = .unspecified) (t : UInt8) :
    Describes r t (attributes r) := by
  have hspeaks : (attributes r).filter speaks = attributes r := by
    refine List.filter_eq_self.mpr ?_
    by_cases h0 : r.length = 0 <;>
      simp [attributes, h0, speaks, destination?, interface?, table?, Bytes.ofLe32]
  refine ⟨if r.length = 0 then [] else [⟨destinationType, r.destination.toBytes⟩], _, _, ?_,
    Or.inl rfl, Or.inl rfl, ?_⟩
  · split
    · rename_i h0
      exact Or.inr ⟨hr h0, rfl⟩
    · exact Or.inl rfl
  · rw [hspeaks, attributes, List.append_assoc]
    exact List.perm_append_comm

/-- Messages about routes as the kernel makes them read back. A default route has no destination. -/
theorem decode?_encode (h128 : r.length ≤ 128) (hr : r.length = 0 → r.destination = .unspecified)
    (sequence : UInt32) (rest : Bytes) : decode? ⟨encode sequence r ++ rest⟩ = some r := by
  let as := (attributes r).map fun a => (a, a.zeros)
  have hall : as.map (·.1) = attributes r := by
    rw [List.map_map]
    exact List.map_id _
  have hsmall : ∀ a ∈ attributes r, Attribute.headerSize + a.payload.length < 65536 := by
    by_cases h0 : r.length = 0 <;>
      simp [attributes, h0, Attribute.headerSize, Bytes.ofLe32, Address.toBytes]
  have henc : ∀ x ∈ as, x.1.Encodable x.2 :=
    List.forall_mem_map.mpr fun a ha => encodable_zeros (hsmall a ha)
  have hbody : body as = (attributes r).flatMap Attribute.encode := List.flatMap_map ..
  have hsize : (body as).length < 64 := by
    rw [hbody]
    by_cases h0 : r.length = 0 <;>
      simp [attributes, h0, Attribute.encode, Attribute.headerSize, Bytes.text, Bytes.ofLe16,
        Bytes.ofLe32, roundUp, Address.toBytes]
  obtain ⟨zeros, he⟩ : ∃ zeros, encode sequence r =
      front sequence (28 + (body as).length).toUInt32 r ++ (body as ++ zeros) := by
    have hlength : Message.headerSize + (fixedPart r ++ body as).length =
        28 + (body as).length := by
      rw [List.length_append, ← Nat.add_assoc]
      rfl
    have hencode : encode sequence r =
        Message.encode Message.newRoute 0 sequence (fixedPart r ++ body as) := by
      rw [hbody]
      rfl
    rw [hencode, Message.encode]
    simp only [hlength, front, Bytes.text, List.flatten_cons, List.flatten_nil, List.append_nil,
      List.append_assoc]
    exact ⟨_, rfl⟩
  obtain ⟨hl, ht⟩ := front_reads sequence (28 + (body as).length).toUInt32 r
  rw [he, List.append_assoc, List.append_assoc]
  refine decode?_of_describes (hall ▸ describes_attributes hr _) h128
    henc rfl ht ?_ (by omega) rfl rfl rfl (zeros ++ rest)
  rw [hl]
  exact UInt32.toNat_ofNat_of_lt' (by
    rw [UInt32.size]
    omega)

/-- A message that is there as a whole is about a route exactly if its type, its length, its family
and the length of the destination are those of one, and no destination, from the first attribute to
the place where none fits any more, is other than a whole address. The attributes go as far as the
message, unless a signed word cannot tell how far that is. The route is then what the fixed part
says, overridden by the last attribute of each kind. Padding and what is behind the message do not
count. So a message that describes a route reads as the route, whatever it contains besides. -/
theorem decode?_accepts :
    (∀ m : Message, m.length ≤ m.tail.length →
      let stop := m.attributesEnd fixedSize
      (Message.headerSize + fixedSize ≤ m.length →
        m.length < Message.headerSize + fixedSize + 2147483648 → stop = m.length) ∧
      ∃ os, Places m.tail stop (Message.headerSize + fixedSize) os ∧
        (∀ os', Places m.tail stop (Message.headerSize + fixedSize) os' → os' = os) ∧
        (∀ r, decode? m = some r ↔
          m.type = Message.newRoute ∧ Message.headerSize + fixedSize ≤ m.length ∧
            m.tail.getD 16 0 = inet6 ∧ m.tail.getD 17 0 ≤ 128 ∧
            (∀ o ∈ os, (readAt m.tail o).type = destinationType →
              (readAt m.tail o).payload.length = 16) ∧
            described (os.map (readAt m.tail))
              { length := m.tail.getD 17 0, table := (m.tail.getD 20 0).toUInt32 } = r) ∧
        ∀ m' : Message, Message.headerSize ≤ m.length → m.length ≤ m'.tail.length →
          (∀ k < m.length, ¬Padding m.tail os k → m.tail.getD k 0 = m'.tail.getD k 0) →
            decode? m' = decode? m) ∧
    ∀ (r : Route) (table : UInt8) (as : List (Attribute × Bytes)) (front rest : Bytes),
      r.length ≤ 128 → Describes r table (as.map (·.1)) → (∀ x ∈ as, x.1.Encodable x.2) →
        front.length = Message.headerSize + fixedSize →
          (Message.mk front).type = Message.newRoute →
            (Message.mk front).length = Message.headerSize + fixedSize + (body as).length →
              (body as).length < 2147483648 → front.getD 16 0 = inet6 →
                front.getD 17 0 = r.length → front.getD 20 0 = table →
                  decode? ⟨front ++ (body as ++ rest)⟩ = some r := by
  refine ⟨fun m hc => ⟨Message.attributesEnd_eq, ?_⟩,
    fun r table as front rest hr h henc hfront ht hl hb hf hd htable =>
      decode?_of_describes h hr henc hfront ht hl hb hf hd htable rest⟩
  obtain ⟨os, h⟩ :=
    exists_places m.tail (m.attributesEnd fixedSize) (Message.headerSize + fixedSize)
  exact ⟨os, h, fun os' h' => h'.ext h, fun r => decode?_eq_some_iff hc h,
    fun m' hh => decode?_congr hh hc h⟩

/-- A host route of a table with a large number, between attributes that say nothing about it: one
of another kind, and an interface that is too short. The padding is filled with this byte. -/
def host5 (x : UInt8) : List (Attribute × Bytes) :=
  [(⟨99, [1, 2, 3]⟩, [x]), (⟨tableType, Bytes.ofLe32 1000⟩, []), (⟨interfaceType, [7]⟩, [x, x, x]),
    (⟨destinationType, Address.unspecified.toBytes⟩, []), (⟨interfaceType, Bytes.ofLe32 5⟩, [])]

/-- What comes before attributes of this length. -/
def host5Front (length : UInt32) : Bytes :=
  front 1 (28 + length) { length := 128, interface := 5, table := 1000 }

/-- It reads the same with other padding and with other bytes behind it. Behind a second destination
that is no whole address it does not read at all. -/
theorem decode?_host5 :
    decode? ⟨host5Front 52 ++ (body (host5 7) ++ [1, 2])⟩ =
        some { length := 128, interface := 5, table := 1000 } ∧
      decode? ⟨host5Front 52 ++ (body (host5 8) ++ [3])⟩ =
        decode? ⟨host5Front 52 ++ (body (host5 7) ++ [1, 2])⟩ ∧
      decode? ⟨host5Front 60 ++ body (host5 7 ++ [(⟨destinationType, [1, 2, 3, 4]⟩, [])])⟩ =
        none := by
  obtain ⟨hplaces, hread⟩ := decode?_accepts
  refine ⟨hread { length := 128, interface := 5, table := 1000 } 232 (host5 7) (host5Front 52)
    [1, 2] (by decide) ?_ (by decide +kernel) (by decide) (by decide +kernel) (by decide +kernel)
    (by decide +kernel) (by decide +kernel) (by decide +kernel) (by decide +kernel), ?_, ?_⟩
  · exact ⟨_, _, _, Or.inl rfl, Or.inl rfl, Or.inl rfl, by decide +kernel⟩
  · obtain ⟨-, os, -, hos, -, hcongr⟩ := hplaces ⟨host5Front 52 ++ (body (host5 7) ++ [1, 2])⟩
      (by decide +kernel)
    obtain rfl : [28, 36, 44, 52, 72] = os := hos _ <|
      .step (by decide +kernel) <| .step (by decide +kernel) <| .step (by decide +kernel) <|
        .step (by decide +kernel) <| .step (by decide +kernel) <| .done (by decide +kernel)
    exact hcongr ⟨host5Front 52 ++ (body (host5 8) ++ [3])⟩ (by decide +kernel) (by decide +kernel)
      (by decide +kernel)
  · obtain ⟨-, os, -, hos, hiff, -⟩ := hplaces
      ⟨host5Front 60 ++ body (host5 7 ++ [(⟨destinationType, [1, 2, 3, 4]⟩, [])])⟩
      (by decide +kernel)
    obtain rfl : [28, 36, 44, 52, 72, 80] = os := hos _ <|
      .step (by decide +kernel) <| .step (by decide +kernel) <| .step (by decide +kernel) <|
        .step (by decide +kernel) <| .step (by decide +kernel) <| .step (by decide +kernel) <|
          .done (by decide +kernel)
    refine Option.eq_none_iff_forall_ne_some.mpr fun r hr => ?_
    obtain ⟨-, -, -, -, hwhole, -⟩ := (hiff r).mp hr
    exact absurd (hwhole 80 (by decide) (by decide +kernel)) (by decide +kernel)

end RouterAdvert.Netlink.RouteMessage
