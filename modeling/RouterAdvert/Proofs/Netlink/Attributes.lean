import RouterAdvert.Proofs.Ndp.Field
import RouterAdvert.Proofs.Netlink.Datagram

/-! Where attributes lie. Each one starts behind the padding of the one before it, and the walk ends
at the first place where none fits; so it stays inside the message, and padding says nothing. -/
namespace RouterAdvert

namespace Bytes

variable {b c : Bytes} {k n o : Nat}

theorem getD_drop (b : Bytes) (o k : Nat) : (b.drop o).getD k 0 = b.getD (o + k) 0 := by
  simp only [List.getD_eq_getElem?_getD, List.getElem?_drop]

theorem le16_ofLe16 (v : UInt16) (rest : Bytes) : le16 (ofLe16 v ++ rest) = v := be16_split v

theorem le32_ofLe32 (v : UInt32) (rest : Bytes) : le32 (ofLe32 v ++ rest) = v := be32_split v

/-- Two byte strings that agree between two places. -/
def Agree (o n : Nat) (b c : Bytes) : Prop := ∀ k, o ≤ k → k < o + n → b.getD k 0 = c.getD k 0

theorem Agree.le16 (h : Agree o n b c) (hn : 2 ≤ n) : le16 (b.drop o) = le16 (c.drop o) := by
  unfold Bytes.le16
  simp only [getD_drop]
  rw [h (o + 1) (by omega) (by omega), h (o + 0) (by omega) (by omega)]

theorem Agree.le32 (h : Agree o n b c) (hn : 4 ≤ n) : le32 (b.drop o) = le32 (c.drop o) := by
  unfold Bytes.le32
  simp only [getD_drop]
  rw [h (o + 3) (by omega) (by omega), h (o + 2) (by omega) (by omega),
    h (o + 1) (by omega) (by omega), h (o + 0) (by omega) (by omega)]

theorem Agree.take_drop (h : Agree o n b c) (hb : o + n ≤ b.length) (hc : o + n ≤ c.length) :
    (b.drop o).take n = (c.drop o).take n := by
  apply List.ext_getElem
  · simp only [List.length_take, List.length_drop]
    omega
  · intro i hi hj
    simp only [List.length_take, List.length_drop] at hi hj
    have hbyte := h (o + i) (by omega) (by omega)
    have hi' : o + i < b.length := by omega
    have hj' : o + i < c.length := by omega
    simp only [List.getD_eq_getElem?_getD, List.getElem?_eq_getElem hi',
      List.getElem?_eq_getElem hj', Option.getD_some] at hbyte
    simpa using hbyte

end Bytes

namespace Netlink.Attribute

open Bytes

variable {memory memory' : Bytes} {stop o : Nat} {os : List Nat}

/-- The length that the attribute at this place gives itself. -/
def lengthAt (memory : Bytes) (o : Nat) : Nat := (Bytes.le16 (memory.drop o)).toNat

/-- Whether the attribute at this place is well-formed, in what counts of the memory. -/
def FitsAt (memory : Bytes) (stop o : Nat) : Prop :=
  headerSize ≤ lengthAt memory o ∧ o + lengthAt memory o ≤ stop

instance (memory : Bytes) (stop o : Nat) : Decidable (FitsAt memory stop o) :=
  inferInstanceAs (Decidable (_ ∧ _))

def readAt (memory : Bytes) (o : Nat) : Attribute :=
  { type := Bytes.le16 (memory.drop (o + 2))
    payload := ((memory.drop o).take (lengthAt memory o)).drop headerSize }

/-- The places of the attributes from `o` on, up to the first place where none fits. -/
inductive Places (memory : Bytes) (stop : Nat) : Nat → List Nat → Prop
  | done {o : Nat} (h : ¬FitsAt memory stop o) : Places memory stop o []
  | step {o : Nat} {os : List Nat} (h : FitsAt memory stop o)
    (rest : Places memory stop (o + roundUp (lengthAt memory o)) os) :
    Places memory stop o (o :: os)

/-- Whether a byte lies between an attribute and the next start. -/
def Padding (memory : Bytes) (os : List Nat) (k : Nat) : Prop :=
  ∃ o ∈ os, o + lengthAt memory o ≤ k ∧ k < o + roundUp (lengthAt memory o)

instance (memory : Bytes) (os : List Nat) (k : Nat) : Decidable (Padding memory os k) :=
  inferInstanceAs (Decidable (∃ o ∈ os, _))

namespace Places

theorem ext {os' : List Nat} (h : Places memory stop o os) (h' : Places memory stop o os') :
    os = os' := by
  induction h generalizing os' with
  | done hn =>
    cases h' with
    | done => rfl
    | step hf => exact absurd hf hn
  | step hf _ ih =>
    cases h' with
    | done hn => exact absurd hf hn
    | step _ rest => rw [ih rest]

/-- All places are inside, one behind the other. -/
theorem inside (h : Places memory stop o os) :
    ∀ x ∈ os, o ≤ x ∧ headerSize ≤ lengthAt memory x ∧ x + lengthAt memory x ≤ stop := by
  induction h with
  | done => simp
  | step hf _ ih =>
    refine List.forall_mem_cons.mpr ⟨⟨Nat.le_refl _, hf⟩, fun x hx => ?_⟩
    exact ⟨Nat.le_trans (Nat.le_add_right _ _) (ih x hx).1, (ih x hx).2⟩

/-- Nothing in front of the first place is padding. -/
theorem not_padding (h : Places memory stop o os) {k : Nat} (hk : k < o) :
    ¬Padding memory os k := by
  rintro ⟨x, hx, hle, -⟩
  have hinside := (h.inside x hx).1
  omega

/-- The walk finds what lies at the places. -/
theorem all_eq (h : Places memory stop o os) (hs : stop ≤ memory.length) :
    all ((memory.take stop).drop o) = os.map (readAt memory) := by
  induction h with
  | @done o hn =>
    rw [all, if_neg, List.map_nil]
    rw [List.drop_take]
    rintro ⟨hh, hl, hle⟩
    simp only [List.length_take, List.length_drop] at hh hle
    rw [Bytes.le16_take (by unfold headerSize at hh; omega)] at hl hle
    refine hn ⟨hl, ?_⟩
    unfold headerSize at hl
    unfold lengthAt
    omega
  | @step o os hf _ ih =>
    obtain ⟨hh, hle⟩ := hf
    have hn : 4 ≤ stop - o := by
      unfold headerSize at hh
      omega
    have hlength : (Bytes.le16 ((memory.take stop).drop o)).toNat = lengthAt memory o := by
      rw [List.drop_take, Bytes.le16_take (by omega), lengthAt]
    have hsize : ((memory.take stop).drop o).length = stop - o := by
      rw [List.length_drop, List.length_take, Nat.min_eq_left hs]
    have htype : Bytes.le16 (((memory.take stop).drop o).drop 2) =
        Bytes.le16 (memory.drop (o + 2)) := by
      rw [List.drop_drop, List.drop_take, Bytes.le16_take (by omega)]
    have hpayload : ((memory.take stop).drop o).take (lengthAt memory o) =
        (memory.drop o).take (lengthAt memory o) := by
      rw [List.drop_take, List.take_take, Nat.min_eq_left (by omega)]
    rw [all]
    simp only [align_toUInt32, hlength, hsize, htype, hpayload]
    rw [if_pos ⟨by unfold headerSize; omega, hh, by omega⟩, List.drop_drop, ih, List.map_cons]
    rfl

end Places

/-- There are such places, since each one is further on. -/
theorem exists_places (memory : Bytes) (stop o : Nat) : ∃ os, Places memory stop o os := by
  induction hn : stop - o using Nat.strongRecOn generalizing o with
  | ind n ih =>
    by_cases hf : FitsAt memory stop o
    · have hlt : stop - (o + roundUp (lengthAt memory o)) < n := by
        obtain ⟨hh, hle⟩ := hf
        unfold headerSize at hh
        unfold roundUp
        omega
      obtain ⟨os, hos⟩ := ih _ hlt _ rfl
      exact ⟨o :: os, .step hf hos⟩
    · exact ⟨[], .done hf⟩

/-- Neither padding nor what is behind the end matters. -/
theorem Places.congr (h : Places memory stop o os)
    (hs : ∀ k, o ≤ k → k < stop → ¬Padding memory os k → memory.getD k 0 = memory'.getD k 0)
    (hm : stop ≤ memory.length) (hm' : stop ≤ memory'.length) :
    Places memory' stop o os ∧ os.map (readAt memory') = os.map (readAt memory) := by
  induction h with
  | @done o hn =>
    refine ⟨.done fun hf => hn ?_, rfl⟩
    obtain ⟨hh, hle⟩ := hf
    have hagree : Agree o 2 memory memory' := fun k ho hk => by
      unfold headerSize at hh
      exact hs k ho (by omega) (by simp [Padding])
    rw [FitsAt, lengthAt, hagree.le16 (Nat.le_refl 2)]
    exact ⟨hh, hle⟩
  | @step o os hf rest ih =>
    have hlater := rest.inside
    have hpad := le_roundUp (lengthAt memory o)
    have hagree : Agree o (lengthAt memory o) memory memory' := fun k ho hk => by
      refine hs k ho (by have := hf.2; omega) ?_
      rintro ⟨x, hx, hle, hlt⟩
      rcases List.mem_cons.mp hx with rfl | hx
      · omega
      · have := (hlater x hx).1
        omega
    have hh := hf.1
    unfold headerSize at hh
    have hlength : lengthAt memory' o = lengthAt memory o :=
      congrArg UInt16.toNat (hagree.le16 (by omega)).symm
    obtain ⟨hrest, hmap⟩ := ih fun k ho hk hp => by
      refine hs k (by omega) hk ?_
      rintro ⟨x, hx, hle, hlt⟩
      rcases List.mem_cons.mp hx with rfl | hx
      · omega
      · exact hp ⟨x, hx, hle, hlt⟩
    have htype : Bytes.le16 (memory'.drop (o + 2)) = Bytes.le16 (memory.drop (o + 2)) := by
      have hfront : Agree (o + 2) 2 memory memory' := fun k ho hk =>
        hagree k (by omega) (by omega)
      exact (hfront.le16 (Nat.le_refl 2)).symm
    have hread : readAt memory' o = readAt memory o := by
      have hle := hf.2
      rw [readAt, readAt, hlength, htype, hagree.take_drop (by omega) (by omega)]
    refine ⟨.step ?_ (hlength ▸ hrest), ?_⟩
    · rw [FitsAt, hlength]
      exact hf
    · rw [List.map_cons, List.map_cons, hread, hmap]

section Said

variable {α β : Type} {f : α → Option β}

theorem getLast?_filterMap_cons (f : α → Option β) (a : α) (as : List α) :
    ((a :: as).filterMap f).getLast? = (as.filterMap f).getLast?.or (f a) := by
  cases h : f a with
  | none => rw [List.filterMap_cons_none h, Option.or_none]
  | some b => rw [List.filterMap_cons_some h, List.getLast?_cons, ← Option.or_some]

/-- What is said once is the last that is said, in any order and with others between. -/
theorem getLast?_filterMap_of_perm {p : α → Bool} {x : Option β} {as bs : List α}
    (h : (as.filter p).Perm bs) (hf : ∀ a, (f a).isSome → p a = true)
    (hx : bs.filterMap f = x.toList) : (as.filterMap f).getLast? = x := by
  have hp : (as.filter p).filterMap f = as.filterMap f := by
    rw [List.filterMap_filter]
    congr 1
    funext a
    cases ha : f a with
    | none => simp
    | some b => simp [hf a (by rw [ha]; rfl)]
  have hperm := h.filterMap f
  rw [hp, hx] at hperm
  cases x with
  | none => rw [List.perm_nil.mp hperm, List.getLast?_nil]
  | some x => rw [List.perm_singleton.mp hperm, List.getLast?_singleton]

end Said

/-- The attribute with anything between it and the next start. -/
def encodeWith (padding : Bytes) (a : Attribute) : Bytes :=
  Bytes.text [Bytes.ofLe16 (headerSize + a.payload.length).toUInt16, Bytes.ofLe16 a.type, a.payload,
    padding]

/-- Whether an attribute can give its own length, and this padding brings it to the next start. -/
structure Encodable (padding : Bytes) (a : Attribute) : Prop where
  size : headerSize + a.payload.length < 65536
  padding : headerSize + a.payload.length + padding.length =
    roundUp (headerSize + a.payload.length)

instance (padding : Bytes) (a : Attribute) : Decidable (Encodable padding a) :=
  decidable_of_iff (_ ∧ _) ⟨fun h => ⟨h.1, h.2⟩, fun h => ⟨h.size, h.padding⟩⟩

theorem all_encodeWith {a : Attribute} {padding : Bytes} (h : Encodable padding a) (rest : Bytes) :
    all (encodeWith padding a ++ rest) = a :: all rest := by
  have hsize := h.size
  have hpadding := h.padding
  unfold headerSize at hsize hpadding
  let front := Bytes.ofLe16 (4 + a.payload.length).toUInt16
  have hbytes : encodeWith padding a ++ rest =
      front ++ (Bytes.ofLe16 a.type ++ (a.payload ++ (padding ++ rest))) := by
    simp [encodeWith, Bytes.text, headerSize, front]
  have hlength : (Bytes.le16 (encodeWith padding a ++ rest)).toNat = 4 + a.payload.length := by
    rw [hbytes, Bytes.le16_ofLe16]
    exact Nat.mod_eq_of_lt hsize
  have htype : Bytes.le16 ((encodeWith padding a ++ rest).drop 2) = a.type := by
    rw [hbytes, List.drop_left' (i := 2) rfl, Bytes.le16_ofLe16]
  have hpayload : ((encodeWith padding a ++ rest).take (4 + a.payload.length)).drop 4 =
      a.payload := by
    have hsplit : encodeWith padding a ++ rest =
        (front ++ Bytes.ofLe16 a.type ++ a.payload) ++ (padding ++ rest) := by
      rw [hbytes]
      simp only [List.append_assoc]
    have hfront : (front ++ Bytes.ofLe16 a.type).length = 4 := rfl
    rw [hsplit, List.take_left' (by rw [List.length_append, hfront]), List.drop_left' hfront]
  have hwhole : (encodeWith padding a).length = roundUp (4 + a.payload.length) := by
    rw [← hpadding]
    simp [encodeWith, Bytes.text, Bytes.ofLe16]
    omega
  rw [all]
  simp only [align_toUInt32, hlength, htype, headerSize, hpayload]
  rw [List.drop_left' hwhole, if_pos]
  rw [List.length_append, hwhole]
  have := le_roundUp (4 + a.payload.length)
  omega

/-- Zeros up to the next start. -/
def zeros (a : Attribute) : Bytes :=
  List.replicate
    (roundUp (headerSize + a.payload.length) - (headerSize + a.payload.length)) 0

theorem encodable_zeros {a : Attribute} (h : headerSize + a.payload.length < 65536) :
    Encodable a.zeros a where
  size := h
  padding := by
    rw [zeros, List.length_replicate]
    exact Nat.add_sub_cancel' (le_roundUp _)

end Netlink.Attribute

end RouterAdvert
