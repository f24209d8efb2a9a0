import RouterAdvert.Proofs.Ndp.Field
import RouterAdvert.Proofs.Netlink.Datagram

/-! The walk over the messages in a buffer, with the place of each one and the count of what remains
there. As long as that count does not wrap, the walk is inside the datagram and goes forward; it
wraps exactly at a message without its padding. Of a message, all that is read lies inside it, but
for the error number of one that is too short for any. -/
namespace RouterAdvert.Netlink.Message

/-- A message as the walk comes to it: where it starts in the buffer, and how many octets are taken
to remain there. -/
structure Visit where
  start : Nat
  remaining : UInt64
  message : Message

namespace Visit

/-- How many octets are taken to remain behind the message. -/
def next (v : Visit) : UInt64 := v.remaining - v.message.stride.toUInt64

/-- The visit without what is behind the message. -/
def alone (v : Visit) : Visit := { v with message := v.message.alone }

/-- One message ends before another starts, and less remains there. -/
def Precedes (v w : Visit) : Prop :=
  v.start + v.message.length ≤ w.start ∧ w.remaining ≤ v.remaining

end Visit

/-- The visits of a walk from `start` on. -/
def visits (start : Nat) (buffer : Bytes) (remaining : UInt64) : List Visit :=
  match _h : ending? buffer remaining with
  | some .standing => [⟨start, remaining, mk buffer⟩]
  | some _ => []
  | none =>
    ⟨start, remaining, mk buffer⟩ ::
      visits (start + (mk buffer).stride.toNat) (buffer.drop (mk buffer).stride.toNat)
        (Visit.next ⟨start, remaining, mk buffer⟩)
termination_by buffer.length
decreasing_by
  obtain ⟨hh, -, -, -, hz⟩ := goes_on _h
  have hpos : (mk buffer).stride.toNat ≠ 0 := fun h0 => hz (UInt32.toNat_inj.mp h0)
  unfold headerSize at hh
  rw [List.length_drop]
  omega

theorem map_message_visits (start : Nat) (buffer : Bytes) (remaining : UInt64) :
    (visits start buffer remaining).map (·.message) = (walk buffer remaining).visited := by
  fun_induction visits start buffer remaining with
  | case1 start buffer remaining he => rw [walk_of_standing he, List.map_singleton]
  | case2 start buffer remaining e hne he => rw [walk_of_ends hne he, List.map_nil]
  | case3 start buffer remaining he ih =>
    rw [walk_of_goes_on he, List.map_cons, ih]
    rfl

/-- Every visit is of the message at its place. -/
theorem tail_of_mem_visits {start : Nat} {buffer : Bytes} {remaining : UInt64} {v : Visit}
    (h : v ∈ visits start buffer remaining) :
    start ≤ v.start ∧ v.message.tail = buffer.drop (v.start - start) ∧
      headerSize ≤ v.message.length ∧ v.message.length ≤ v.remaining.toNat := by
  fun_induction visits start buffer remaining with
  | case1 start buffer remaining he =>
    obtain rfl := List.mem_singleton.mp h
    obtain ⟨-, hsize, hle, -⟩ := stands he
    exact ⟨Nat.le_refl _, by rw [Nat.sub_self]; rfl, UInt32.le_iff_toNat_le.mp hsize,
      UInt64.le_iff_toNat_le.mp hle⟩
  | case2 => cases h
  | case3 start buffer remaining he ih =>
    rcases List.mem_cons.mp h with rfl | h
    · obtain ⟨-, -, hsize, hle, -⟩ := goes_on he
      exact ⟨Nat.le_refl _, by rw [Nat.sub_self]; rfl, UInt32.le_iff_toNat_le.mp hsize,
        UInt64.le_iff_toNat_le.mp hle⟩
    · obtain ⟨hs, ht, hv⟩ := ih h
      refine ⟨by omega, ?_, hv⟩
      rw [ht, List.drop_drop]
      congr 1
      omega

/-- The count goes down exactly if that much remains. -/
theorem Visit.next_le_iff (v : Visit) :
    v.next ≤ v.remaining ↔ v.message.stride.toNat ≤ v.remaining.toNat := by
  have hr := v.remaining.toNat_lt
  have hs := v.message.stride.toNat_lt
  rw [UInt64.le_iff_toNat_le, next, UInt64.toNat_sub, UInt32.toNat_toUInt64]
  omega

variable {start : Nat} {d : Bytes}

theorem visits_of_goes_on {buffer : Bytes} {remaining : UInt64}
    (h : ending? buffer remaining = none) :
    visits start buffer remaining =
      ⟨start, remaining, mk buffer⟩ ::
        visits (start + (mk buffer).stride.toNat) (buffer.drop (mk buffer).stride.toNat)
          (Visit.next ⟨start, remaining, mk buffer⟩) := by
  rw [visits]
  split
  · rename_i he
    cases h.symm.trans he
  · rename_i he
    cases h.symm.trans he
  · rfl

theorem visits_of_not_begins (start : Nat) (h : ¬Begins d) (hd : d.length < UInt64.size)
    (stale : Bytes) : visits start (d ++ stale) d.length.toUInt64 = [] := by
  have hnone := map_message_visits start (d ++ stale) d.length.toUInt64
  rw [walk_of_not_begins h hd] at hnone
  exact List.map_eq_nil_iff.mp hnone

theorem visits_of_begins (start : Nat) (h : Begins d) (hs : (mk d).stride ≠ 0)
    (hd : d.length < UInt64.size) (stale : Bytes) :
    visits start (d ++ stale) d.length.toUInt64 =
      ⟨start, d.length.toUInt64, mk (d ++ stale)⟩ ::
        visits (start + (mk d).stride.toNat) ((d ++ stale).drop (mk d).stride.toNat)
          (Visit.next ⟨start, d.length.toUInt64, mk d⟩) := by
  have hnext : Visit.next ⟨start, d.length.toUInt64, mk (d ++ stale)⟩ =
      Visit.next ⟨start, d.length.toUInt64, mk d⟩ := by
    simp only [Visit.next, stride_append d stale h.1]
  rw [visits_of_goes_on (ending?_of_begins h hs hd stale), stride_append d stale h.1, hnext]

theorem visits_of_padded (start : Nat) (h : Begins d) (hs : (mk d).stride ≠ 0)
    (hp : (mk d).stride.toNat ≤ d.length) (hd : d.length < UInt64.size)
    (stale : Bytes) :
    visits start (d ++ stale) d.length.toUInt64 =
      ⟨start, d.length.toUInt64, mk (d ++ stale)⟩ ::
        visits (start + (mk d).stride.toNat) (behindFirst d ++ stale)
          (behindFirst d).length.toUInt64 := by
  rw [visits_of_begins start h hs hd, List.drop_append_of_le_length hp,
    ← remaining_of_padded hp hd]
  rfl

theorem visits_nil (start : Nat) (remaining : UInt64) : visits start [] remaining = [] := by
  rw [visits]
  split
  · rename_i he
    cases (stands he).1
  · rfl
  · rename_i he
    cases (goes_on he).1

/-- The visits of the messages in a datagram that starts at some place: one behind the other, each
at the next multiple of four. -/
inductive Tiled : Nat → Bytes → List Visit → Prop
  | none {start : Nat} {d : Bytes} (h : ¬Begins d) : Tiled start d []
  | last {start : Nat} {d : Bytes} (h : Begins d) (hp : d.length < (mk d).stride.toNat) :
      Tiled start d [⟨start, d.length.toUInt64, mk d⟩]
  | next {start : Nat} {d : Bytes} {vs : List Visit} (h : Begins d)
      (hp : (mk d).stride.toNat ≤ d.length)
      (hvs : Tiled (start + (mk d).stride.toNat) (behindFirst d) vs) :
      Tiled start d (⟨start, d.length.toUInt64, mk d⟩ :: vs)

theorem tiled_visits (start : Nat) (d : Bytes) (hd : d.length < roundLimit) :
    Tiled start d (visits start d d.length.toUInt64) := by
  induction d, hd using datagram_induction generalizing start with
  | none d hd hb =>
    have hvs := visits_of_not_begins start hb (lt_count_of_lt_roundLimit hd) []
    rw [List.append_nil] at hvs
    rw [hvs]
    exact .none hb
  | last d hd hb hp =>
    have hvs := visits_of_begins start hb (hb.stride_ne_zero hd) (lt_count_of_lt_roundLimit hd) []
    rw [List.append_nil, List.drop_eq_nil_of_le (Nat.le_of_lt hp), visits_nil] at hvs
    rw [hvs]
    exact .last hb hp
  | next d hd hd' hb hp ih =>
    have hvs := visits_of_padded start hb (hb.stride_ne_zero hd) hp (lt_count_of_lt_roundLimit hd)
      []
    rw [List.append_nil, List.append_nil] at hvs
    rw [hvs]
    exact .next hb hp (ih _)

namespace Tiled

variable {vs : List Visit} {v : Visit}

/-- What remains is what is left of the datagram, and the message is inside. -/
theorem inside (h : Tiled start d vs) (hd : d.length < UInt64.size) (hv : v ∈ vs) :
    start ≤ v.start ∧ v.start + v.remaining.toNat = start + d.length ∧
      v.message.tail = d.drop (v.start - start) ∧ v.message.length ≤ v.remaining.toNat := by
  induction h with
  | none => cases hv
  | last hb hp =>
    rw [List.mem_singleton.mp hv, Nat.sub_self, toNat_count hd]
    exact ⟨Nat.le_refl _, rfl, rfl, hb.2.2⟩
  | next hb hp _ ih =>
    rcases List.mem_cons.mp hv with rfl | hv
    · rw [Nat.sub_self, toNat_count hd]
      exact ⟨Nat.le_refl _, rfl, rfl, hb.2.2⟩
    · rw [behindFirst, List.length_drop] at ih
      obtain ⟨hs, hr, ht, hl⟩ := ih (by omega) hv
      refine ⟨by omega, by omega, ?_, hl⟩
      rw [ht, List.drop_drop]
      congr 1
      omega

theorem pairwise (h : Tiled start d vs) (hd : d.length < roundLimit) :
    vs.Pairwise Visit.Precedes := by
  induction h with
  | none => exact .nil
  | last => exact List.pairwise_singleton _ _
  | @next start d _ hb hp hvs ih =>
    have hshort := hb.length_behindFirst hd
    have hle := hb.le_stride hd
    refine List.pairwise_cons.mpr ⟨fun w hw => ?_, ih (Nat.lt_trans hshort hd)⟩
    have hcount := lt_count_of_lt_roundLimit (Nat.lt_trans hshort hd)
    obtain ⟨hs, hr, -, -⟩ := hvs.inside hcount hw
    rw [behindFirst, List.length_drop] at hr
    refine ⟨Nat.le_trans (Nat.add_le_add_left hle start) hs, ?_⟩
    rw [UInt64.le_iff_toNat_le, toNat_count (lt_count_of_lt_roundLimit hd)]
    omega

theorem length_tail (h : Tiled start d vs) (hd : d.length < UInt64.size) (hv : v ∈ vs) :
    v.message.tail.length = v.remaining.toNat := by
  obtain ⟨hs, hr, ht, -⟩ := h.inside hd hv
  rw [ht, List.length_drop]
  omega

end Tiled

/-- A message inside a datagram goes forward by its padded length. -/
theorem toNat_stride_of_mem {v : Visit} (hd : d.length < roundLimit)
    (hv : v ∈ visits start d d.length.toUInt64) :
    v.message.stride.toNat = roundUp v.message.length := by
  obtain ⟨hs, hr, -, hl⟩ := (tiled_visits start d hd).inside (lt_count_of_lt_roundLimit hd) hv
  have hle : v.message.length ≤ d.length := by omega
  exact toNat_align (Nat.lt_of_le_of_lt hle hd)

theorem endsUnpadded_iff (start : Nat) (hd : d.length < roundLimit) :
    EndsUnpadded d ↔
      ∃ v ∈ visits start d d.length.toUInt64,
        v.remaining.toNat < v.message.stride.toNat := by
  have htiled := tiled_visits start d hd
  have hcount := lt_count_of_lt_roundLimit hd
  unfold EndsUnpadded
  rw [inDatagram, inBuffer, ← map_message_visits start]
  constructor
  · rintro ⟨m, hm, hlt⟩
    obtain ⟨v, hv, rfl⟩ := List.mem_map.mp hm
    refine ⟨v, hv, ?_⟩
    rwa [← htiled.length_tail hcount hv, toNat_stride_of_mem hd hv]
  · rintro ⟨v, hv, hlt⟩
    refine ⟨v.message, List.mem_map_of_mem hv, ?_⟩
    rwa [htiled.length_tail hcount hv, ← toNat_stride_of_mem hd hv]

theorem endsUnpadded_of_behindFirst (h : Begins d) (hp : (mk d).stride.toNat ≤ d.length)
    (hd : d.length < roundLimit) (hu : EndsUnpadded (behindFirst d)) : EndsUnpadded d := by
  obtain ⟨m, hm, hlt⟩ := hu
  refine ⟨m, ?_, hlt⟩
  rw [inDatagram_of_padded h (h.stride_ne_zero hd) hp (lt_count_of_lt_roundLimit hd)]
  exact List.mem_cons_of_mem _ hm

theorem endsUnpadded_of_last (h : Begins d) (hp : d.length < (mk d).stride.toNat)
    (hd : d.length < roundLimit) : EndsUnpadded d :=
  ⟨mk d, mem_inDatagram_of_begins h (h.stride_ne_zero hd) (lt_count_of_lt_roundLimit hd), by
    rwa [← h.toNat_stride hd]⟩

/-- The walk visits the messages of the datagram. It goes on behind them only if the last one lacks
its padding. -/
theorem Tiled.visits_append {vs : List Visit} (h : Tiled start d vs) (stale : Bytes)
    (hd : d.length < roundLimit) :
    ∃ first behind, visits start (d ++ stale) d.length.toUInt64 = first ++ behind ∧
      first.map Visit.alone = vs.map Visit.alone ∧ (behind ≠ [] → EndsUnpadded d) := by
  induction h with
  | none hb =>
    exact ⟨[], [], visits_of_not_begins _ hb (lt_count_of_lt_roundLimit hd) stale, rfl,
      fun h => absurd rfl h⟩
  | @last start d hb hp =>
    refine ⟨[_], _, visits_of_begins _ hb (hb.stride_ne_zero hd) (lt_count_of_lt_roundLimit hd)
      stale, ?_, fun _ => endsUnpadded_of_last hb hp hd⟩
    simp only [List.map_cons, List.map_nil, Visit.alone, alone_append hb]
  | @next start d vs hb hp _ ih =>
    obtain ⟨first, behind, hvs, halone, hu⟩ := ih (Nat.lt_trans (hb.length_behindFirst hd) hd)
    refine ⟨⟨start, d.length.toUInt64, mk (d ++ stale)⟩ :: first, behind, ?_, ?_, fun h =>
      endsUnpadded_of_behindFirst hb hp hd (hu h)⟩
    · rw [visits_of_padded _ hb (hb.stride_ne_zero hd) hp (lt_count_of_lt_roundLimit hd), hvs,
        List.cons_append]
    · simp only [List.map_cons, halone, Visit.alone, alone_append hb]

theorem Visit.precedes_alone {v w : Visit} (hv : headerSize ≤ v.message.length) :
    v.alone.Precedes w.alone ↔ v.Precedes w := by
  unfold Visit.Precedes Visit.alone
  rw [length_alone hv]

/-- Visits that differ at most in what is behind their messages agree in all that is counted. -/
theorem Visit.eq_of_alone {v w : Visit} (h : v.alone = w.alone)
    (hv : headerSize ≤ v.message.length) (hw : headerSize ≤ w.message.length) :
    v.start = w.start ∧ v.remaining = w.remaining ∧ v.message.length = w.message.length ∧
      v.message.stride = w.message.stride := by
  obtain ⟨hs, hr, hm⟩ := Visit.mk.inj h
  have hsize : v.message.size = w.message.size := by
    rw [← size_alone hv, hm, size_alone hw]
  exact ⟨hs, hr, congrArg UInt32.toNat hsize, congrArg align hsize⟩

/-- The visits of a walk over a datagram: first those of its messages, inside and forward, then
others only if the last message lacks its padding. -/
structure WalksFirst (d : Bytes) (walk first behind : List Visit) : Prop where
  split : walk = first ++ behind
  inside : ∀ v ∈ first, v.start + v.message.length ≤ d.length
  forward : first.Pairwise Visit.Precedes
  messages : first.map (·.message.alone) = ofDatagram d
  leaves : behind ≠ [] → EndsUnpadded d

theorem exists_walksFirst (d stale : Bytes) (hd : d.length < roundLimit) :
    ∃ first behind, WalksFirst d (visits 0 (d ++ stale) d.length.toUInt64) first behind ∧
      first.map Visit.alone = (visits 0 d d.length.toUInt64).map Visit.alone := by
  have htiled := tiled_visits 0 d hd
  have hcount := lt_count_of_lt_roundLimit hd
  obtain ⟨first, behind, hsplit, halone, hu⟩ := htiled.visits_append stale hd
  have hheader (v : Visit) (hv : v ∈ first) : headerSize ≤ v.message.length := by
    have hmem : v ∈ visits 0 (d ++ stale) d.length.toUInt64 :=
      hsplit ▸ List.mem_append_left behind hv
    exact (tail_of_mem_visits hmem).2.2.1
  refine ⟨first, behind, ⟨hsplit, fun v hv => ?_, ?_, ?_, hu⟩, halone⟩
  · obtain ⟨w, hw, hwv⟩ := List.mem_map.mp (halone ▸ List.mem_map_of_mem (f := Visit.alone) hv)
    obtain ⟨hs, -, hlength, -⟩ :=
      Visit.eq_of_alone hwv (tail_of_mem_visits hw).2.2.1 (hheader v hv)
    obtain ⟨-, hr, -, hl⟩ := htiled.inside hcount hw
    omega
  · have hpair : ((visits 0 d d.length.toUInt64).map Visit.alone).Pairwise Visit.Precedes :=
      List.pairwise_map.mpr ((htiled.pairwise hd).imp_of_mem fun ha _ h =>
        (Visit.precedes_alone (tail_of_mem_visits ha).2.2.1).mpr h)
    rw [← halone, List.pairwise_map] at hpair
    exact hpair.imp_of_mem fun ha _ h => (Visit.precedes_alone (hheader _ ha)).mp h
  · rw [ofDatagram, inDatagram, inBuffer, ← map_message_visits 0, List.map_map]
    have hmessages := congrArg (List.map (·.message)) halone
    rwa [List.map_map, List.map_map] at hmessages

/-- The count grows nowhere exactly if the datagram does not end in a message without its padding.
-/
theorem next_le_iff (d stale : Bytes) (hd : d.length < roundLimit) :
    (∀ v ∈ visits 0 (d ++ stale) d.length.toUInt64, v.next ≤ v.remaining) ↔ ¬EndsUnpadded d := by
  obtain ⟨first, behind, hwalk, halone⟩ := exists_walksFirst d stale hd
  have hheader (v : Visit) (hv : v ∈ first) : headerSize ≤ v.message.length := by
    have hmem : v ∈ visits 0 (d ++ stale) d.length.toUInt64 :=
      hwalk.split ▸ List.mem_append_left behind hv
    exact (tail_of_mem_visits hmem).2.2.1
  rw [endsUnpadded_iff 0 hd, hwalk.split]
  constructor
  · rintro h ⟨v, hv, hshort⟩
    obtain ⟨w, hw, hwv⟩ := List.mem_map.mp (halone.symm ▸ List.mem_map_of_mem (f := Visit.alone) hv)
    obtain ⟨-, hr, -, hstride⟩ :=
      Visit.eq_of_alone hwv (hheader w hw) (tail_of_mem_visits hv).2.2.1
    have hle := w.next_le_iff.mp (h w (List.mem_append_left behind hw))
    rw [hr, hstride] at hle
    omega
  · intro h v hv
    have hbehind : behind = [] := Classical.byContradiction fun hne =>
      h ((endsUnpadded_iff 0 hd).mp (hwalk.leaves hne))
    rw [hbehind, List.append_nil] at hv
    obtain ⟨w, hw, hwv⟩ := List.mem_map.mp (halone ▸ List.mem_map_of_mem (f := Visit.alone) hv)
    obtain ⟨-, hr, -, hstride⟩ :=
      Visit.eq_of_alone hwv (tail_of_mem_visits hw).2.2.1 (hheader v hv)
    rw [v.next_le_iff, ← hr, ← hstride]
    exact Nat.not_lt.mp fun hshort => h ⟨w, hw, hshort⟩

theorem length_eq_of_alone {m m' : Message} (h : m'.alone = m.alone) (hh : headerSize ≤ m.length)
    (hl : m.length ≤ m.tail.length) : m'.length = m.length := by
  have htake : (m'.tail.take m'.length).length = (m.tail.take m.length).length :=
    congrArg (·.tail.length) h
  rw [List.length_take, List.length_take, Nat.min_eq_left hl] at htake
  rw [← length_alone (by omega : headerSize ≤ m'.length), h, length_alone hh]

/-- A message whose octets are followed by others. -/
def followed (m : Message) (behind : Bytes) : Message := ⟨m.alone.tail ++ behind⟩

theorem alone_followed {m : Message} (hh : headerSize ≤ m.length) (hl : m.length ≤ m.tail.length)
    (behind : Bytes) : (m.followed behind).alone = m.alone := by
  have htail : m.alone.tail.length = m.length := by
    rw [alone, List.length_take, Nat.min_eq_left hl]
  have hlength : (m.followed behind).length = m.length := by
    rw [← length_alone hh]
    exact length_append m.alone.tail behind (by omega)
  rw [alone, hlength, followed, List.take_left' htail]

/-- Octets of a word that differ in their last one give different words. -/
theorem le32_ne_of_last {a b : Bytes} (h : a.getD 3 0 ≠ b.getD 3 0) :
    Bytes.le32 a ≠ Bytes.le32 b := by
  intro heq
  have hsum := congrArg UInt32.toNat heq
  unfold Bytes.le32 at hsum
  rw [Bytes.toNat_be32, Bytes.toNat_be32] at hsum
  have hbound (x : UInt8) : x.toNat < 256 := x.toNat_lt
  have ha := hbound (a.getD 2 0)
  have ha' := hbound (a.getD 1 0)
  have ha'' := hbound (a.getD 0 0)
  have hb := hbound (b.getD 2 0)
  have hb' := hbound (b.getD 1 0)
  have hb'' := hbound (b.getD 0 0)
  exact h (UInt8.toNat_inj.mp (by omega))

/-- The error number lies inside the message exactly if it has room for one. -/
theorem errno_inside_iff {m : Message} (hh : headerSize ≤ m.length)
    (hl : m.length ≤ m.tail.length) :
    (∀ m' : Message, m'.alone = m.alone → m'.errno = m.errno) ↔ headerSize + 4 ≤ m.length := by
  have htail : m.alone.tail.length = m.length := by
    rw [alone, List.length_take, Nat.min_eq_left hl]
  constructor
  · intro h
    refine Nat.not_lt.mp fun hshort => ?_
    -- What follows a message without room shows up in the last octet of the error number.
    have hlast (x : UInt8) :
        ((m.followed (List.replicate 4 x)).tail.drop headerSize).getD 3 0 = x := by
      have hi : m.alone.tail.length ≤ headerSize + 3 := by omega
      have hlt : headerSize + 3 - m.alone.tail.length < 4 := by omega
      rw [followed, List.getD_eq_getElem?_getD, List.getElem?_drop, List.getElem?_append_right hi,
        List.getElem?_replicate, if_pos hlt, Option.getD_some]
    have hsame (x : UInt8) : (m.followed (List.replicate 4 x)).errno = m.errno :=
      h _ (alone_followed hh hl _)
    have hwords := congrArg Int32.toUInt32 ((hsame 0).trans (hsame 255).symm)
    exact le32_ne_of_last (by rw [hlast, hlast]; decide) hwords
  · intro hroom m' h
    have hlength := length_eq_of_alone h hh hl
    rw [← errno_alone hroom, ← h, errno_alone (by omega)]

end RouterAdvert.Netlink.Message
