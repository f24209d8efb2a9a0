import Mathlib.Data.Nat.Bitwise
import RouterAdvert.Proofs.Address
import RouterAdvert.Proofs.Ndp.Field

/-! The bits of wire objects, counted from the most significant one of the first octet. Each way of
setting a field decides the bits of a range and keeps the others; each way of getting one reads the
number that the bits of its range make up. -/
namespace RouterAdvert.Ndp

/-- Bit `i` of some octets. There are only zeros behind the last one. -/
def bit (b : Bytes) (i : Nat) : Bool := (b.getD (i / 8) 0).toNat.testBit (7 - i % 8)

/-- The number that some bits make up, the most significant one first. -/
def number (bits : Nat → Bool) (start : Nat) : Nat → Nat
  | 0 => 0
  | count + 1 => 2 * number bits start count + (bits (start + count)).toNat

section Number

variable {f g : Nat → Bool}

theorem number_congr {start count : Nat} (h : ∀ i, start ≤ i → i < start + count → f i = g i) :
    number f start count = number g start count := by
  induction count with
  | zero => rfl
  | succ count ih =>
    rw [number, number, h (start + count) (by omega) (by omega),
      ih fun i h₁ h₂ => h i h₁ (by omega)]

/-- Bits count for more by as many places as there are bits behind them. -/
theorem number_add (f : Nat → Bool) (start m n : Nat) :
    number f start (m + n) = number f start m * 2 ^ n + number f (start + m) n := by
  induction n with
  | zero => simp [number]
  | succ n ih =>
    rw [← Nat.add_assoc, number, ih, number, Nat.pow_succ, Nat.add_assoc start m n]
    rw [Nat.mul_add, Nat.mul_comm _ 2, Nat.mul_left_comm, Nat.add_assoc]

theorem number_two (f : Nat → Bool) (start : Nat) :
    number f start 2 = 2 * (f start).toNat + (f (start + 1)).toNat := by
  simp [number]

theorem testBit_number (f : Nat → Bool) (start count j : Nat) :
    (number f start count).testBit j = (decide (j < count) && f (start + (count - 1 - j))) := by
  induction count generalizing j with
  | zero => simp [number]
  | succ count ih =>
    have hlow : (f (start + count)).toNat < 2 := Bool.toNat_lt _
    cases j with
    | zero => cases h : f (start + count) <;> simp [number, h, Nat.testBit_zero, Nat.add_mod]
    | succ j =>
      have hhalf : number f start (count + 1) / 2 = number f start count := by
        rw [number]
        omega
      rw [Nat.testBit_succ, hhalf, ih]
      simp only [Nat.add_lt_add_iff_right, show count + 1 - 1 - (j + 1) = count - 1 - j by omega]

theorem number_octet (b : Bytes) (k : Nat) :
    number (bit b) (8 * k) 8 = (b.getD k 0).toNat := by
  have hlt := (b.getD k 0).toNat_lt
  apply Nat.eq_of_testBit_eq
  intro j
  rw [testBit_number]
  by_cases hj : j < 8
  · rw [decide_eq_true hj, Bool.true_and, bit, show (8 * k + (8 - 1 - j)) / 8 = k by omega,
      show 7 - (8 * k + (8 - 1 - j)) % 8 = j by omega]
  · have hpow : 2 ^ 8 ≤ 2 ^ j := Nat.pow_le_pow_right (by decide) (by omega)
    rw [decide_eq_false hj, Bool.false_and, Nat.testBit_lt_two_pow (by omega)]

theorem number_pair (b : Bytes) (k : Nat) :
    number (bit b) (8 * k) 16 = (Bytes.be16 (b.getD k 0) (b.getD (k + 1) 0)).toNat := by
  rw [number_add _ _ 8 8, show 8 * k + 8 = 8 * (k + 1) by omega, number_octet, number_octet,
    Bytes.toNat_be16]
  rfl

theorem number_quad (b : Bytes) (k : Nat) :
    number (bit b) (8 * k) 32 =
      (Bytes.be32 (b.getD k 0) (b.getD (k + 1) 0) (b.getD (k + 2) 0) (b.getD (k + 3) 0)).toNat := by
  rw [number_add _ _ 16 16, number_add _ _ 8 8, number_add _ (8 * k + 16) 8 8,
    show 8 * k + 8 = 8 * (k + 1) by omega, show 8 * k + 16 = 8 * (k + 2) by omega,
    show 8 * (k + 2) + 8 = 8 * (k + 3) by omega, number_octet, number_octet, number_octet,
    number_octet, Bytes.toNat_be32]
  omega

end Number

section Raw

variable {n : Nat} {raw : Vector UInt8 n}

/-- Octets of one length that agree in their bits are the same. -/
theorem eq_of_bit_eq {a b : Bytes} (hl : a.length = b.length) (h : ∀ i, bit a i = bit b i) :
    a = b := by
  apply List.ext_getElem hl
  intro k h₁ h₂
  apply Address.octet_eq_of_testBit
  intro j hj
  have hbit := h (8 * k + (7 - j))
  rw [bit, bit, show (8 * k + (7 - j)) / 8 = k by omega,
    show 7 - (8 * k + (7 - j)) % 8 = j by omega] at hbit
  simpa only [List.getD_eq_getElem?_getD, List.getElem?_eq_getElem, h₁, h₂, Option.getD_some]
    using hbit

theorem getD_toList {k : Nat} (hk : k < n) : raw.toList.getD k 0 = raw[k] := by
  simp [List.getD_eq_getElem?_getD, hk]

theorem toUInt8_number {k : Nat} (hk : k < n) :
    (number (bit raw.toList) (8 * k) 8).toUInt8 = raw[k] := by
  rw [number_octet, getD_toList hk]
  exact UInt8.ofNat_toNat

theorem toUInt16_number {k : Nat} (hk : k + 1 < n) :
    (number (bit raw.toList) (8 * k) 16).toUInt16 = getBe16 raw k hk := by
  rw [number_pair, getD_toList (by omega), getD_toList (by omega)]
  exact UInt16.ofNat_toNat

theorem toUInt32_number {k : Nat} (hk : k + 3 < n) :
    (number (bit raw.toList) (8 * k) 32).toUInt32 = getBe32 raw k hk := by
  rw [number_quad, getD_toList (by omega), getD_toList (by omega), getD_toList (by omega),
    getD_toList (by omega)]
  exact UInt32.ofNat_toNat

/-- Two bits of an octet as a number. -/
theorem toNat_shiftRight_and (o : UInt8) :
    ((o >>> 3) &&& 3).toNat = 2 * (o.toNat.testBit 4).toNat + (o.toNat.testBit 3).toNat := by
  have hthree : (3 : UInt8).toNat = 2 ^ 2 - 1 := rfl
  have hshift : (2 ^ 2 - 1) % 8 = 3 := rfl
  rw [UInt8.toNat_and, UInt8.toNat_shiftRight, hthree, hshift, Nat.and_two_pow_sub_one_eq_mod,
    Nat.shiftRight_eq_div_pow, Nat.toNat_testBit, Nat.toNat_testBit]
  omega

theorem hasFlag_eq_testBit {mask : UInt8} {m : Nat} (hmask : mask.toNat = 2 ^ m) (o : UInt8) :
    hasFlag mask o = o.toNat.testBit m := by
  have hpos : 0 < 2 ^ m := Nat.two_pow_pos m
  rw [hasFlag, Bool.eq_iff_iff, decide_eq_true_iff, Ne, ← UInt8.toNat_inj, UInt8.toNat_and, hmask,
    Nat.and_two_pow]
  cases o.toNat.testBit m <;> simp

theorem testBit_withFlag {mask : UInt8} {m : Nat} (hmask : mask.toNat = 2 ^ m) (on : Bool)
    (o : UInt8) {j : Nat} (hj : j < 8) :
    (withFlag on mask o).toNat.testBit j = if j = m then on else o.toNat.testBit j := by
  have hm : 2 ^ m < 2 ^ 8 := hmask ▸ mask.toNat_lt
  have hnot : (~~~mask).toNat = 2 ^ 8 - (2 ^ m + 1) := by
    rw [UInt8.toNat_not, hmask, Nat.sub_sub, Nat.add_comm]
    rfl
  unfold withFlag
  cases on
  · rw [if_neg Bool.false_ne_true, UInt8.toNat_and, Nat.testBit_and, hnot,
      Nat.testBit_two_pow_sub_succ hm, Nat.testBit_two_pow, decide_eq_true hj]
    by_cases h : j = m
    · simp [h]
    · simp [h, Ne.symm h]
  · rw [if_pos rfl, UInt8.toNat_or, Nat.testBit_or, hmask, Nat.testBit_two_pow]
    by_cases h : j = m
    · simp [h]
    · simp [h, Ne.symm h]

theorem hasFlag_withFlag {mask : UInt8} {m : Nat} (hmask : mask.toNat = 2 ^ m) (on : Bool)
    (o : UInt8) : hasFlag mask (withFlag on mask o) = on := by
  have hm : m < 8 := (Nat.pow_lt_pow_iff_right (by decide)).mp (hmask ▸ mask.toNat_lt)
  rw [hasFlag_eq_testBit hmask, testBit_withFlag hmask on o hm, if_pos rfl]

theorem hasFlag_set_withFlag {k : Nat} (hk : k < n) {mask : UInt8} {m : Nat}
    (hmask : mask.toNat = 2 ^ m) (on : Bool) :
    hasFlag mask (raw.set k (withFlag on mask raw[k]))[k] = on := by
  rw [Vector.getElem_set_self, hasFlag_withFlag hmask]

theorem bit_toList {k j : Nat} (hk : k < n) (hj : j < 8) :
    bit raw.toList (8 * k + j) = raw[k].toNat.testBit (7 - j) := by
  rw [bit, show (8 * k + j) / 8 = k by omega, show (8 * k + j) % 8 = j by omega, getD_toList hk]

/-- A flag is the one bit of its mask. -/
theorem hasFlag_eq_bit {k j : Nat} {mask : UInt8} (hk : k < n) (hj : j < 8)
    (hmask : mask.toNat = 2 ^ (7 - j)) : hasFlag mask raw[k] = bit raw.toList (8 * k + j) := by
  rw [bit_toList hk hj, hasFlag_eq_testBit hmask]

end Raw

/-- A change that decides the bits of a part, whatever they were, and keeps all others. -/
structure Decides {n : Nat} (part : Nat → Prop) (change : Vector UInt8 n → Vector UInt8 n) :
    Prop where
  fixed : ∀ raw raw' i, part i → bit (change raw).toList i = bit (change raw').toList i
  frame : ∀ raw i, ¬part i → bit (change raw).toList i = bit raw.toList i

namespace Decides

variable {n : Nat} {part part' : Nat → Prop} {f g : Vector UInt8 n → Vector UInt8 n}

theorem comp (hg : Decides part' g) (hf : Decides part f) :
    Decides (fun i => part i ∨ part' i) (fun raw => g (f raw)) where
  -- A bit of both parts is decided by the later change.
  fixed raw raw' i hi := by
    by_cases h : part' i
    · exact hg.fixed _ _ i h
    · rw [hg.frame _ i h, hg.frame _ i h]
      exact hf.fixed raw raw' i (hi.resolve_right h)
  frame raw i hi := by
    obtain ⟨hf', hg'⟩ := not_or.mp hi
    rw [hg.frame _ i hg', hf.frame raw i hf']

theorem congr (h : Decides part f) (hp : ∀ i, part i ↔ part' i) : Decides part' f where
  fixed raw raw' i hi := h.fixed raw raw' i ((hp i).mpr hi)
  frame raw i hi := h.frame raw i fun h => hi ((hp i).mp h)

/-- Changes of whole octets. -/
theorem octets {p : Nat → Prop}
    (hp : ∀ raw raw' k (h : k < n), p k → (f raw)[k] = (f raw')[k])
    (hf : ∀ raw k (h : k < n), ¬p k → (f raw)[k] = raw[k]) : Decides (fun i => p (i / 8)) f where
  fixed raw raw' i hi := by
    rw [bit, bit]
    by_cases h : i / 8 < n
    · rw [getD_toList h, getD_toList h, hp raw raw' _ h hi]
    · simp [List.getD_eq_getElem?_getD, h]
  frame raw i hi := by
    rw [bit, bit]
    by_cases h : i / 8 < n
    · rw [getD_toList h, getD_toList h, hf raw _ h hi]
    · simp [List.getD_eq_getElem?_getD, h]

theorem set (k : Nat) (hk : k < n) (v : UInt8) :
    Decides (fun i => i / 8 = k) fun raw : Vector UInt8 n => raw.set k v := by
  refine octets (p := fun j => j = k) (fun raw raw' j hj h => ?_) fun raw j hj h => ?_
  · subst h
    rw [Vector.getElem_set_self, Vector.getElem_set_self]
  · exact Vector.getElem_set_ne _ _ (Ne.symm h)

theorem setBe16 (k : Nat) (h : k + 1 < n) (v : UInt16) :
    Decides (fun i => i / 8 = k ∨ i / 8 = k + 1)
      fun raw : Vector UInt8 n => Ndp.setBe16 raw k v h :=
  (set (k + 1) h _).comp (set k (by omega) _)

theorem setBe32 (k : Nat) (h : k + 3 < n) (v : UInt32) :
    Decides (fun i => ((i / 8 = k ∨ i / 8 = k + 1) ∨ i / 8 = k + 2) ∨ i / 8 = k + 3)
      fun raw : Vector UInt8 n => Ndp.setBe32 raw k v h :=
  (set (k + 3) h _).comp ((set (k + 2) (by omega) _).comp
    ((set (k + 1) (by omega) _).comp (set k (by omega) _)))

theorem flag {k j : Nat} {mask : UInt8} (hk : k < n) (hj : j < 8) (hmask : mask.toNat = 2 ^ (7 - j))
    (on : Bool) : Decides (fun i => i = 8 * k + j)
      fun raw : Vector UInt8 n => raw.set k (withFlag on mask raw[k]) where
  fixed raw raw' i hi := by
    subst hi
    rw [bit_toList hk hj, bit_toList hk hj, Vector.getElem_set_self, Vector.getElem_set_self,
      testBit_withFlag hmask on _ (by omega), testBit_withFlag hmask on _ (by omega), if_pos rfl,
      if_pos rfl]
  frame raw i hi := by
    by_cases h : i / 8 = k
    · rw [bit, bit, h, getD_toList hk, getD_toList hk, Vector.getElem_set_self,
        testBit_withFlag hmask on _ (by omega), if_neg (by omega)]
    · exact (set k hk _).frame raw i h

/-- Two flags of one octet. -/
theorem flags {k j m : Nat} {mask mask' : UInt8} (hk : k < n) (hj : j < 8) (hm : m < 8)
    (hmask : mask.toNat = 2 ^ (7 - j)) (hmask' : mask'.toNat = 2 ^ (7 - m)) (on on' : Bool) :
    Decides (fun i => i = 8 * k + j ∨ i = 8 * k + m)
      fun raw : Vector UInt8 n => raw.set k (withFlag on' mask' (withFlag on mask raw[k])) := by
  simpa using (flag hk hm hmask' on').comp (flag hk hj hmask on)

end Decides

end RouterAdvert.Ndp
