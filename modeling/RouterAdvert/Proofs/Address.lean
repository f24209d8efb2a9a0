import RouterAdvert.Ndp.PrefixInfo

/-! The bits of addresses, and networks. An option keeps just the first bits of its address. Routes
and options truncate in two different ways, which agree. Networks of whole octets keep these octets,
and the others become zero. -/
namespace RouterAdvert

namespace Address

variable {a b : Address}

/-- Bits are counted from the most significant one of an octet. -/
theorem bit_eq_testBit {i : Nat} (h : i < 128) :
    a.bit i = a.octets[i / 8].toNat.testBit (7 - i % 8) := by
  have hi : i / 8 < 16 := by omega
  have hget : a.octets.toList.getD (i / 8) 0 = a.octets[i / 8] := by
    simp [List.getD_eq_getElem?_getD, hi]
  have hshift : (7 - i % 8).toUInt8.toNat % 8 = 7 - i % 8 := by
    rw [UInt8.toNat_ofNat']
    omega
  have hone : (1 : UInt8).toNat = 1 := rfl
  unfold bit
  rw [hget, Nat.testBit_eq_decide_div_mod_eq, decide_eq_decide, ← UInt8.toNat_inj,
    UInt8.toNat_and, UInt8.toNat_shiftRight, hshift, Nat.shiftRight_eq_div_pow, hone,
    Nat.and_one_is_mod]

theorem octet_eq_of_testBit {x y : UInt8} (h : ∀ j < 8, x.toNat.testBit j = y.toNat.testBit j) :
    x = y := by
  have hx := x.toNat_lt
  have hy := y.toNat_lt
  apply UInt8.toNat_inj.mp
  apply Nat.eq_of_testBit_eq
  intro j
  by_cases hj : j < 8
  · exact h j hj
  · have hpow : 2 ^ 8 ≤ 2 ^ j := Nat.pow_le_pow_right (by decide) (by omega)
    rw [Nat.testBit_lt_two_pow (by omega), Nat.testBit_lt_two_pow (by omega)]

/-- Addresses agree in their first octets exactly if they do in the bits of these. -/
theorem take_eq_iff {k : Nat} (h : 8 * k ≤ 128) :
    a.toBytes.take k = b.toBytes.take k ↔ ∀ i < 8 * k, a.bit i = b.bit i := by
  constructor
  · intro heq i hi
    have hoctet : a.octets[i / 8] = b.octets[i / 8] := by
      have hget := congrArg (·[i / 8]?) heq
      simpa [toBytes, show i / 8 < k by omega, show i / 8 < 16 by omega] using hget
    rw [bit_eq_testBit (by omega), bit_eq_testBit (by omega), hoctet]
  · intro hbit
    apply List.ext_getElem
    · simp [toBytes]
    · intro n h₁ h₂
      have hn : n < k := by
        simp only [List.length_take] at h₁
        omega
      simp only [toBytes, List.getElem_take, Vector.getElem_toList]
      apply octet_eq_of_testBit
      intro j hj
      have hb := hbit (8 * n + (7 - j)) (by omega)
      have hq : (8 * n + (7 - j)) / 8 = n := by omega
      have hr : 7 - (8 * n + (7 - j)) % 8 = j := by omega
      rw [bit_eq_testBit (by omega), bit_eq_testBit (by omega)] at hb
      simpa only [hq, hr] using hb

theorem eq_iff : a = b ↔ ∀ i < 128, a.bit i = b.bit i := by
  rw [← take_eq_iff (k := 16) (by decide)]
  obtain ⟨x⟩ := a
  obtain ⟨y⟩ := b
  have hx : x.toList.take 16 = x.toList := List.take_of_length_le (by simp)
  have hy : y.toList.take 16 = y.toList := List.take_of_length_le (by simp)
  rw [Address.mk.injEq, toBytes, toBytes, hx, hy, Vector.toList_inj]

/-- An address whose octets are cut one by one is cut as a whole. -/
theorem bit_mapFinIdx {l : Nat} {cut : Nat → UInt8 → UInt8}
    (h : ∀ i o, ∀ j < 8, (cut i o).toNat.testBit (7 - j) =
      (decide (8 * i + j < l) && o.toNat.testBit (7 - j)))
    (a : Address) {i : Nat} (hi : i < 128) :
    (Address.mk (a.octets.mapFinIdx fun i o _ => cut i o)).bit i = (decide (i < l) && a.bit i) := by
  have hdiv : 8 * (i / 8) + i % 8 = i := by omega
  rw [bit_eq_testBit hi, bit_eq_testBit hi, Vector.getElem_mapFinIdx, h _ _ _ (by omega), hdiv]

end Address

namespace Ndp.PrefixInfo

/-- Octet `i` of an address cut to `length` bits: whole octets of the network part stay, the one
that the border divides keeps its upper bits, and the others become zero. -/
def networkOctet (length i : Nat) (o : UInt8) : UInt8 :=
  if i < length / 8 then o
  else if i = length / 8 ∧ length % 8 ≠ 0 then o &&& ~~~((0xff : UInt8) >>> (length % 8).toUInt8)
  else 0

/-- The address with only its first `length` bits left. -/
def networkPart (length : Nat) (a : Address) : Address :=
  ⟨a.octets.mapFinIdx fun i o _ => networkOctet length i o⟩

/-- Of the octet that the border divides, the upper bits stay. -/
theorem testBit_networkOctet {l i j : Nat} (o : UInt8) (hj : j < 8) :
    (networkOctet l i o).toNat.testBit (7 - j) =
      (decide (8 * i + j < l) && o.toNat.testBit (7 - j)) := by
  have hmask : ∀ k < 8, ∀ j < 8,
      (~~~((0xff : UInt8) >>> k.toUInt8)).toNat.testBit (7 - j) = decide (j < k) := by
    decide
  unfold networkOctet
  split
  · rw [decide_eq_true (by omega), Bool.true_and]
  · split
    · have hborder : j < l % 8 ↔ 8 * i + j < l := by omega
      rw [UInt8.toNat_and, Nat.testBit_and, hmask _ (by omega) j hj, Bool.and_comm,
        decide_eq_decide.mpr hborder]
    · rw [decide_eq_false (by omega), Bool.false_and]
      exact Nat.zero_testBit _

/-- Just the first bits are left. -/
theorem bit_networkPart (l : Nat) (a : Address) {i : Nat} (h : i < 128) :
    (networkPart l a).bit i = (decide (i < l) && a.bit i) :=
  Address.bit_mapFinIdx (fun _ o _ => testBit_networkOctet o) a h

/-- Of two cuts the shorter one counts. -/
theorem networkPart_networkPart (k l : Nat) (a : Address) :
    networkPart k (networkPart l a) = networkPart (min k l) a := by
  refine Address.eq_iff.mpr fun i hi => ?_
  rw [bit_networkPart k _ hi, bit_networkPart l a hi, bit_networkPart _ a hi, ← Bool.and_assoc,
    ← Bool.decide_and, decide_eq_decide.mpr (Nat.lt_min (a := i) (b := k) (c := l)).symm]

theorem networkPart_eq_iff {l : Nat} {a b : Address} (h : l ≤ 128) :
    networkPart l a = networkPart l b ↔ ∀ i < l, a.bit i = b.bit i := by
  rw [Address.eq_iff]
  constructor
  · intro heq i hi
    have hbit := heq i (by omega)
    rw [bit_networkPart l a (by omega), bit_networkPart l b (by omega)] at hbit
    simpa only [decide_eq_true hi, Bool.true_and] using hbit
  · intro hbit i hi
    rw [bit_networkPart l a hi, bit_networkPart l b hi]
    by_cases hl : i < l
    · rw [hbit i hl]
    · rw [decide_eq_false hl, Bool.false_and, Bool.false_and]

end Ndp.PrefixInfo

namespace Network

/-- The mask of a divided octet lets its upper bits through. -/
theorem testBit_baseOctet {l i j : Nat} (o : UInt8) (hj : j < 8) :
    (baseOctet l i o).toNat.testBit (7 - j) =
      (decide (8 * i + j < l) && o.toNat.testBit (7 - j)) := by
  have hmask : ∀ k < 8, ∀ j < 8,
      ((0xff00 : UInt16) >>> k.toUInt16).toUInt8.toNat.testBit (7 - j) = decide (j < k) := by
    decide
  unfold baseOctet
  split
  · rw [decide_eq_false (by omega), Bool.false_and]
    exact Nat.zero_testBit _
  · split
    · have hborder : j < l % 8 ↔ 8 * i + j < l := by omega
      rw [UInt8.toNat_and, Nat.testBit_and, hmask _ (by omega) j hj, Bool.and_comm,
        decide_eq_decide.mpr hborder]
    · rw [decide_eq_true (by omega), Bool.true_and]

/-- The host bits are cleared. -/
theorem bit_base (n : Network) {i : Nat} (h : i < 128) :
    n.base.bit i = (decide (i < n.length) && n.address.bit i) :=
  Address.bit_mapFinIdx (fun _ o _ => testBit_baseOctet o) n.address h

/-- Both ways of truncating give the same network. -/
theorem networkPart_eq_base (n : Network) :
    Ndp.PrefixInfo.networkPart n.length n.address = n.base := by
  refine Address.eq_iff.mpr fun i hi => ?_
  rw [Ndp.PrefixInfo.bit_networkPart _ _ hi, bit_base n hi]

end Network

theorem Network.baseOctet_whole (k i : Nat) (o : UInt8) :
    Network.baseOctet (8 * k) i o = if i < k then o else 0 := by
  unfold Network.baseOctet
  by_cases h : i < k
  · rw [if_neg (by omega), if_neg (by omega), if_pos h]
  · rw [if_pos (by omega), if_neg h]

namespace Network

variable {k : Nat}

theorem toBytes_base_whole (a : Address) (h : 8 * k ≤ 128) :
    (base ⟨a, 8 * k, h⟩).toBytes = a.toBytes.take k ++ List.replicate (16 - k) 0 := by
  have hk : k ≤ 16 := by omega
  apply List.ext_getElem
  · simp [Address.toBytes, hk]
  · intro i h₁ h₂
    simp only [Address.toBytes, Vector.length_toList] at h₁
    simp only [Address.toBytes, base, Vector.getElem_toList, Vector.getElem_mapFinIdx,
      baseOctet_whole]
    by_cases hi : i < k
    · simp [hk, hi]
    · simp [List.getElem_append, hk, hi]

/-- The way in which options truncate gives the same network. -/
theorem networkPart_whole (a : Address) (h : 8 * k ≤ 128) :
    Ndp.PrefixInfo.networkPart (8 * k) a = base ⟨a, 8 * k, h⟩ :=
  networkPart_eq_base ⟨a, 8 * k, h⟩

/-- Truncating what is truncated changes nothing. -/
theorem networkPart_base_whole (a : Address) (h : 8 * k ≤ 128) :
    Ndp.PrefixInfo.networkPart (8 * k) (base ⟨a, 8 * k, h⟩) = base ⟨a, 8 * k, h⟩ := by
  rw [← networkPart_whole a h, Ndp.PrefixInfo.networkPart_networkPart, Nat.min_self]

end Network

end RouterAdvert
