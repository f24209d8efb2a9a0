import RouterAdvert.Ndp.Field

/-! Fields read back what was set, and nothing else that was set beside them. -/
namespace RouterAdvert

namespace Bytes

theorem toNat_be16 (a b : UInt8) : (be16 a b).toNat = a.toNat * 256 + b.toNat := by
  have ha := a.toNat_lt
  have hb := b.toNat_lt
  have hor := Nat.shiftLeft_add_eq_or_of_lt (i := 8) hb a.toNat
  have hs : a.toNat <<< 8 = a.toNat * 256 := Nat.shiftLeft_eq a.toNat 8
  have hm : a.toNat <<< 8 % 2 ^ 16 = a.toNat <<< 8 := Nat.mod_eq_of_lt (by omega)
  simp only [be16, UInt16.toNat_or, UInt16.toNat_shiftLeft, UInt8.toNat_toUInt16]
  rw [show (8 : UInt16).toNat % 16 = 8 from rfl, hm, ← hor, hs]

theorem toNat_be32 (a b c d : UInt8) :
    (be32 a b c d).toNat =
      a.toNat * 16777216 + b.toNat * 65536 + c.toNat * 256 + d.toNat := by
  have ha := a.toNat_lt
  have hb := b.toNat_lt
  have hc := c.toNat_lt
  have hd := d.toNat_lt
  have hsum : ((a.toNat * 2 ^ 8 + b.toNat) * 2 ^ 8 + c.toNat) * 2 ^ 8 + d.toNat =
      a.toNat * 16777216 + b.toNat * 65536 + c.toNat * 256 + d.toNat := by
    omega
  have hshift (x : UInt8) (k : UInt32) (hk : k.toNat ≤ 24) :
      (x.toUInt32 <<< k).toNat = x.toNat * 2 ^ k.toNat := by
    have hx := x.toNat_lt
    have hpow : 2 ^ k.toNat ≤ 2 ^ 24 := Nat.pow_le_pow_right (by decide) hk
    have hlt : x.toNat * 2 ^ k.toNat < 2 ^ 32 :=
      Nat.lt_of_le_of_lt (Nat.mul_le_mul (by omega : x.toNat ≤ 255) hpow) (by decide)
    rw [UInt32.toNat_shiftLeft, Nat.mod_eq_of_lt (by omega : k.toNat < 32), UInt8.toNat_toUInt32,
      Nat.shiftLeft_eq, Nat.mod_eq_of_lt hlt]
  have hor (x : Nat) {y n : Nat} (hy : y < 2 ^ n) : x * 2 ^ n ||| y = x * 2 ^ n + y := by
    rw [← Nat.shiftLeft_eq, Nat.shiftLeft_add_eq_or_of_lt hy]
  have hjoin (x y n : Nat) : x * 2 ^ (n + 8) + y * 2 ^ n = (x * 2 ^ 8 + y) * 2 ^ n := by
    rw [Nat.add_mul, Nat.mul_assoc, ← Nat.pow_add, Nat.add_comm 8]
  -- Each octet lies below all that was put in front of it.
  have hab : a.toNat * 2 ^ 24 ||| b.toNat * 2 ^ 16 = (a.toNat * 2 ^ 8 + b.toNat) * 2 ^ 16 :=
    (hor _ (by omega)).trans (hjoin _ _ 16)
  have habc : (a.toNat * 2 ^ 8 + b.toNat) * 2 ^ 16 ||| c.toNat * 2 ^ 8 =
      ((a.toNat * 2 ^ 8 + b.toNat) * 2 ^ 8 + c.toNat) * 2 ^ 8 :=
    (hor _ (by omega)).trans (hjoin _ _ 8)
  rw [← hsum, be32, UInt32.toNat_or, UInt32.toNat_or, UInt32.toNat_or, hshift a 24 (by decide),
    hshift b 16 (by decide), hshift c 8 (by decide), UInt8.toNat_toUInt32]
  simp only [UInt32.reduceToNat]
  rw [hab, habc, hor _ hd]

/-- The two octets of an integer make it up. -/
theorem be16_split (v : UInt16) : be16 (v >>> 8).toUInt8 v.toUInt8 = v := by
  have hv := v.toNat_lt
  refine UInt16.toNat_inj.mp ?_
  rw [toNat_be16]
  simp only [UInt16.toNat_toUInt8, UInt16.toNat_shiftRight]
  rw [show (8 : UInt16).toNat % 16 = 8 from rfl, Nat.shiftRight_eq_div_pow]
  omega

/-- The four octets of an integer make it up. -/
theorem be32_split (v : UInt32) :
    be32 (v >>> 24).toUInt8 (v >>> 16).toUInt8 (v >>> 8).toUInt8 v.toUInt8 = v := by
  have hv := v.toNat_lt
  refine UInt32.toNat_inj.mp ?_
  rw [toNat_be32]
  simp only [UInt32.toNat_toUInt8, UInt32.toNat_shiftRight, UInt32.reduceToNat, Nat.reduceMod,
    Nat.shiftRight_eq_div_pow]
  omega

end Bytes

namespace Ndp

variable {n i j k : Nat} {raw : Vector UInt8 n}

theorem getElem_setBe32_of_ne (h : i + 3 < n) (v : UInt32) (hk : k < n)
    (hne : k < i ∨ i + 3 < k) : (setBe32 raw i v h)[k] = raw[k] := by
  unfold setBe32
  rw [Vector.getElem_set_ne _ _ (by omega), Vector.getElem_set_ne _ _ (by omega),
    Vector.getElem_set_ne _ _ (by omega), Vector.getElem_set_ne _ _ (by omega)]

theorem getBe32_setBe32 (h : i + 3 < n) (v : UInt32) : getBe32 (setBe32 raw i v h) i h = v := by
  simp [getBe32, setBe32, Bytes.be32_split]

/-- Setting one integer leaves another one beside it as it was. -/
theorem getBe32_setBe32_of_ne (h : i + 3 < n) (hj : j + 3 < n) (hne : j + 3 < i ∨ i + 3 < j)
    (v : UInt32) : getBe32 (setBe32 raw i v h) j hj = getBe32 raw j hj := by
  unfold getBe32
  rw [getElem_setBe32_of_ne h v (by omega) (by omega),
    getElem_setBe32_of_ne h v (by omega) (by omega),
    getElem_setBe32_of_ne h v (by omega) (by omega),
    getElem_setBe32_of_ne h v (by omega) (by omega)]

theorem getBe16_setBe16 (h : i + 1 < n) (v : UInt16) : getBe16 (setBe16 raw i v h) i h = v := by
  simp [getBe16, setBe16, Bytes.be16_split]

theorem getBe16_setBe32_of_lt (h : j + 3 < n) (hi : i + 1 < j) (v : UInt32) :
    getBe16 (setBe32 raw j v h) i (by omega) = getBe16 raw i (by omega) := by
  unfold getBe16
  rw [getElem_setBe32_of_ne h v (by omega) (by omega),
    getElem_setBe32_of_ne h v (by omega) (by omega)]

end Ndp

end RouterAdvert
