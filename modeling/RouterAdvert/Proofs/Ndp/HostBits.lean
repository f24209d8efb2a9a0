import RouterAdvert.Proofs.Address

/-! Host bits cleared in place, in a buffer that holds an address among other octets. What is left
is the network part, and nothing else changes. -/
namespace RouterAdvert.Ndp.PrefixInfo

variable {start count l : Nat} {b : Bytes}

theorem hostMask_eq {k : Nat} (h : k < 8) : hostMask k = 0xff >>> k.toUInt8 := by
  revert k
  decide

theorem getElem?_zeroFill (h : start + count ≤ b.length) (i : Nat) :
    (zeroFill start count b)[i]? = if start ≤ i ∧ i < start + count then some 0 else b[i]? := by
  have hs : (b.take start).length = start := List.length_take_of_le (by omega)
  unfold zeroFill
  rw [List.append_assoc]
  by_cases h₁ : i < start
  · rw [List.getElem?_append_left (by omega), List.getElem?_take_of_lt h₁, if_neg (by omega)]
  · rw [List.getElem?_append_right (by omega), hs]
    by_cases h₂ : i < start + count
    · rw [List.getElem?_append_left (by simp; omega), List.getElem?_replicate, if_pos (by omega),
        if_pos (by omega)]
    · rw [List.getElem?_append_right (by simp; omega), List.length_replicate, List.getElem?_drop,
        if_neg (by omega), show start + count + (i - start - count) = i by omega]

/-- Just the octets of the address change, to those of the network. -/
theorem getElem?_clearHost (hb : start + 16 ≤ b.length) (hl : l ≤ 128) (i : Nat) :
    (clearHost start l b)[i]? =
      if start ≤ i ∧ i < start + 16 then b[i]?.map (networkOctet l (i - start)) else b[i]? := by
  have hget (h : i < start + 16) : b[i]? = some b[i] := List.getElem?_eq_getElem (by omega)
  unfold clearHost
  by_cases hr : l % 8 = 0
  · rw [if_pos hr, getElem?_zeroFill (by omega)]
    by_cases hin : start ≤ i ∧ i < start + 16
    · rw [if_pos hin, hget hin.2, Option.map_some]
      by_cases hkeep : i - start < l / 8
      · rw [if_neg (by omega), networkOctet, if_pos hkeep]
      · rw [if_pos (by omega), networkOctet, if_neg hkeep, if_neg fun h => h.2 hr]
    · rw [if_neg hin, if_neg (by omega)]
  · have hmask : hostMask (l % 8) = 0xff >>> (l % 8).toUInt8 := hostMask_eq (by omega)
    rw [if_neg hr, List.getElem?_modify, getElem?_zeroFill (by omega), hmask]
    by_cases hin : start ≤ i ∧ i < start + 16
    · rw [if_pos hin, hget hin.2, Option.map_some]
      by_cases hkeep : i - start < l / 8
      · rw [if_neg (by omega), networkOctet, if_pos hkeep]
        simp [show start + l / 8 ≠ i by omega]
      · rw [networkOctet, if_neg hkeep]
        by_cases hborder : i - start = l / 8
        · rw [if_neg (by omega), if_pos ⟨hborder, hr⟩]
          simp [show start + l / 8 = i by omega]
        · rw [if_pos (by omega), if_neg fun h => hborder h.1]
          simp [show start + l / 8 ≠ i by omega]
    · rw [if_neg hin, if_neg (by omega)]
      simp [show start + l / 8 ≠ i by omega]

/-- Whatever stands around an address, clearing its host bits leaves that alone. -/
theorem clearHost_append (before after : Bytes) (a : Address) (hl : l ≤ 128) :
    clearHost before.length l (before ++ a.toBytes ++ after) =
      before ++ (networkPart l a).toBytes ++ after := by
  have hlen (a : Address) : a.toBytes.length = 16 := a.octets.length_toList
  refine List.ext_getElem? fun i => ?_
  rw [getElem?_clearHost (by simp [hlen]) hl, List.append_assoc, List.append_assoc]
  by_cases h₁ : i < before.length
  · rw [if_neg (by omega), List.getElem?_append_left h₁, List.getElem?_append_left h₁]
  · have hright (x : Address) :
        (before ++ (x.toBytes ++ after))[i]? = (x.toBytes ++ after)[i - before.length]? :=
      List.getElem?_append_right (Nat.not_lt.mp h₁)
    rw [hright, hright]
    by_cases h₂ : i - before.length < 16
    · rw [if_pos (by omega), List.getElem?_append_left (by rwa [hlen]),
        List.getElem?_append_left (by rwa [hlen])]
      simp [Address.toBytes, networkPart, h₂]
    · rw [if_neg (by omega), List.getElem?_append_right (by rw [hlen]; omega),
        List.getElem?_append_right (by rw [hlen]; omega), hlen, hlen]

theorem toNat_cappedLength (l : UInt8) : (cappedLength l).toNat = min l.toNat 128 := by
  have h128 : (128 : UInt8).toNat = 128 := rfl
  unfold cappedLength
  split
  · rename_i h
    have h : 128 < l.toNat := UInt8.lt_iff_toNat_lt.mp h
    omega
  · rename_i h
    have h : l.toNat ≤ 128 := UInt8.le_iff_toNat_le.mp (UInt8.not_lt.mp h)
    omega

/-- An option stores the network part of an address. -/
theorem setPrefix_eq (a : Address) (length : UInt8) (o : PrefixInfo) :
    setPrefix a length o =
      store (networkPart (cappedLength length).toNat a) (cappedLength length) o := by
  have hcapped : (cappedLength length).toNat ≤ 128 := by
    rw [toNat_cappedLength]
    exact Nat.min_le_right _ _
  have hcleared : Address.ofBytes (clearHost 0 (cappedLength length).toNat a.toBytes) =
      networkPart (cappedLength length).toNat a := by
    have hclear := clearHost_append [] [] a hcapped
    rw [List.append_nil, List.append_nil, List.nil_append, List.nil_append] at hclear
    have hback := Bytes.prefixOf_append (networkPart (cappedLength length).toNat a).octets []
    rw [List.append_nil] at hback
    exact (congrArg Address.ofBytes hclear).trans (congrArg Address.mk hback)
  rw [setPrefix, hcleared]

end RouterAdvert.Ndp.PrefixInfo
