import RouterAdvert.Proofs.Ndp.Objects
import RouterAdvert.Route

/-! Prefixes as options store them. What is stored are the first bits of an address, at most 128 of
them, with zeros behind, and their number. It does not matter how often or by which of the ways of
truncating the address has been cut to that many bits before. -/
namespace RouterAdvert

namespace Network

/-- A way of truncating networks that clears the host bits and keeps the others. -/
def Truncates (f : Network → Address) : Prop :=
  ∀ n, ∀ i < 128, (f n).bit i = (decide (i < n.length) && n.address.bit i)

theorem truncates_base : Truncates base := fun n _ hi => bit_base n hi

theorem Truncates.eq_networkPart {f : Network → Address} (h : Truncates f) (n : Network) :
    f n = Ndp.PrefixInfo.networkPart n.length n.address := by
  refine Address.eq_iff.mpr fun i hi => ?_
  rw [h n i hi, Ndp.PrefixInfo.bit_networkPart _ _ hi]

end Network

namespace Ndp.PrefixInfo

variable {a b : Address} {l k : UInt8} {o o' : PrefixInfo}

theorem bit_address_setPrefix {i : Nat} (hi : i < 128) :
    (setPrefix a l o).address.bit i = (decide (i < min l.toNat 128) && a.bit i) := by
  rw [address_setPrefix, bit_networkPart _ a hi, toNat_cappedLength]

/-- An address counts for its first bits only. -/
theorem setPrefix_congr
    (h : networkPart (cappedLength l).toNat a = networkPart (cappedLength l).toNat b) :
    setPrefix a l o = setPrefix b l o := by
  simp only [setPrefix_eq, h]

theorem setPrefix_setPrefix : setPrefix a l (setPrefix b k o) = setPrefix a l o :=
  regular.edit_edit (d := Edit.network a l) (e := Edit.network b k) o rfl

/-- An octet for the length, and those of the address. -/
theorem write_setPrefix (a : Address) (l : UInt8) (o : PrefixInfo) :
    (setPrefix a l o).write =
      o.write.take 2 ++ (setPrefix a l o).prefixLength :: (o.write.drop 3).take 13 ++
        (setPrefix a l o).address.toBytes := by
  rw [prefixLength_setPrefix, address_setPrefix]
  apply List.ext_getElem
  · simp [write, Address.toBytes]
  · intro i h₁ h₂
    have hi : i < 32 := by simpa [write] using h₁
    simp only [write, setPrefix_eq, store, Vector.getElem_toList, Vector.getElem_ofFn,
      Address.toBytes]
    by_cases haddress : 16 ≤ i
    · rw [dif_pos haddress, List.getElem_append_right (by simp; omega)]
      simp
    · rw [dif_neg haddress, List.getElem_append_left (by simp; omega)]
      obtain hlow | rfl | hhigh := Nat.lt_trichotomy i 2
      · rw [if_neg (by omega), List.getElem_append_left (by simp; omega)]
        simp
      · simp
      · obtain ⟨j, rfl⟩ : ∃ j, i = j + 3 := ⟨i - 3, by omega⟩
        rw [if_neg (by omega), List.getElem_append_right (by simp)]
        simp [Nat.add_comm]

/-- Setting a prefix stores the first bits of its address, at most 128 of them, with zeros behind,
and how many they are; no other octet of the option changes, and none around the address if the host
bits are cleared in place. Setting what is stored again changes nothing, of two lengths the smaller
one counts, and addresses are stored alike if they agree in the bits that count, and only then. The
address that is stored is that of the network, in whichever way that is truncated; guests get the
same one from a host route. -/
theorem setPrefix_stores (a : Address) (l : UInt8) (o : PrefixInfo) :
    let s := setPrefix a l o
    let m := min l.toNat 128
    (s.prefixLength.toNat = m ∧
      (∀ i < 128, s.address.bit i = (decide (i < m) && a.bit i)) ∧
      s.write = o.write.take 2 ++ s.prefixLength :: (o.write.drop 3).take 13 ++ s.address.toBytes ∧
      ∀ before after, clearHost before.length m (before ++ a.toBytes ++ after) =
        before ++ s.address.toBytes ++ after) ∧
    setPrefix s.address l s = s ∧
    (∀ k o', ∀ i < 128, (setPrefix s.address k o').address.bit i =
      (decide (i < min (min l.toNat k.toNat) 128) && a.bit i)) ∧
    (∀ b o', get .network (setPrefix b l o') = get .network s ↔ ∀ i < m, b.bit i = a.bit i) ∧
    (∀ f, Network.Truncates f → s.address = f ⟨a, m, Nat.min_le_right _ _⟩) ∧
    Network.Truncates Network.base ∧
    ∀ r : RouteSet,
      r.advertPrefix? = r.hosts.head?.map fun n => (setPrefix n.address 64 o).address := by
  intro s m
  have haddress : s.address = networkPart m a := by
    rw [address_setPrefix, toNat_cappedLength]
  refine ⟨⟨?_, fun i hi => bit_address_setPrefix hi, write_setPrefix a l o, fun before after => ?_⟩,
    ?_, fun k o' i hi => ?_, fun b o' => ?_, fun f hf => ?_, Network.truncates_base, fun r => ?_⟩
  · rw [prefixLength_setPrefix, toNat_cappedLength]
  · rw [haddress, clearHost_append before after a (Nat.min_le_right _ _)]
  · rw [setPrefix_setPrefix]
    refine setPrefix_congr ?_
    rw [haddress, toNat_cappedLength, networkPart_networkPart, Nat.min_self]
  · have hmin : i < min k.toNat 128 ∧ i < m ↔ i < min (min l.toNat k.toNat) 128 := by omega
    rw [bit_address_setPrefix hi, bit_address_setPrefix hi, ← Bool.and_assoc, ← Bool.decide_and,
      decide_eq_decide.mpr hmin]
  · have hlength : (setPrefix b l o').prefixLength = s.prefixLength := by
      rw [prefixLength_setPrefix, prefixLength_setPrefix]
    rw [← networkPart_eq_iff (Nat.min_le_right _ _), ← haddress, ← toNat_cappedLength,
      ← address_setPrefix b l o']
    exact ⟨congrArg Prod.fst, fun h => Prod.ext h hlength⟩
  · rw [haddress, hf.eq_networkPart]
  · refine congrArg (Option.map · r.hosts.head?) (funext fun n => ?_)
    rw [address_setPrefix]
    exact (Network.networkPart_eq_base ⟨n.address, 64, by decide⟩).symm

/-- A length that divides an octet. -/
theorem setPrefix_stores_ones :
    Network.Truncates Network.base ∧
      (setPrefix ⟨Vector.replicate 16 0xff⟩ 70 {}).address =
        Network.base ⟨⟨Vector.replicate 16 0xff⟩, 70, by decide⟩ ∧
      (setPrefix ⟨Vector.replicate 16 0xff⟩ 70 {}).address.toBytes =
        List.replicate 8 0xff ++ 0xfc :: List.replicate 7 0 := by
  obtain ⟨-, -, -, -, hf, htruncates, -⟩ :=
    setPrefix_stores ⟨Vector.replicate 16 0xff⟩ 70 {}
  have haddress := hf _ htruncates
  exact ⟨htruncates, haddress, (congrArg Address.toBytes haddress).trans (by decide)⟩

end Ndp.PrefixInfo

end RouterAdvert
