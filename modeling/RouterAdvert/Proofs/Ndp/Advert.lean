import RouterAdvert.Ndp.Advert
import RouterAdvert.Proofs.Ndp.Field
import RouterAdvert.Proofs.Ndp.HostBits
import RouterAdvert.Proofs.Ndp.Options

/-! Router advertisements as a host reads them. Reading back what was encoded gives the headers and
the options that were asked for, with nothing left over. -/
namespace RouterAdvert.Ndp

/-- An option of a router advertisement to whoever reads it. -/
inductive AdvertOption where
  | sourceLink (o : SourceLink)
  | prefixInfo (o : PrefixInfo)
  | other (octets : Bytes)

namespace AdvertOption

/-- Reads the octets of one option. -/
def ofOctets (b : Bytes) : AdvertOption :=
  if b.head? = some sourceLinkType then
    match SourceLink.read? b with
    | some (o, []) => sourceLink o
    | _ => other b
  else if b.head? = some prefixInfoType then
    match PrefixInfo.read? b with
    | some (o, []) => prefixInfo o
    | _ => other b
  else other b

def sourceLink? : AdvertOption → Option SourceLink
  | sourceLink o => some o
  | _ => none

def prefixInfo? : AdvertOption → Option PrefixInfo
  | prefixInfo o => some o
  | _ => none

end AdvertOption

/-- What a host reads from a router advertisement. -/
structure AdvertReading where
  icmp : IcmpHeader
  header : AdvertHeader
  options : List AdvertOption

/-- Reads all of a message; nothing if it is cut short. -/
def AdvertReading.read? (b : Bytes) : Option AdvertReading := do
  let (icmp, b) ← IcmpHeader.read? b
  let (header, b) ← AdvertHeader.read? b
  let options ← options? b
  return { icmp := icmp, header := header, options := options.map .ofOctets }

theorem IcmpHeader.read?_write (h : IcmpHeader) (rest : Bytes) :
    IcmpHeader.read? (h.write ++ rest) = some (h, rest) := by
  simp [IcmpHeader.read?, IcmpHeader.write, Bytes.split?_append]

theorem AdvertHeader.read?_write (h : AdvertHeader) (rest : Bytes) :
    AdvertHeader.read? (h.write ++ rest) = some (h, rest) := by
  simp [AdvertHeader.read?, AdvertHeader.write, Bytes.split?_append]

theorem SourceLink.read?_write (o : SourceLink) (rest : Bytes) :
    SourceLink.read? (o.write ++ rest) = some (o, rest) := by
  simp [SourceLink.read?, SourceLink.write, Bytes.split?_append]

theorem SourceLink.mac_setMac (m : Mac) (o : SourceLink) : (setMac m o).mac = m := by
  refine congrArg Mac.mk (Vector.ext fun i hi => ?_)
  simp [setMac]

theorem PrefixInfo.read?_write (o : PrefixInfo) (rest : Bytes) :
    PrefixInfo.read? (o.write ++ rest) = some (o, rest) := by
  simp [PrefixInfo.read?, PrefixInfo.write, Bytes.split?_append]

/-- An object of whole units whose second octet counts them is an option. -/
theorem isOption_toList {n : Nat} {raw : Vector UInt8 n} {type units : UInt8} {body : Bytes}
    (h : raw.toList = type :: units :: body) (hl : n = 8 * units.toNat) : IsOption raw.toList :=
  ⟨type, units, body, h, Vector.length_toList.trans hl⟩

namespace Advert

/-- The type and the length, with the address after them. -/
theorem write_sourceLink (m : Mac) : (sourceLink m).write = 1 :: 1 :: m.octets.toList := by
  apply List.ext_getElem
  · simp [SourceLink.write]
  · intro i h₁ h₂
    match i with
    | 0 | 1 => simp [SourceLink.write, sourceLink, SourceLink.setMac]
    | i + 2 => simp [SourceLink.write, sourceLink, SourceLink.setMac]

theorem isOption_sourceLink (m : Mac) : IsOption (sourceLink m).write :=
  isOption_toList (write_sourceLink m) rfl

theorem ofOctets_sourceLink (m : Mac) :
    AdvertOption.ofOctets (sourceLink m).write = .sourceLink (sourceLink m) := by
  have hr := SourceLink.read?_write (sourceLink m) []
  rw [List.append_nil] at hr
  have hh : (sourceLink m).write.head? = some sourceLinkType := by
    rw [write_sourceLink]
    rfl
  simp [AdvertOption.ofOctets, hh, hr]

theorem mac_sourceLink (m : Mac) : (sourceLink m).mac = m := SourceLink.mac_setMac m {}

/-- The first four octets are the type, the length, the length of the prefix and the flags. -/
theorem raw_prefixInfo (a : Address) :
    (prefixInfo a).raw[0]? = some 3 ∧ (prefixInfo a).raw[1]? = some 4 ∧
      (prefixInfo a).raw[2]? = some 64 ∧ (prefixInfo a).raw[3]? = some 0xc0 := by
  have hnew : ({} : PrefixInfo).raw[0] = 3 ∧ ({} : PrefixInfo).raw[1] = 4 ∧
      ({} : PrefixInfo).raw[3] = 0 := ⟨rfl, rfl, rfl⟩
  have hlength : PrefixInfo.cappedLength 64 = 64 := rfl
  have hflags : (0x80 ||| 0x40 : UInt8) = 0xc0 := rfl
  unfold prefixInfo
  generalize ({} : PrefixInfo) = o at hnew ⊢
  simp [PrefixInfo.setPreferredLifetime, PrefixInfo.setValidLifetime, PrefixInfo.setAutonomous,
    PrefixInfo.setOnLink, PrefixInfo.setPrefix_eq, PrefixInfo.store, setBe32, withFlag, hnew,
    hlength, hflags]

theorem write_prefixInfo (a : Address) :
    (prefixInfo a).write = 3 :: 4 :: (prefixInfo a).write.drop 2 := by
  obtain ⟨htype, hunits, -⟩ := raw_prefixInfo a
  apply List.ext_getElem?
  intro i
  match i with
  | 0 => simpa [PrefixInfo.write] using htype
  | 1 => simpa [PrefixInfo.write] using hunits
  | i + 2 => simp [Nat.add_comm]

theorem isOption_prefixInfo (a : Address) : IsOption (prefixInfo a).write :=
  isOption_toList (write_prefixInfo a) rfl

theorem ofOctets_prefixInfo (a : Address) :
    AdvertOption.ofOctets (prefixInfo a).write = .prefixInfo (prefixInfo a) := by
  have hr := PrefixInfo.read?_write (prefixInfo a) []
  rw [List.append_nil] at hr
  have hh : (prefixInfo a).write.head? = some prefixInfoType := by
    rw [write_prefixInfo]
    rfl
  have hne : prefixInfoType ≠ sourceLinkType := by decide
  simp [AdvertOption.ofOctets, hh, hr, hne]

/-- The option names the /64 around the address, for hosts to configure themselves in. -/
theorem fields_prefixInfo (a : Address) :
    (prefixInfo a).prefixLength = 64 ∧ (prefixInfo a).onLink = true ∧
      (prefixInfo a).autonomous = true ∧
      (prefixInfo a).address = PrefixInfo.networkPart 64 a := by
  obtain ⟨-, -, hlength, hflags⟩ := raw_prefixInfo a
  rw [Vector.getElem?_eq_getElem (by decide), Option.some.injEq] at hlength hflags
  refine ⟨hlength, ?_, ?_, congrArg Address.mk (Vector.ext fun i hi => ?_)⟩
  · rw [PrefixInfo.onLink, hflags]
    rfl
  · rw [PrefixInfo.autonomous, hflags]
    rfl
  · have hcapped : (PrefixInfo.cappedLength 64).toNat = 64 := rfl
    simp [prefixInfo, PrefixInfo.setPrefix_eq, PrefixInfo.store, PrefixInfo.setOnLink,
      PrefixInfo.setAutonomous, PrefixInfo.setValidLifetime, PrefixInfo.setPreferredLifetime,
      setBe32, hcapped, PrefixInfo.networkPart]

theorem lifetime_header (a : Advert) : a.header.lifetime = a.lifetime := by
  simp only [header, AdvertHeader.lifetime, AdvertHeader.setReachable, AdvertHeader.setRetransmit,
    AdvertHeader.setLifetime]
  rw [getBe16_setBe32_of_lt _ (by decide), getBe16_setBe32_of_lt _ (by decide), getBe16_setBe16]

/-- The options of an advertisement, as they are read back. -/
def options (a : Advert) : List AdvertOption :=
  (a.mac.map fun m => .sourceLink (sourceLink m)).toList ++
    (a.network.map fun n => .prefixInfo (prefixInfo n)).toList

/-- The octets of the options, one after another. -/
def optionOctets (a : Advert) : List Bytes :=
  (a.mac.map fun m => (sourceLink m).write).toList ++
    (a.network.map fun n => (prefixInfo n).write).toList

theorem encode_eq (a : Advert) :
    a.encode = icmpHeader.write ++ (a.header.write ++ a.optionOctets.flatten) := by
  cases hm : a.mac <;> cases hn : a.network <;>
    simp [encode, optionOctets, Bytes.text, hm, hn]

theorem isOption_of_mem {a : Advert} {o : Bytes} (h : o ∈ a.optionOctets) : IsOption o := by
  rcases List.mem_append.mp h with h | h
  · obtain ⟨m, -, rfl⟩ := Option.map_eq_some_iff.mp (Option.mem_toList.mp h)
    exact isOption_sourceLink m
  · obtain ⟨n, -, rfl⟩ := Option.map_eq_some_iff.mp (Option.mem_toList.mp h)
    exact isOption_prefixInfo n

theorem map_ofOctets (a : Advert) : a.optionOctets.map .ofOctets = a.options := by
  cases hm : a.mac <;> cases hn : a.network <;>
    simp [optionOctets, options, hm, hn, ofOctets_sourceLink, ofOctets_prefixInfo]

/-- All of an advertisement is read back as it was meant. -/
theorem read?_encode (a : Advert) : AdvertReading.read? a.encode =
    some { icmp := icmpHeader, header := a.header, options := a.options } := by
  rw [encode_eq]
  simp [AdvertReading.read?, IcmpHeader.read?_write, AdvertHeader.read?_write,
    options?_flatten fun _ h => isOption_of_mem h, map_ofOctets]

theorem fields_icmpHeader :
    icmpHeader.type = routerAdvertType ∧ icmpHeader.code = 0 ∧ icmpHeader.checksum = 0 := by
  decide

theorem sourceLinks_options (a : Advert) :
    a.options.filterMap (·.sourceLink?) = (a.mac.map sourceLink).toList := by
  cases hm : a.mac <;> cases hn : a.network <;>
    simp [options, hm, hn, AdvertOption.sourceLink?]

theorem prefixInfos_options (a : Advert) :
    a.options.filterMap (·.prefixInfo?) = (a.network.map prefixInfo).toList := by
  cases hm : a.mac <;> cases hn : a.network <;>
    simp [options, hm, hn, AdvertOption.prefixInfo?]

theorem isSome_of_mem_options {a : Advert} {o : AdvertOption} (h : o ∈ a.options) :
    o.sourceLink?.isSome ∨ o.prefixInfo?.isSome := by
  rcases List.mem_append.mp h with h | h
  · obtain ⟨m, -, rfl⟩ := Option.map_eq_some_iff.mp (Option.mem_toList.mp h)
    exact Or.inl rfl
  · obtain ⟨n, -, rfl⟩ := Option.map_eq_some_iff.mp (Option.mem_toList.mp h)
    exact Or.inr rfl

end Advert

end RouterAdvert.Ndp
