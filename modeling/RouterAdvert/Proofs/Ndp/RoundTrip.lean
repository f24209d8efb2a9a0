import RouterAdvert.Proofs.Ndp.Advert

/-! What a router advertisement conveys. Whoever reads it finds every parameter that it was made
from, and the fixed values of all other fields; so advertisements differ in their octets exactly if
they differ in what they convey. Of a network, that is its first 64 bits. -/
namespace RouterAdvert.Ndp

/-- The option gives this hardware address. -/
structure SourceLink.Gives (o : SourceLink) (m : Mac) : Prop where
  type : o.type = 1
  length : o.length = 8
  mac : o.mac = m

/-- The option names the /64 around an address, for hosts to configure themselves in. -/
structure PrefixInfo.Names (o : PrefixInfo) (network : Address) : Prop where
  type : o.type = 3
  length : o.length = 32
  prefixLength : o.prefixLength = 64
  onLink : o.onLink = true
  autonomous : o.autonomous = true
  validLifetime : o.validLifetime = 2592000
  preferredLifetime : o.preferredLifetime = 604800
  reserved : ∀ i, 12 ≤ i → i < 16 → o.raw[i]? = some 0
  address : ∀ i < 128, o.address.bit i = (decide (i < 64) && network.bit i)

/-- The message says what the advertisement is made from, and nothing else. -/
structure AdvertReading.Conveys (r : AdvertReading) (a : Advert) : Prop where
  type : r.icmp.type = 134
  code : r.icmp.code = 0
  checksum : r.icmp.checksum = 0
  hopLimit : r.header.hopLimit = 64
  managed : r.header.managed = false
  other : r.header.other = false
  preference : r.header.preference = .medium
  lifetime : r.header.lifetime = a.lifetime
  reachable : r.header.reachable = 0
  retransmit : r.header.retransmit = 0
  options : ∃ (l : Option SourceLink) (p : Option PrefixInfo),
    r.options = (l.map .sourceLink).toList ++ (p.map .prefixInfo).toList ∧
      Option.Rel SourceLink.Gives l a.mac ∧ Option.Rel PrefixInfo.Names p a.network

namespace Advert

theorem raw_header (a : Advert) : a.header.raw[0]? = some 64 ∧ a.header.raw[1]? = some 0 := by
  have hnew : ({} : AdvertHeader).raw[1] = 0 := rfl
  unfold header
  generalize ({} : AdvertHeader) = h at hnew ⊢
  simp [AdvertHeader.setHopLimit, AdvertHeader.setManaged, AdvertHeader.setOther,
    AdvertHeader.setPreference, AdvertHeader.setLifetime, AdvertHeader.setReachable,
    AdvertHeader.setRetransmit, setBe16, setBe32, withFlag, hopLimit, hnew]

theorem flags_header (a : Advert) :
    a.header.managed = false ∧ a.header.other = false ∧ a.header.preference = .medium := by
  obtain ⟨-, hflags⟩ := raw_header a
  rw [Vector.getElem?_eq_getElem (by decide), Option.some.injEq] at hflags
  unfold AdvertHeader.managed AdvertHeader.other AdvertHeader.preference
  rw [hflags]
  decide

theorem timers_header (a : Advert) : a.header.reachable = 0 ∧ a.header.retransmit = 0 := by
  unfold header AdvertHeader.reachable AdvertHeader.retransmit
  constructor
  · exact (getBe32_setBe32_of_ne (by decide) _ (by decide) _).trans (getBe32_setBe32 _ _)
  · exact getBe32_setBe32 _ _

theorem gives_sourceLink (m : Mac) : (sourceLink m).Gives m where
  type := rfl
  length := rfl
  mac := mac_sourceLink m

theorem lifetimes_prefixInfo (a : Address) :
    (prefixInfo a).validLifetime = validLifetime ∧
      (prefixInfo a).preferredLifetime = preferredLifetime := by
  unfold prefixInfo PrefixInfo.validLifetime PrefixInfo.preferredLifetime
  constructor
  · exact (getBe32_setBe32_of_ne (by decide) _ (by decide) _).trans (getBe32_setBe32 _ _)
  · exact getBe32_setBe32 _ _

theorem reserved_prefixInfo (a : Address) {i : Nat} (h₁ : 12 ≤ i) (h₂ : i < 16) :
    (prefixInfo a).raw[i]? = some 0 := by
  have hnew : ∀ i < 16, 12 ≤ i → ({} : PrefixInfo).raw[i]? = some 0 := by decide
  have hi := hnew i h₂ h₁
  rw [Vector.getElem?_eq_getElem (by omega), Option.some.injEq] at hi ⊢
  unfold prefixInfo PrefixInfo.setPreferredLifetime PrefixInfo.setValidLifetime
  rw [getElem_setBe32_of_ne (by decide) _ (by omega) (by omega),
    getElem_setBe32_of_ne (by decide) _ (by omega) (by omega)]
  unfold PrefixInfo.setAutonomous PrefixInfo.setOnLink
  rw [PrefixInfo.setPrefix_eq, PrefixInfo.store, Vector.getElem_set_ne _ _ (by omega),
    Vector.getElem_set_ne _ _ (by omega)]
  simp only [Vector.getElem_ofFn]
  rw [dif_neg (by omega), if_neg (by omega)]
  exact hi

theorem names_prefixInfo (a : Address) : (prefixInfo a).Names a := by
  obtain ⟨htype, hunits, -⟩ := raw_prefixInfo a
  rw [Vector.getElem?_eq_getElem (by decide), Option.some.injEq] at htype hunits
  obtain ⟨hlength, hlink, hauto, haddress⟩ := fields_prefixInfo a
  obtain ⟨hvalid, hpreferred⟩ := lifetimes_prefixInfo a
  constructor
  · exact htype
  · unfold PrefixInfo.length
    rw [hunits]
    rfl
  · exact hlength
  · exact hlink
  · exact hauto
  · exact hvalid
  · exact hpreferred
  · exact fun i h₁ h₂ => reserved_prefixInfo a h₁ h₂
  · intro i hi
    rw [haddress, PrefixInfo.bit_networkPart 64 a hi]

/-- What is read back conveys all parameters. -/
theorem conveys_reading (a : Advert) :
    AdvertReading.Conveys { icmp := icmpHeader, header := a.header, options := a.options } a := by
  obtain ⟨htype, hcode, hsum⟩ := fields_icmpHeader
  obtain ⟨hhops, -⟩ := raw_header a
  rw [Vector.getElem?_eq_getElem (by decide), Option.some.injEq] at hhops
  obtain ⟨hmanaged, hother, hpreference⟩ := flags_header a
  obtain ⟨hreachable, hretransmit⟩ := timers_header a
  constructor
  case type => exact htype
  case code => exact hcode
  case checksum => exact hsum
  case hopLimit => exact hhops
  case managed => exact hmanaged
  case other => exact hother
  case preference => exact hpreference
  case lifetime => exact lifetime_header a
  case reachable => exact hreachable
  case retransmit => exact hretransmit
  case options =>
    refine ⟨a.mac.map sourceLink, a.network.map prefixInfo, ?_, ?_, ?_⟩
    · simp only [options, Option.map_map]
      rfl
    · cases a.mac with
      | none => exact .none
      | some m => exact .some (gives_sourceLink m)
    · cases a.network with
      | none => exact .none
      | some n => exact .some (names_prefixInfo n)

/-- The option depends on the first 64 bits of the address, and shows them. -/
theorem prefixInfo_eq_iff {m n : Address} :
    prefixInfo m = prefixInfo n ↔ ∀ i < 64, m.bit i = n.bit i := by
  constructor
  · intro h i hi
    have hm := (names_prefixInfo m).address i (by omega)
    have hn := (names_prefixInfo n).address i (by omega)
    rw [h, hn] at hm
    simpa [hi] using hm.symm
  · intro h
    have hpart : PrefixInfo.networkPart 64 m = PrefixInfo.networkPart 64 n :=
      (PrefixInfo.networkPart_eq_iff (by decide)).mpr h
    have hcapped : (PrefixInfo.cappedLength 64).toNat = 64 := rfl
    unfold prefixInfo
    simp only [PrefixInfo.setPrefix_eq, hcapped, hpart]

theorem map_sourceLink_eq_iff {m n : Option Mac} :
    m.map sourceLink = n.map sourceLink ↔ m = n := by
  constructor
  · intro h
    have hmac := congrArg (Option.map SourceLink.mac) h
    simpa [Function.comp_def, mac_sourceLink] using hmac
  · intro h
    rw [h]

/-- Advertisements with the same octets are read alike. -/
theorem encode_eq_iff {a b : Advert} : a.encode = b.encode ↔
    a.header = b.header ∧ a.mac.map sourceLink = b.mac.map sourceLink ∧
      a.network.map prefixInfo = b.network.map prefixInfo := by
  constructor
  · intro h
    have hread : AdvertReading.read? a.encode = AdvertReading.read? b.encode := by rw [h]
    rw [read?_encode, read?_encode, Option.some.injEq, AdvertReading.mk.injEq] at hread
    obtain ⟨-, hheader, hoptions⟩ := hread
    have hlinks := sourceLinks_options a
    have hprefixes := prefixInfos_options a
    rw [hoptions, sourceLinks_options b] at hlinks
    rw [hoptions, prefixInfos_options b] at hprefixes
    exact ⟨hheader, by simpa using congrArg List.head? hlinks.symm,
      by simpa using congrArg List.head? hprefixes.symm⟩
  · rintro ⟨hheader, hlink, hprefix⟩
    have hoctets (a : Advert) : a.optionOctets =
        ((a.mac.map sourceLink).map SourceLink.write).toList ++
          ((a.network.map prefixInfo).map PrefixInfo.write).toList := by
      simp only [optionOctets, Option.map_map, Function.comp_def]
    rw [encode_eq, encode_eq, hoctets a, hoctets b, hheader, hlink, hprefix]

theorem header_eq_iff {a b : Advert} : a.header = b.header ↔ a.lifetime = b.lifetime := by
  constructor
  · intro h
    rw [← lifetime_header a, h, lifetime_header b]
  · intro h
    unfold header
    rw [h]

theorem map_prefixInfo_eq_iff {m n : Option Address} : m.map prefixInfo = n.map prefixInfo ↔
    Option.Rel (fun a b => ∀ i < 64, a.bit i = b.bit i) m n := by
  constructor
  · intro h
    cases m <;> cases n
    case none.none => exact .none
    case some.some a b => exact .some (prefixInfo_eq_iff.mp (Option.some.inj h))
    all_goals cases h
  · intro h
    cases h with
    | none => rfl
    | some h => exact congrArg some (prefixInfo_eq_iff.mpr h)

/-- An advertisement is read back with all its parameters, down to its last octet. Two of them have
the same octets exactly if they have the same hardware address and lifetime and both no network, or
networks that agree in their first 64 bits. -/
theorem encode_conveys (a : Advert) :
    (∃ (r : AdvertReading) (os : List Bytes), AdvertReading.read? a.encode = some r ∧
      a.encode = r.icmp.write ++ r.header.write ++ os.flatten ∧ r.options = os.map .ofOctets ∧
      r.Conveys a) ∧
    ∀ b : Advert, a.encode = b.encode ↔
      a.mac = b.mac ∧ a.lifetime = b.lifetime ∧
        Option.Rel (fun m n => ∀ i < 64, m.bit i = n.bit i) a.network b.network := by
  constructor
  · refine ⟨_, a.optionOctets, read?_encode a, ?_, (map_ofOctets a).symm, conveys_reading a⟩
    rw [List.append_assoc]
    exact encode_eq a
  · intro b
    rw [encode_eq_iff, header_eq_iff, map_sourceLink_eq_iff, map_prefixInfo_eq_iff]
    exact and_left_comm

end Advert

end RouterAdvert.Ndp
