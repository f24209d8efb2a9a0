import RouterAdvert.Proofs.Ndp.Advert
import RouterAdvert.Proofs.Ndp.Format

/-! The fields of the wire objects. Where the bits of a field lie, how they are read and what a
setter makes of its value is said once for each object, in the order of the bits on the wire; the
laws of getters, setters and reads follow for all of them. -/
namespace RouterAdvert.Ndp

namespace IcmpHeader

inductive Field where
  | type
  | code
  | checksum
  deriving DecidableEq, Repr

namespace Field

def Value : Field → Type
  | type | code => UInt8
  | checksum => UInt16

def covers : Field → Nat → Prop
  | type, i => i < 8
  | code, i => 8 ≤ i ∧ i < 16
  | checksum, i => 16 ≤ i ∧ i < 32

theorem covers_unique {f g : Field} {i : Nat} (hf : f.covers i) (hg : g.covers i) : f = g := by
  cases f <;> cases g <;> simp only [covers] at hf hg <;> first | rfl | omega

def decode : (f : Field) → (Nat → Bool) → f.Value
  | type, x => (number x 0 8).toUInt8
  | code, x => (number x 8 8).toUInt8
  | checksum, x => (number x 16 16).toUInt16

/-- A field is read from its own bits. -/
theorem decode_congr (f : Field) {x y : Nat → Bool} (h : ∀ i, f.covers i → x i = y i) :
    f.decode x = f.decode y := by
  cases f with
  | type => exact congrArg Nat.toUInt8 (number_congr fun i _ h₂ => h i h₂)
  | code => exact congrArg Nat.toUInt8 (number_congr fun i h₁ h₂ => h i ⟨h₁, h₂⟩)
  | checksum => exact congrArg Nat.toUInt16 (number_congr fun i h₁ h₂ => h i ⟨h₁, h₂⟩)

end Field

def get : (f : Field) → IcmpHeader → f.Value
  | .type, h => h.type
  | .code, h => h.code
  | .checksum, h => h.checksum

theorem get_eq_decode (f : Field) (h : IcmpHeader) : get f h = f.decode (bit h.write) := by
  cases f with
  | type => exact (toUInt8_number (k := 0) (by decide)).symm
  | code => exact (toUInt8_number (k := 1) (by decide)).symm
  | checksum => exact (toUInt16_number (k := 2) (by decide)).symm

namespace Edit

def field : Edit → Field
  | type _ => .type
  | code _ => .code
  | checksum _ => .checksum

def stored : (e : Edit) → e.field.Value
  | type v => v
  | code v => v
  | checksum v => v

/-- A setter decides the bits of its field. -/
theorem decides (e : Edit) :
    Decides e.field.covers fun v => (edit e ⟨v⟩).raw := by
  cases e with
  | type v =>
    exact (Decides.set 0 (by decide) v).congr fun i => by simp only [field, Field.covers]; omega
  | code v =>
    exact (Decides.set 1 (by decide) v).congr fun i => by simp only [field, Field.covers]; omega
  | checksum v =>
    exact (Decides.setBe16 2 (by decide) v).congr fun i => by simp only [field, Field.covers]; omega

end Edit

theorem get_edit (e : Edit) (h : IcmpHeader) : get e.field (edit e h) = e.stored := by
  cases e with
  | type v => exact Vector.getElem_set_self _
  | code v => exact Vector.getElem_set_self _
  | checksum v => exact getBe16_setBe16 _ v

def format : Format where
  Carrier := IcmpHeader
  size := size
  read? := read?
  write := write
  Edit := Edit
  edit := edit
  Field := Field
  decEqField := inferInstance
  Value := Field.Value
  get := get
  covers := Field.covers
  decode := Field.decode
  target := Edit.field
  stored := Edit.stored

theorem regular : format.Regular :=
  .of_raw mk raw (fun _ => rfl) (fun _ => rfl) (fun _ => rfl) (fun _ => rfl) Edit.decides
    (fun _ _ _ => Field.covers_unique) get_eq_decode (fun f _ _ => f.decode_congr) get_edit

end IcmpHeader

namespace AdvertHeader

inductive Field where
  | hopLimit
  | managed
  | other
  | preference
  | lifetime
  | reachable
  | retransmit
  deriving DecidableEq, Repr

namespace Field

def Value : Field → Type
  | hopLimit => UInt8
  | managed | other => Bool
  | preference => RouterPreference
  | lifetime => UInt16
  | reachable | retransmit => UInt32

/-- A bit is reserved between the O flag and the preference, and three are behind it. -/
def covers : Field → Nat → Prop
  | hopLimit, i => i < 8
  | managed, i => i = 8
  | other, i => i = 9
  | preference, i => 11 ≤ i ∧ i < 13
  | lifetime, i => 16 ≤ i ∧ i < 32
  | reachable, i => 32 ≤ i ∧ i < 64
  | retransmit, i => 64 ≤ i ∧ i < 96

theorem covers_unique {f g : Field} {i : Nat} (hf : f.covers i) (hg : g.covers i) : f = g := by
  cases f <;> cases g <;> simp only [covers] at hf hg <;> first | rfl | omega

def decode : (f : Field) → (Nat → Bool) → f.Value
  | hopLimit, x => (number x 0 8).toUInt8
  | managed, x => x 8
  | other, x => x 9
  | preference, x =>
    if number x 11 2 = 1 then .high else if number x 11 2 = 3 then .low else .medium
  | lifetime, x => (number x 16 16).toUInt16
  | reachable, x => (number x 32 32).toUInt32
  | retransmit, x => (number x 64 32).toUInt32

theorem decode_congr (f : Field) {x y : Nat → Bool} (h : ∀ i, f.covers i → x i = y i) :
    f.decode x = f.decode y := by
  cases f with
  | hopLimit => exact congrArg Nat.toUInt8 (number_congr fun i _ h₂ => h i h₂)
  | managed => exact h 8 rfl
  | other => exact h 9 rfl
  | preference =>
    have hbits : number x 11 2 = number y 11 2 :=
      number_congr fun i h₁ h₂ => h i ⟨h₁, h₂⟩
    simp only [decode, hbits]
  | lifetime => exact congrArg Nat.toUInt16 (number_congr fun i h₁ h₂ => h i ⟨h₁, h₂⟩)
  | reachable => exact congrArg Nat.toUInt32 (number_congr fun i h₁ h₂ => h i ⟨h₁, h₂⟩)
  | retransmit => exact congrArg Nat.toUInt32 (number_congr fun i h₁ h₂ => h i ⟨h₁, h₂⟩)

end Field

def get : (f : Field) → AdvertHeader → f.Value
  | .hopLimit, h => h.hopLimit
  | .managed, h => h.managed
  | .other, h => h.other
  | .preference, h => h.preference
  | .lifetime, h => h.lifetime
  | .reachable, h => h.reachable
  | .retransmit, h => h.retransmit

/-- The preference by the number of its two bits. -/
theorem preference_eq_decode (h : AdvertHeader) :
    h.preference = Field.decode .preference (bit h.write) := by
  have hupper : bit h.write (8 * 1 + 3) = h.raw[1].toNat.testBit 4 :=
    bit_toList (by decide) (by decide)
  have hlower : bit h.write (8 * 1 + 4) = h.raw[1].toNat.testBit 3 :=
    bit_toList (by decide) (by decide)
  have hbits : number (bit h.write) 11 2 = ((h.raw[1] >>> 3) &&& 3).toNat := by
    rw [number_two, toNat_shiftRight_and, ← hupper, ← hlower]
  simp only [Field.decode, hbits, preference, ← UInt8.toNat_inj]
  rfl

theorem get_eq_decode (f : Field) (h : AdvertHeader) : get f h = f.decode (bit h.write) := by
  cases f with
  | hopLimit => exact (toUInt8_number (k := 0) (by decide)).symm
  | managed => exact hasFlag_eq_bit (k := 1) (j := 0) (by decide) (by decide) rfl
  | other => exact hasFlag_eq_bit (k := 1) (j := 1) (by decide) (by decide) rfl
  | preference => exact preference_eq_decode h
  | lifetime => exact (toUInt16_number (k := 2) (by decide)).symm
  | reachable => exact (toUInt32_number (k := 4) (by decide)).symm
  | retransmit => exact (toUInt32_number (k := 8) (by decide)).symm

namespace Edit

def field : Edit → Field
  | hopLimit _ => .hopLimit
  | managed _ => .managed
  | other _ => .other
  | preference _ => .preference
  | lifetime _ => .lifetime
  | reachable _ => .reachable
  | retransmit _ => .retransmit

def stored : (e : Edit) → e.field.Value
  | hopLimit v => v
  | managed v => v
  | other v => v
  | preference v => v
  | lifetime v => v
  | reachable v => v
  | retransmit v => v

theorem decides (e : Edit) :
    Decides e.field.covers fun v => (edit e ⟨v⟩).raw := by
  cases e with
  | hopLimit v =>
    exact (Decides.set 0 (by decide) v).congr fun i => by simp only [field, Field.covers]; omega
  | managed v =>
    exact (Decides.flag (k := 1) (j := 0) (by decide) (by decide) rfl v).congr fun _ => Iff.rfl
  | other v =>
    exact (Decides.flag (k := 1) (j := 1) (by decide) (by decide) rfl v).congr fun _ => Iff.rfl
  | preference v =>
    cases v
    all_goals
      exact (Decides.flags (k := 1) (j := 3) (m := 4) (by decide) (by decide) (by decide) rfl rfl _
        _).congr fun i => by simp only [field, Field.covers]; omega
  | lifetime v =>
    exact (Decides.setBe16 2 (by decide) v).congr fun i => by simp only [field, Field.covers]; omega
  | reachable v =>
    exact (Decides.setBe32 4 (by decide) v).congr fun i => by simp only [field, Field.covers]; omega
  | retransmit v =>
    exact (Decides.setBe32 8 (by decide) v).congr fun i => by simp only [field, Field.covers]; omega

end Edit

theorem preference_setPreference (v : RouterPreference) (h : AdvertHeader) :
    (setPreference v h).preference = v := by
  have hbits (upper lower : Bool) (o : UInt8) :
      (((withFlag lower 0x08 (withFlag upper 0x10 o)) >>> 3) &&& 3).toNat =
        2 * upper.toNat + lower.toNat := by
    have hupper : (0x10 : UInt8).toNat = 2 ^ 4 := rfl
    have hlower : (0x08 : UInt8).toNat = 2 ^ 3 := rfl
    rw [toNat_shiftRight_and, testBit_withFlag hlower _ _ (by decide),
      testBit_withFlag hlower _ _ (by decide), testBit_withFlag hupper _ _ (by decide), if_pos rfl,
      if_pos rfl, if_neg (by decide)]
  unfold preference
  simp only [← UInt8.toNat_inj]
  cases v
  all_goals
    simp only [setPreference, Vector.getElem_set_self, hbits]
    rfl

theorem get_edit (e : Edit) (h : AdvertHeader) : get e.field (edit e h) = e.stored := by
  cases e with
  | hopLimit v => exact Vector.getElem_set_self _
  | managed v => exact hasFlag_set_withFlag _ (m := 7) rfl v
  | other v => exact hasFlag_set_withFlag _ (m := 6) rfl v
  | preference v => exact preference_setPreference v h
  | lifetime v => exact getBe16_setBe16 _ v
  | reachable v => exact getBe32_setBe32 _ v
  | retransmit v => exact getBe32_setBe32 _ v

def format : Format where
  Carrier := AdvertHeader
  size := size
  read? := read?
  write := write
  Edit := Edit
  edit := edit
  Field := Field
  decEqField := inferInstance
  Value := Field.Value
  get := get
  covers := Field.covers
  decode := Field.decode
  target := Edit.field
  stored := Edit.stored

theorem regular : format.Regular :=
  .of_raw mk raw (fun _ => rfl) (fun _ => rfl) (fun _ => rfl) (fun _ => rfl) Edit.decides
    (fun _ _ _ => Field.covers_unique) get_eq_decode (fun f _ _ => f.decode_congr) get_edit

end AdvertHeader

namespace SourceLink

/-- No setter is for the type and the length. -/
inductive Field where
  | type
  | length
  | mac
  deriving DecidableEq, Repr

namespace Field

def Value : Field → Type
  | type | length => UInt8
  | mac => Mac

def covers : Field → Nat → Prop
  | type, i => i < 8
  | length, i => 8 ≤ i ∧ i < 16
  | mac, i => 16 ≤ i ∧ i < 64

theorem covers_unique {f g : Field} {i : Nat} (hf : f.covers i) (hg : g.covers i) : f = g := by
  cases f <;> cases g <;> simp only [covers] at hf hg <;> first | rfl | omega

def decode : (f : Field) → (Nat → Bool) → f.Value
  | type, x => (number x 0 8).toUInt8
  | length, x => (number x 8 8).toUInt8 * 8
  | mac, x => ⟨Vector.ofFn fun i => (number x (8 * (i.val + 2)) 8).toUInt8⟩

theorem decode_congr (f : Field) {x y : Nat → Bool} (h : ∀ i, f.covers i → x i = y i) :
    f.decode x = f.decode y := by
  cases f with
  | type => exact congrArg Nat.toUInt8 (number_congr fun i _ h₂ => h i h₂)
  | length =>
    exact congrArg (Nat.toUInt8 · * 8) (number_congr fun i h₁ h₂ => h i ⟨h₁, h₂⟩)
  | mac =>
    refine congrArg (Mac.mk <| Vector.ofFn ·) (funext fun k => congrArg Nat.toUInt8 ?_)
    exact number_congr fun i h₁ h₂ => h i ⟨by omega, by omega⟩

end Field

def get : (f : Field) → SourceLink → f.Value
  | .type, o => o.type
  | .length, o => o.length
  | .mac, o => o.mac

theorem get_eq_decode (f : Field) (o : SourceLink) : get f o = f.decode (bit o.write) := by
  cases f with
  | type => exact (toUInt8_number (k := 0) (by decide)).symm
  | length => exact congrArg (· * 8) (toUInt8_number (k := 1) (by decide)).symm
  | mac =>
    exact congrArg (Mac.mk <| Vector.ofFn ·) (funext fun k => (toUInt8_number (by omega)).symm)

namespace Edit

def field : Edit → Field
  | mac _ => .mac

def stored : (e : Edit) → e.field.Value
  | mac m => m

theorem decides (e : Edit) :
    Decides e.field.covers fun v => (edit e ⟨v⟩).raw := by
  cases e with
  | mac m =>
    have h : Decides (fun i => 2 ≤ i / 8 ∧ i / 8 < 8) fun v => (setMac m ⟨v⟩).raw := by
      refine Decides.octets (p := fun k => 2 ≤ k ∧ k < 8) (fun v v' k hk h => ?_) fun v k hk h => ?_
      · simp [setMac, h.1]
      · simp [setMac, show ¬2 ≤ k from fun h' => h ⟨h', hk⟩]
    exact h.congr fun i => by simp only [field, Field.covers]; omega

end Edit

theorem get_edit (e : Edit) (o : SourceLink) : get e.field (edit e o) = e.stored := by
  cases e with
  | mac m => exact mac_setMac m o

def format : Format where
  Carrier := SourceLink
  size := size
  read? := read?
  write := write
  Edit := Edit
  edit := edit
  Field := Field
  decEqField := inferInstance
  Value := Field.Value
  get := get
  covers := Field.covers
  decode := Field.decode
  target := Edit.field
  stored := Edit.stored

theorem regular : format.Regular :=
  .of_raw mk raw (fun _ => rfl) (fun _ => rfl) (fun _ => rfl) (fun _ => rfl) Edit.decides
    (fun _ _ _ => Field.covers_unique) get_eq_decode (fun f _ _ => f.decode_congr) get_edit

end SourceLink

namespace PrefixInfo

/-- The address and the length of the prefix are set together. No setter is for the type and the
length of the option. -/
inductive Field where
  | type
  | length
  | network
  | onLink
  | autonomous
  | validLifetime
  | preferredLifetime
  deriving DecidableEq, Repr

namespace Field

def Value : Field → Type
  | type | length => UInt8
  | network => Address × UInt8
  | onLink | autonomous => Bool
  | validLifetime | preferredLifetime => UInt32

/-- Six bits are reserved behind the flags, and four octets in front of the address. -/
def covers : Field → Nat → Prop
  | type, i => i < 8
  | length, i => 8 ≤ i ∧ i < 16
  | network, i => 16 ≤ i ∧ i < 24 ∨ 128 ≤ i ∧ i < 256
  | onLink, i => i = 24
  | autonomous, i => i = 25
  | validLifetime, i => 32 ≤ i ∧ i < 64
  | preferredLifetime, i => 64 ≤ i ∧ i < 96

theorem covers_unique {f g : Field} {i : Nat} (hf : f.covers i) (hg : g.covers i) : f = g := by
  cases f <;> cases g <;> simp only [covers] at hf hg <;> first | rfl | omega

def decode : (f : Field) → (Nat → Bool) → f.Value
  | type, x => (number x 0 8).toUInt8
  | length, x => (number x 8 8).toUInt8 * 8
  | network, x =>
    (⟨Vector.ofFn fun i => (number x (8 * (i.val + 16)) 8).toUInt8⟩, (number x 16 8).toUInt8)
  | onLink, x => x 24
  | autonomous, x => x 25
  | validLifetime, x => (number x 32 32).toUInt32
  | preferredLifetime, x => (number x 64 32).toUInt32

theorem decode_congr (f : Field) {x y : Nat → Bool} (h : ∀ i, f.covers i → x i = y i) :
    f.decode x = f.decode y := by
  cases f with
  | type => exact congrArg Nat.toUInt8 (number_congr fun i _ h₂ => h i h₂)
  | length =>
    exact congrArg (Nat.toUInt8 · * 8) (number_congr fun i h₁ h₂ => h i ⟨h₁, h₂⟩)
  | network =>
    refine Prod.ext ?_ (congrArg Nat.toUInt8 (number_congr fun i h₁ h₂ => h i (.inl ⟨h₁, h₂⟩)))
    refine congrArg (Address.mk <| Vector.ofFn ·) (funext fun k => congrArg Nat.toUInt8 ?_)
    exact number_congr fun i h₁ h₂ => h i (.inr ⟨by omega, by omega⟩)
  | onLink => exact h 24 rfl
  | autonomous => exact h 25 rfl
  | validLifetime =>
    exact congrArg Nat.toUInt32 (number_congr fun i h₁ h₂ => h i ⟨h₁, h₂⟩)
  | preferredLifetime =>
    exact congrArg Nat.toUInt32 (number_congr fun i h₁ h₂ => h i ⟨h₁, h₂⟩)

end Field

def get : (f : Field) → PrefixInfo → f.Value
  | .type, o => o.type
  | .length, o => o.length
  | .network, o => (o.address, o.prefixLength)
  | .onLink, o => o.onLink
  | .autonomous, o => o.autonomous
  | .validLifetime, o => o.validLifetime
  | .preferredLifetime, o => o.preferredLifetime

theorem get_eq_decode (f : Field) (o : PrefixInfo) : get f o = f.decode (bit o.write) := by
  cases f with
  | type => exact (toUInt8_number (k := 0) (by decide)).symm
  | length => exact congrArg (· * 8) (toUInt8_number (k := 1) (by decide)).symm
  | network =>
    refine Prod.ext ?address (toUInt8_number (k := 2) (by decide)).symm
    exact congrArg (Address.mk <| Vector.ofFn ·) (funext fun k => (toUInt8_number (by omega)).symm)
  | onLink => exact hasFlag_eq_bit (k := 3) (j := 0) (by decide) (by decide) rfl
  | autonomous => exact hasFlag_eq_bit (k := 3) (j := 1) (by decide) (by decide) rfl
  | validLifetime => exact (toUInt32_number (k := 4) (by decide)).symm
  | preferredLifetime => exact (toUInt32_number (k := 8) (by decide)).symm

namespace Edit

def field : Edit → Field
  | onLink _ => .onLink
  | autonomous _ => .autonomous
  | validLifetime _ => .validLifetime
  | preferredLifetime _ => .preferredLifetime
  | network _ _ => .network

/-- Of a prefix, the host bits are cleared and the length is capped. -/
def stored : (e : Edit) → e.field.Value
  | onLink v => v
  | autonomous v => v
  | validLifetime v => v
  | preferredLifetime v => v
  | network a l => (networkPart (cappedLength l).toNat a, cappedLength l)

theorem decides (e : Edit) :
    Decides e.field.covers fun v => (edit e ⟨v⟩).raw := by
  cases e with
  | onLink v =>
    exact (Decides.flag (k := 3) (j := 0) (by decide) (by decide) rfl v).congr fun _ => Iff.rfl
  | autonomous v =>
    exact (Decides.flag (k := 3) (j := 1) (by decide) (by decide) rfl v).congr fun _ => Iff.rfl
  | validLifetime v =>
    exact (Decides.setBe32 4 (by decide) v).congr fun i => by simp only [field, Field.covers]; omega
  | preferredLifetime v =>
    exact (Decides.setBe32 8 (by decide) v).congr fun i => by simp only [field, Field.covers]; omega
  | network a l =>
    have h : Decides (fun i => i / 8 = 2 ∨ 16 ≤ i / 8 ∧ i / 8 < 32)
        fun v => (setPrefix a l ⟨v⟩).raw := by
      refine Decides.octets (p := fun k => k = 2 ∨ 16 ≤ k ∧ k < 32) (fun v v' k hk h => ?_)
        fun v k hk h => ?_
      · obtain rfl | ⟨h, -⟩ := h
        · simp [setPrefix_eq, store]
        · simp [setPrefix_eq, store, h]
      · obtain ⟨h₁, h₂⟩ := not_or.mp h
        simp [setPrefix_eq, store, h₁, show ¬16 ≤ k from fun h => h₂ ⟨h, hk⟩]
    exact h.congr fun i => by simp only [field, Field.covers]; omega

end Edit

theorem address_setPrefix (a : Address) (l : UInt8) (o : PrefixInfo) :
    (setPrefix a l o).address = networkPart (cappedLength l).toNat a := by
  refine congrArg Address.mk (Vector.ext fun i hi => ?_)
  simp only [setPrefix_eq, store, Vector.getElem_ofFn]
  rw [dif_pos (by omega)]
  rfl

theorem prefixLength_setPrefix (a : Address) (l : UInt8) (o : PrefixInfo) :
    (setPrefix a l o).prefixLength = cappedLength l := by
  simp [setPrefix_eq, store, prefixLength]

theorem get_edit (e : Edit) (o : PrefixInfo) : get e.field (edit e o) = e.stored := by
  cases e with
  | onLink v => exact hasFlag_set_withFlag _ (m := 7) rfl v
  | autonomous v => exact hasFlag_set_withFlag _ (m := 6) rfl v
  | validLifetime v => exact getBe32_setBe32 _ v
  | preferredLifetime v => exact getBe32_setBe32 _ v
  | network a l => exact Prod.ext (address_setPrefix a l o) (prefixLength_setPrefix a l o)

def format : Format where
  Carrier := PrefixInfo
  size := size
  read? := read?
  write := write
  Edit := Edit
  edit := edit
  Field := Field
  decEqField := inferInstance
  Value := Field.Value
  get := get
  covers := Field.covers
  decode := Field.decode
  target := Edit.field
  stored := Edit.stored

theorem regular : format.Regular :=
  .of_raw mk raw (fun _ => rfl) (fun _ => rfl) (fun _ => rfl) (fun _ => rfl) Edit.decides
    (fun _ _ _ => Field.covers_unique) get_eq_decode (fun f _ _ => f.decode_congr) get_edit

end PrefixInfo

/-- The wire objects that have fields. -/
inductive Object where
  | icmp
  | advert
  | sourceLink
  | prefixInfo
  deriving DecidableEq, Repr

namespace Object

def format : Object → Format
  | icmp => IcmpHeader.format
  | advert => AdvertHeader.format
  | sourceLink => SourceLink.format
  | prefixInfo => PrefixInfo.format

theorem regular (k : Object) : k.format.Regular := by
  cases k with
  | icmp => exact IcmpHeader.regular
  | advert => exact AdvertHeader.regular
  | sourceLink => exact SourceLink.regular
  | prefixInfo => exact PrefixInfo.regular

/-- Getters, setters and reads of all objects keep the laws. What a prefix is stored as has the
first bits of the address, at most 128 of them, and zeros behind; the reserved preference reads as
medium. -/
theorem fields_lawful :
    (∀ k : Object, k.format.Lawful) ∧
    (∀ (a : Address) (l : UInt8) (o : PrefixInfo),
      (PrefixInfo.setPrefix a l o).prefixLength.toNat = min l.toNat 128 ∧
      ∀ i < 128, (PrefixInfo.setPrefix a l o).address.bit i = (decide (i < l.toNat) && a.bit i)) ∧
    ∀ h : AdvertHeader, number (bit h.write) 11 2 = 2 → h.preference = .medium := by
  refine ⟨fun k => k.regular.lawful, fun a l o => ⟨?_, fun i hi => ?_⟩, fun h hp => ?_⟩
  · rw [PrefixInfo.prefixLength_setPrefix, PrefixInfo.toNat_cappedLength]
  · have hlt : i < min l.toNat 128 ↔ i < l.toNat := by omega
    rw [PrefixInfo.address_setPrefix, PrefixInfo.bit_networkPart _ a hi,
      PrefixInfo.toNat_cappedLength, decide_eq_decide.mpr hlt]
  · rw [AdvertHeader.preference_eq_decode, AdvertHeader.Field.decode, hp]
    rfl

/-- The preference is set between reserved bits, which stay. -/
example : (AdvertHeader.setPreference .medium ⟨Vector.replicate 12 0xff⟩).raw[1] = 0xe7 := by
  decide

end Object

end RouterAdvert.Ndp
