import RouterAdvert.Kernel
import RouterAdvert.Proofs.Address

/-! Dialing on an interface. A connection comes of it exactly if a link-local address of the
interface is listed and no call fails; its socket is then bound to the first such address. A dial
that fails leaves no socket behind. -/
namespace RouterAdvert

/-- Whether an address lies in a network. -/
def Network.Covers (n : Network) (a : Address) : Prop := ∀ i < n.length, a.bit i = n.address.bit i

theorem Faults.value_ne_zero {f : Faults} {c : KernelCall} {e : ErrorCode}
    (h : f.error? c = some e) : e.value ≠ 0 := by
  unfold Faults.error? ErrorCode.ofErrno? at h
  split at h
  · cases h
  · rename_i hn
    obtain rfl := Option.some.inj h
    exact hn

theorem Faults.errno_eq_zero {f : Faults} {c : KernelCall} (h : f.error? c = none) :
    f.errno c = 0 := by
  unfold Faults.error? ErrorCode.ofErrno? at h
  split at h
  · assumption
  · cases h

namespace LinkLocal

/-- The network `fe80::/10`. -/
def network : Network := ⟨.ofBytes ([0xfe, 0x80] ++ List.replicate 14 0), 10, by decide⟩

/-- Of the second octet two bits count. -/
theorem mask_iff (x : UInt8) :
    x &&& 0xc0 = 0x80 ↔ x.toNat.testBit 7 = true ∧ x.toNat.testBit 6 = false := by
  have h : ∀ n : Fin 256, (UInt8.ofFin n &&& 0xc0 = 0x80) ↔
      (UInt8.ofFin n).toNat.testBit 7 = true ∧ (UInt8.ofFin n).toNat.testBit 6 = false := by
    decide +kernel
  exact h x.toFin

theorem isLinkLocal_iff {a : Address} : a.isLinkLocal = true ↔ network.Covers a := by
  have hbit (b : Address) {i : Nat} (hi : i < 8) : b.bit i = b.octets[0].toNat.testBit (7 - i) := by
    rw [Address.bit_eq_testBit (by omega)]
    simp only [Nat.div_eq_of_lt hi, Nat.mod_eq_of_lt hi]
  have hfirst : network.address.octets[0] = 0xfe := rfl
  have h8 : network.address.bit 8 = true := by decide
  have h9 : network.address.bit 9 = false := by decide
  have hsecond : a.octets[1] &&& 0xc0 = 0x80 ↔ a.bit 8 = true ∧ a.bit 9 = false := by
    rw [Address.bit_eq_testBit (by omega), Address.bit_eq_testBit (by omega)]
    exact mask_iff a.octets[1]
  simp only [Address.isLinkLocal, Bool.and_eq_true, decide_eq_true_eq, hsecond]
  constructor
  · rintro ⟨hf, h, h'⟩ i (hi : i < 10)
    by_cases hi8 : i < 8
    · rw [hbit a hi8, hbit _ hi8, hf, hfirst]
    · obtain rfl | rfl : i = 8 ∨ i = 9 := by omega
      · rw [h, h8]
      · rw [h', h9]
  · intro h
    refine ⟨?_, ?_, ?_⟩
    · rw [← hfirst]
      refine Address.octet_eq_of_testBit fun j hj => ?_
      have hb := h (7 - j) (show 7 - j < 10 by omega)
      have hj' : 7 - (7 - j) = j := by omega
      rwa [hbit a (by omega), hbit _ (by omega), hj'] at hb
    · rw [← h8]
      exact h 8 (by decide)
    · rw [← h9]
      exact h 9 (by decide)

/-- Whether an entry gives the link-local address `a` to the interface with some name. Names end at
their first zero byte. -/
structure Offers (name : Bytes) (a : Address) (x : InterfaceAddress) : Prop where
  name : Bytes.untilZero x.name = Bytes.untilZero name
  address : x.address = some a
  covers : network.Covers a

/-- Whether `a` is the first link-local address that is listed for the interface. -/
def IsFirst (name : Bytes) (addresses : List InterfaceAddress) (a : Address) : Prop :=
  ∃ before x after, addresses = before ++ x :: after ∧ Offers name a x ∧
    ∀ y ∈ before, ∀ b, ¬Offers name b y

theorem offers_iff {name : Bytes} {a : Address} {x : InterfaceAddress} :
    Offers name a x ↔ (if Bytes.untilZero x.name = Bytes.untilZero name then
      x.address.filter (·.isLinkLocal) else none) = some a := by
  constructor
  · rintro ⟨hn, ha, hc⟩
    rw [if_pos hn, ha, Option.filter_some, if_pos (isLinkLocal_iff.mpr hc)]
  · intro h
    split at h
    · rename_i hn
      obtain ⟨ha, hl⟩ := Option.filter_eq_some_iff.mp h
      exact ⟨hn, ha, isLinkLocal_iff.mp hl⟩
    · cases h

theorem find?_eq_some_iff {name : Bytes} {addresses : List InterfaceAddress} {a : Address} :
    find? name addresses = some a ↔ IsFirst name addresses a := by
  unfold find? IsFirst
  simp only [List.findSome?_eq_some_iff, offers_iff, Option.eq_none_iff_forall_ne_some, ne_eq]

section Attempts

variable {faults : Faults} {calls : List (KernelCall × SocketCall)}

theorem attempt_succeeds (h : ∀ x ∈ calls, faults.error? x.1 = none) :
    attempt faults calls = (calls.map fun x => ⟨x.2, 0⟩, none) := by
  induction calls with
  | nil => rfl
  | cons x rest ih =>
    obtain ⟨hx, hr⟩ := List.forall_mem_cons.mp h
    simp only [attempt, hx, ih hr, Faults.errno_eq_zero hx, List.map_cons]

theorem error_attempt : (attempt faults calls).2 = calls.findSome? fun x => faults.error? x.1 := by
  induction calls with
  | nil => rfl
  | cons x rest ih =>
    simp only [attempt, List.findSome?_cons]
    cases hx : faults.error? x.1 with
    | some y => rfl
    | none => exact ih

/-- Nothing is done but what was to be done. -/
theorem call_of_mem_attempt {u : SocketUse} (h : u ∈ (attempt faults calls).1) :
    ∃ x ∈ calls, u.call = x.2 := by
  induction calls with
  | nil => cases h
  | cons x rest ih =>
    simp only [attempt] at h
    cases hx : faults.error? x.1 with
    | some y =>
      rw [hx] at h
      obtain rfl := List.mem_singleton.mp h
      exact ⟨x, List.mem_cons_self, rfl⟩
    | none =>
      rw [hx] at h
      rcases List.mem_cons.mp h with rfl | h
      · exact ⟨x, List.mem_cons_self, rfl⟩
      · obtain ⟨z, hz, he⟩ := ih h
        exact ⟨z, List.mem_cons_of_mem x hz, he⟩

end Attempts

/-- The kernel calls that a dial makes, each of which can fail. -/
def calls : List KernelCall :=
  [.listAddresses, .icmpOpen, .outboundInterface, .multicastHops, .unicastHops, .loopback,
    .icmpBind]

/-- After the addresses have been listed, a dial makes the calls on its socket. -/
theorem forall_calls_iff {P : KernelCall → Prop} (index : Int32) (source : ScopedAddress) :
    (∀ c ∈ calls, P c) ↔ P .listAddresses ∧ ∀ x ∈ setUp index source, P x.1 := by
  have hcalls : calls = .listAddresses :: (setUp index source).map (·.1) := rfl
  rw [hcalls, List.forall_mem_cons, List.forall_mem_map]

variable {faults : Faults} {addresses : List InterfaceAddress} {name : Bytes}

/-- What is done in the course of a dial: nothing without an address to dial from, and else the
calls on a socket, up to the first that fails. -/
theorem dial_of_address {a : Address} (hl : faults.error? .listAddresses = none)
    (ha : IsFirst name addresses a) (index : Int32) (number : Nat) :
    dial faults addresses name index number =
      { outcome := match (setUp index ⟨a, scope index⟩).findSome? fun x => faults.error? x.1 with
          | some e => .error e
          | none => .ok { number := number, source := ⟨a, scope index⟩ }
        uses := (attempt faults (setUp index ⟨a, scope index⟩)).1 } := by
  have hf : find faults name addresses = .ok a := by
    simp only [find, hl, find?_eq_some_iff.mpr ha]
  simp only [dial, hf, ← error_attempt]
  cases attempt faults (setUp index ⟨a, scope index⟩) with
  | mk uses e => cases e <;> rfl

theorem dial_of_no_address
    (h : faults.error? .listAddresses = none → ∀ a, ¬IsFirst name addresses a) (index : Int32)
    (number : Nat) :
    ∃ e, e.value ≠ 0 ∧ dial faults addresses name index number = { outcome := .error e } := by
  cases hl : faults.error? .listAddresses with
  | some e => exact ⟨e, Faults.value_ne_zero hl, by simp only [dial, find, hl]⟩
  | none =>
    have hn : find? name addresses = none :=
      Option.eq_none_iff_forall_ne_some.mpr fun a ha => h hl a (find?_eq_some_iff.mp ha)
    exact ⟨⟨.generic, Errno.addressNotAvailable⟩, by decide, by simp only [dial, find, hl, hn]⟩

end LinkLocal

end RouterAdvert
