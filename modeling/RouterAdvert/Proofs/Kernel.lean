import RouterAdvert.Proofs.LinkLocal

/-! The sockets that a kernel has handed out. A dial that succeeds leaves one more open, one that
fails leaves as many as there were, and of the calls on a connection only its closing matters. -/
namespace RouterAdvert.Kernel

open LinkLocal

/-- Whether two kernels have handed out the same sockets. -/
def SameSockets (k k' : Kernel) : Prop :=
  k'.openIcmp = k.openIcmp ∧ k'.nextIcmp = k.nextIcmp

/-- The open sockets are those that are held, no two of them are the same, and the next one will be
different from all. -/
structure Accounts (held : List Nat) (k : Kernel) : Prop where
  sockets : k.openIcmp.Perm held
  distinct : k.openIcmp.Nodup
  numbered : ∀ n ∈ k.openIcmp, n < k.nextIcmp

variable {k k' : Kernel} {l : Link} {held : List Nat}

namespace Accounts

theorem same (h : k.Accounts held) (hs : SameSockets k k') : k'.Accounts held := by
  obtain ⟨ho, hn⟩ := hs
  refine ⟨?_, ?_, ?_⟩
  · rw [ho]
    exact h.sockets
  · rw [ho]
    exact h.distinct
  · rw [ho, hn]
    exact h.numbered

theorem perm (h : k.Accounts held) {held' : List Nat} (hp : held.Perm held') :
    k.Accounts held' := ⟨h.sockets.trans hp, h.distinct, h.numbered⟩

theorem fresh (h : k.Accounts held) : k.nextIcmp ∉ k.openIcmp := fun hm =>
  Nat.lt_irrefl _ (h.numbered _ hm)

end Accounts

/-- Whether a call neither opens a socket nor closes it. -/
def isPlain : SocketCall → Bool
  | .open _ | .close => false
  | _ => true

theorem foldl_afterUse {uses : List SocketUse} (h : ∀ u ∈ uses, isPlain u.call = true) (n : Nat)
    (sockets : List Nat) : uses.foldl (afterUse n) sockets = sockets := by
  induction uses with
  | nil => rfl
  | cons u rest ih =>
    obtain ⟨hu, hr⟩ := List.forall_mem_cons.mp h
    have hs : afterUse n sockets u = sockets := by
      unfold afterUse
      split <;> simp_all [isPlain]
    rw [List.foldl_cons, hs]
    exact ih hr

/-- Once a socket has been opened it stays open, whatever fails after that. -/
theorem sockets_attempt (faults : Faults) (index : Int32) (source : ScopedAddress) (n : Nat)
    (sockets : List Nat) :
    (attempt faults (setUp index source)).1.foldl (afterUse n) sockets =
      if faults.error? .icmpOpen = none then sockets ++ [n] else sockets := by
  have hsplit : setUp index source =
      (.icmpOpen, .open icmpProtocol) :: (setUp index source).tail := rfl
  rw [hsplit]
  simp only [attempt]
  cases ho : faults.error? .icmpOpen with
  | some e =>
    have hn : faults.errno .icmpOpen ≠ 0 := fun hz => by simp [Faults.error?, hz,
      ErrorCode.ofErrno?] at ho
    simp [afterUse, hn]
  | none =>
    have hrest : ∀ u ∈ (attempt faults (setUp index source).tail).1, isPlain u.call = true := by
      intro u hu
      obtain ⟨x, hx, hc⟩ := call_of_mem_attempt hu
      rw [hc]
      revert x
      simp [setUp, isPlain]
    simp [afterUse, Faults.errno_eq_zero ho, foldl_afterUse hrest]

/-- Whether a dial on link `l` can succeed, from address `a`. -/
structure Ready (l : Link) (a : Address) (k : Kernel) : Prop where
  calls : ∀ c ∈ LinkLocal.calls, k.faults.error? c = none
  first : IsFirst l.name k.addresses a

/-- The connection that such a dial gives. -/
def endpoint (l : Link) (a : Address) (k : Kernel) : Endpoint :=
  { number := k.nextIcmp, source := ⟨a, scope l.index⟩ }

theorem dialing_of_ready {a : Address} (h : k.Ready l a) :
    k.dialing l =
      { outcome := .ok (k.endpoint l a)
        uses := (setUp l.index (k.endpoint l a).source).map fun x => ⟨x.2, 0⟩ } := by
  obtain ⟨hl, hs⟩ := (forall_calls_iff l.index ⟨a, scope l.index⟩).mp h.calls
  have hd := dial_of_address hl h.first l.index k.nextIcmp
  rw [← error_attempt, attempt_succeeds hs] at hd
  exact hd

/-- Without an address or without a socket a dial fails at once; otherwise it fails later. -/
theorem dialing_of_not_ready (h : ∀ a, ¬k.Ready l a) :
    ∃ e, e.value ≠ 0 ∧ (k.dialing l).outcome = .error e ∧
      ((k.dialing l).uses.foldl (afterUse k.nextIcmp) k.openIcmp = k.openIcmp ∨
        (k.dialing l).uses.foldl (afterUse k.nextIcmp) k.openIcmp =
          k.openIcmp ++ [k.nextIcmp]) := by
  by_cases hx : k.faults.error? .listAddresses = none ∧ ∃ a, IsFirst l.name k.addresses a
  · obtain ⟨hl, a, ha⟩ := hx
    have hd : k.dialing l = _ := dial_of_address hl ha l.index k.nextIcmp
    cases hf : (setUp l.index ⟨a, scope l.index⟩).findSome? fun x => k.faults.error? x.1 with
    | none =>
      have hs := List.findSome?_eq_none_iff.mp hf
      exact absurd ⟨(forall_calls_iff l.index _).mpr ⟨hl, hs⟩, ha⟩ (h a)
    | some e =>
      obtain ⟨x, -, he⟩ := List.exists_of_findSome?_eq_some hf
      refine ⟨e, Faults.value_ne_zero he, by simp only [hd, hf], ?_⟩
      simp only [hd, sockets_attempt]
      split
      · exact Or.inr rfl
      · exact Or.inl rfl
  · have hn : k.faults.error? .listAddresses = none → ∀ a, ¬IsFirst l.name k.addresses a :=
      fun hl a ha => hx ⟨hl, a, ha⟩
    obtain ⟨e, he, hd⟩ := dial_of_no_address hn l.index k.nextIcmp
    have hd : k.dialing l = { outcome := .error e } := hd
    exact ⟨e, he, by rw [hd], Or.inl (by rw [hd]; rfl)⟩

theorem dialing_eq_ok_iff {d : Endpoint} :
    (k.dialing l).outcome = .ok d ↔ ∃ a, k.Ready l a ∧ d = k.endpoint l a := by
  constructor
  · intro h
    by_cases hr : ∃ a, k.Ready l a
    · obtain ⟨a, ha⟩ := hr
      rw [dialing_of_ready ha] at h
      exact ⟨a, ha, (Except.ok.inj h).symm⟩
    · obtain ⟨e, -, he, -⟩ := dialing_of_not_ready (not_exists.mp hr)
      cases he.symm.trans h
  · rintro ⟨a, ha, rfl⟩
    rw [dialing_of_ready ha]

/-- A dial that succeeds leaves one more socket open. -/
theorem afterDial_of_ready {a : Address} (h : k.Ready l a) :
    (k.afterDial l).openIcmp = k.openIcmp ++ [k.nextIcmp] ∧
      (k.afterDial l).nextIcmp = k.nextIcmp + 1 := by
  have hplain : ∀ u ∈ (setUp l.index (k.endpoint l a).source).tail.map
      fun x => (⟨x.2, 0⟩ : SocketUse), isPlain u.call = true := by
    simp [setUp, isPlain]
  have hfold := foldl_afterUse hplain k.nextIcmp (k.openIcmp ++ [k.nextIcmp])
  unfold afterDial
  rw [dialing_of_ready h]
  exact ⟨hfold, rfl⟩

/-- One that fails leaves none. -/
theorem afterDial_of_not_ready (h : ∀ a, ¬k.Ready l a) (hn : k.nextIcmp ∉ k.openIcmp) :
    (k.afterDial l).openIcmp = k.openIcmp ∧ k.nextIcmp ≤ (k.afterDial l).nextIcmp := by
  obtain ⟨e, -, he, hu⟩ := dialing_of_not_ready h
  have hb : (k.dialing l).outcome.toBool = false := by
    rw [he]
    rfl
  unfold afterDial
  dsimp only
  split
  · exact ⟨rfl, Nat.le_refl _⟩
  · refine ⟨?_, Nat.le_succ _⟩
    rw [hb, if_neg Bool.false_ne_true]
    rcases hu with hu | hu
    · rw [hu, List.erase_of_not_mem hn]
    · rw [hu, List.erase_append_right _ hn, List.erase_cons_head, List.append_nil]

theorem sameSockets_afterCall {c : Connection} {call : ConnectionCall} (h : call ≠ .close) :
    SameSockets k (k.afterCall c call) := by
  refine ⟨foldl_afterUse ?_ _ _, rfl⟩
  cases call <;> simp_all [uses, use?, isPlain]

namespace Accounts

theorem dial_of_ready {a : Address} (h : k.Accounts held) (hr : k.Ready l a) :
    (k.afterDial l).Accounts (k.nextIcmp :: held) := by
  obtain ⟨ho, hn⟩ := afterDial_of_ready hr
  refine ⟨?_, ?_, ?_⟩
  · rw [ho]
    exact List.perm_append_comm.trans (h.sockets.cons _)
  · rw [ho, List.nodup_append]
    refine ⟨h.distinct, by simp, fun x hx y hy hxy => ?_⟩
    obtain rfl := List.mem_singleton.mp hy
    exact h.fresh (hxy ▸ hx)
  · rw [ho, hn]
    intro n hm
    rcases List.mem_append.mp hm with hm | hm
    · exact Nat.lt_succ_of_lt (h.numbered n hm)
    · rw [List.mem_singleton.mp hm]
      exact Nat.lt_succ_self _

theorem dial_of_not_ready (h : k.Accounts held) (hr : ∀ a, ¬k.Ready l a) :
    (k.afterDial l).Accounts held := by
  obtain ⟨ho, hn⟩ := afterDial_of_not_ready hr h.fresh
  refine ⟨?_, ?_, fun n hm => Nat.lt_of_lt_of_le (h.numbered n ?_) hn⟩
  · rw [ho]
    exact h.sockets
  · rw [ho]
    exact h.distinct
  · rwa [ho] at hm

/-- Closing a connection whose socket is held. -/
theorem close {c : Connection} (h : k.Accounts (c.number :: held)) :
    (k.afterCall c .close).Accounts held := by
  refine ⟨?_, h.distinct.erase _, fun n hm => h.numbered n (List.mem_of_mem_erase hm)⟩
  have hp := h.sockets.erase c.number
  rwa [List.erase_cons_head] at hp

end Accounts

/-- Dialing on link `l` as it should be, as far as an advertiser sees it, and in the account of the
sockets. -/
structure DialsCleanly (l : Link) (k : Kernel) : Prop where
  connects : (∃ d, (Medium.conditions l k).dial = .ok d) ↔
    (∀ c ∈ LinkLocal.calls, k.faults.error? c = none) ∧ ∃ a, IsFirst l.name k.addresses a
  /-- The last call binds the socket. -/
  bound : ∀ d, (Medium.conditions l k).dial = .ok d →
    (∃ a, IsFirst l.name k.addresses a ∧ d.source = ⟨a, scope l.index⟩) ∧
      (∃ before, (Medium.dial l k).1 =
        before ++ [.socket .icmp d.number ⟨.bindAddress d.source, 0⟩]) ∧
      (Medium.dial l k).2.openIcmp = k.openIcmp ++ [d.number]
  fails : ∀ e, (Medium.conditions l k).dial = .error e →
    e.value ≠ 0 ∧ (Medium.dial l k).2.openIcmp = k.openIcmp

theorem Accounts.dialsCleanly (h : k.Accounts held) (l : Link) : k.DialsCleanly l where
  connects := by
    constructor
    · rintro ⟨d, hd⟩
      obtain ⟨a, ha, -⟩ := dialing_eq_ok_iff.mp hd
      exact ⟨ha.calls, a, ha.first⟩
    · rintro ⟨hc, a, ha⟩
      exact ⟨_, dialing_eq_ok_iff.mpr ⟨a, ⟨hc, ha⟩, rfl⟩⟩
  bound d hd := by
    obtain ⟨a, ha, rfl⟩ := dialing_eq_ok_iff.mp hd
    refine ⟨⟨a, ha.first, rfl⟩, ?_, (afterDial_of_ready ha).1⟩
    have hu : (Medium.dial l k).1 = (k.dialing l).uses.map (.socket .icmp k.nextIcmp) := rfl
    rw [hu, dialing_of_ready ha]
    exact ⟨(((setUp l.index (k.endpoint l a).source).dropLast.map fun x => ⟨x.2, 0⟩).map
      (.socket .icmp k.nextIcmp)), rfl⟩
  fails e he := by
    have hr : ∀ a, ¬k.Ready l a := fun a ha => by
      cases he.symm.trans (dialing_eq_ok_iff.mpr ⟨a, ha, rfl⟩ : (k.dialing l).outcome = _)
    obtain ⟨x, hx, hd, -⟩ := dialing_of_not_ready hr
    obtain rfl : x = e := Except.error.inj (hd.symm.trans he)
    exact ⟨hx, (afterDial_of_not_ready hr h.fresh).1⟩

end RouterAdvert.Kernel
