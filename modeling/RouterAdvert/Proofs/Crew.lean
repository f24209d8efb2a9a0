import RouterAdvert.Proofs.Advertiser.Sockets

/-! Any number of advertisers on one kernel. They take their turns in any order and as often as they
have something to handle; in between, anything can happen around them, and the kernel can change
its addresses and begin or cease to refuse calls. Through all of this the open sockets are those of
the active advertisers. -/
namespace RouterAdvert

open Advertiser

structure Crew where
  now : Nat
  kernel : Kernel
  members : List Advertiser := []
  journal : Journal := {}

namespace Crew

/-- The journal and the kernel after the acts of a member. -/
def perform (stamp : Stamp) (a : Advertiser) (acts : List Effect) (c : Crew) : Journal × Kernel :=
  acts.foldl (fun s e => e.perform stamp a s) (c.journal, c.kernel)

/-- After the turn of a member that stands between the others. -/
def follow (stamp : Stamp) (before : List Advertiser) (t : Turn) (after : List Advertiser)
    (c : Crew) : Crew :=
  let (journal, kernel) := c.perform stamp t.state t.effects
  { c with kernel := kernel, members := before ++ t.state :: after, journal := journal }

/-- What can happen next. -/
inductive Step (c : Crew) : Crew → Prop
  | pass (delay : Nat) : Step c { c with now := c.now + delay }
  /-- The kernel lists other addresses, or lets other calls fail. A turn makes each of them once at
  most, so that changes between turns are enough. -/
  | change {k : Kernel} (h : c.kernel.SameSockets k) : Step c { c with kernel := k }
  | join (p : Profile) : Step c { c with members := c.members ++ [{ profile := p }] }
  | stir (before after : List Advertiser) {a b : Advertiser}
    (hm : c.members = before ++ a :: after) (h : Stir c.now a b) :
    Step c { c with members := before ++ b :: after }
  | turn (before after : List Advertiser) {a : Advertiser} {t : Turn} (stamp : Stamp)
    (holdSends : Bool) (hm : c.members = before ++ a :: after)
    (h : a.step? c.now (c.kernel.answers a.profile.link holdSends) = some t) :
    Step c (c.follow stamp before t after)

/-- What can come of a kernel that has not handed out any sockets. -/
inductive Reachable : Crew → Prop
  | new (now : Nat) {k : Kernel} (h : k.openIcmp = []) : Reachable { now := now, kernel := k }
  | step {c c' : Crew} (h : Reachable c) (s : Step c c') : Reachable c'

/-- The sockets that members hold. -/
def sockets (members : List Advertiser) : List Nat := members.filterMap (·.socket?)

theorem sockets_perm (before : List Advertiser) (a : Advertiser) (after : List Advertiser) :
    (sockets (before ++ a :: after)).Perm (a.socket?.toList ++ sockets (before ++ after)) := by
  refine (List.perm_middle.filterMap _).trans ?_
  rw [List.filterMap_cons]
  cases a.socket? <;> exact List.Perm.refl _

structure Invariant (c : Crew) : Prop where
  members : ∀ a ∈ c.members, Sound a ∧ a.Holds
  accounts : c.kernel.Accounts (sockets c.members)

variable {c c' : Crew}

namespace Invariant

theorem of_split (h : c.Invariant) {before after : List Advertiser} {a : Advertiser}
    (hm : c.members = before ++ a :: after) :
    Sound a ∧ a.Holds ∧ c.kernel.Accounts (a.socket?.toList ++ sockets (before ++ after)) := by
  have ha := h.members a (by simp [hm])
  have hk := h.accounts
  rw [hm] at hk
  exact ⟨ha.1, ha.2, hk.perm (sockets_perm before a after)⟩

/-- Another advertiser takes the place of a member, and its socket that of the other. -/
theorem replace (h : c.Invariant) {before after : List Advertiser} {a b : Advertiser}
    (hm : c.members = before ++ a :: after) (hs : Sound b) (hb : b.Holds) {k : Kernel}
    (hk : k.Accounts (b.socket?.toList ++ sockets (before ++ after))) (j : Journal) :
    Invariant { c with kernel := k, members := before ++ b :: after, journal := j } where
  members x hx := by
    have hothers (hx : x ∈ before ∨ x ∈ after) : Sound x ∧ x.Holds := by
      refine h.members x ?_
      rw [hm, List.mem_append, List.mem_cons]
      exact hx.imp_right Or.inr
    rcases List.mem_append.mp hx with hx | hx
    · exact hothers (Or.inl hx)
    · rcases List.mem_cons.mp hx with rfl | hx
      · exact ⟨hs, hb⟩
      · exact hothers (Or.inr hx)
  accounts := hk.perm (sockets_perm before b after).symm

theorem change (h : c.Invariant) {k : Kernel} (hk : c.kernel.SameSockets k) :
    Invariant { c with kernel := k } := ⟨h.members, h.accounts.same hk⟩

theorem join (h : c.Invariant) (p : Profile) :
    Invariant { c with members := c.members ++ [{ profile := p }] } where
  members a ha := by
    rcases List.mem_append.mp ha with ha | ha
    · exact h.members a ha
    · rw [List.mem_singleton.mp ha]
      exact ⟨.new p, by simp [Holds, socket?]⟩
  accounts := by
    have hnone : sockets (c.members ++ [{ profile := p }]) = sockets c.members ++ [] :=
      List.filterMap_append
    rw [hnone, List.append_nil]
    exact h.accounts

theorem stir (h : c.Invariant) {before after : List Advertiser} {a b : Advertiser} {now : Nat}
    (hm : c.members = before ++ a :: after) (hs : Stir now a b) :
    Invariant { c with members := before ++ b :: after } := by
  obtain ⟨ha, hh, hk⟩ := h.of_split hm
  rw [← hs.socket?] at hk
  exact h.replace hm (hs.sound ha) (hs.holds hh) hk _

theorem step (h : c.Invariant) (s : Step c c') : c'.Invariant := by
  cases s with
  | pass => exact ⟨h.members, h.accounts⟩
  | change hk => exact h.change hk
  | join p => exact h.join p
  | stir _ _ hm hs => exact h.stir hm hs
  | turn _ _ stamp holdSends hm ht =>
    obtain ⟨ha, hh, hk⟩ := h.of_split hm
    obtain ⟨hsound, hholds, hacc⟩ := accounts_of_turn ha hh hk ht
    rw [← Kernel.performAll_snd stamp _ _ (c.journal, c.kernel)] at hacc
    exact h.replace hm hsound hholds hacc _

end Invariant

theorem Reachable.invariant (h : Reachable c) : c.Invariant := by
  induction h with
  | new now hk =>
    refine ⟨by simp, ⟨?_, ?_, ?_⟩⟩ <;> simp [hk, sockets]
  | step _ s ih => exact ih.step s

/-- What is to be said of the sockets between two turns, and of the next turn. -/
structure Accounted (c : Crew) : Prop where
  holders : ∀ a ∈ c.members, a.socket?.isSome ↔ a.phase = .active
  distinct : c.kernel.openIcmp.Nodup
  /-- No socket is open that no member holds. -/
  sockets : c.kernel.openIcmp.Perm (c.members.filterMap (·.socket?))
  count : c.kernel.openIcmp.length = c.members.countP (·.phase = .active)
  dials : ∀ l, c.kernel.DialsCleanly l
  /-- When the starter of a member is told of its end, only the sockets of the others are open. -/
  exits : ∀ before a after holdSends t, c.members = before ++ a :: after →
    a.step? c.now (c.kernel.answers a.profile.link holdSends) = some t →
      ∀ stamp done x code later, t.effects = done ++ .exit x code :: later →
        (c.perform stamp t.state done).2.openIcmp.Perm ((before ++ after).filterMap (·.socket?))
  refusals : ∀ a ∈ c.members, ∀ holdSends t code,
    a.step? c.now (c.kernel.answers a.profile.link holdSends) = some t →
      a.FailsToActivate (c.kernel.answers a.profile.link holdSends) code →
        ∃ done x later, t.effects = done ++ .exit x code :: later ∧ .call .close none ∈ done

/-- Whatever happens, the open sockets are those of the active advertisers. -/
theorem Reachable.accounted (h : Reachable c) : c.Accounted where
  holders a ha := (h.invariant.members a ha).2
  distinct := h.invariant.accounts.distinct
  sockets := h.invariant.accounts.sockets
  count := by
    rw [h.invariant.accounts.sockets.length_eq, Crew.sockets, List.length_filterMap_eq_countP]
    refine List.countP_congr fun a ha => ?_
    rw [decide_eq_true_iff]
    exact (h.invariant.members a ha).2
  dials l := h.invariant.accounts.dialsCleanly l
  exits before a after holdSends t hm ht stamp done x code later hx := by
    obtain ⟨ha, hh, hk⟩ := h.invariant.of_split hm
    rw [perform, Kernel.performAll_snd]
    exact (accounts_of_exit ha hh hk ht hx).sockets
  refusals a ha holdSends t code ht hr := exit_of_refused (h.invariant.members a ha).1 ht hr

/-- A kernel that lists an address of one interface. -/
def tap5Kernel : Kernel :=
  { addresses := [⟨"tap5", some (.ofBytes ([0xfe, 0x80] ++ List.replicate 13 0 ++ [5]))⟩] }

/-- One that lists an address of another interface, too, but does not let anyone set a filter. -/
def strictKernel : Kernel :=
  { tap5Kernel with
    addresses := tap5Kernel.addresses ++
      [⟨"tap6", some (.ofBytes ([0xfe, 0x80] ++ List.replicate 13 0 ++ [6]))⟩]
    faults := Table.empty.insert .filter 1
    nextIcmp := 1
    openIcmp := [0] }

/-- The first advertiser is active; the second had no address to dial from at first, and then could
not use its connection. -/
theorem accounted_after_refusal : ∃ c : Crew, Reachable c ∧
    c.members.map (·.phase) = [.active, .closed] ∧ c.kernel.nextIcmp = 2 ∧
      c.kernel.openIcmp = [0] ∧ c.Accounted := by
  have joined := (Reachable.new 0 (k := tap5Kernel) rfl).step
    (.join ⟨{ index := 5, name := "tap5" }, [], 200, 5⟩) |>.step
    (.join ⟨{ index := 6, name := "tap6" }, [], 200, 5⟩)
  have started := (joined.step (.stir [] [_] rfl (.start (.numbered 1)))).step
    (.stir [_] [] rfl (.start (.numbered 2)))
  have dialed := (started.step (.turn [] [_] ⟨0, none⟩ false rfl rfl)).step
    (.turn [_] [] ⟨0, none⟩ false rfl rfl)
  have changed := (dialed.step (.change (k := strictKernel) ⟨by decide, by decide⟩)).step (.pass 5)
  have rung := changed.step (.stir [_] [] rfl (.ring rfl (by decide)))
  have refused := rung.step (.turn [_] [] ⟨5, none⟩ false rfl rfl)
  exact ⟨_, refused, by decide, by decide, by decide, refused.accounted⟩

end Crew

end RouterAdvert
