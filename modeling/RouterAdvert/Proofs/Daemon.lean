import RouterAdvert.Daemon
import RouterAdvert.Proofs.Responder.Attained
import RouterAdvert.Proofs.Responder.Draining

/-! Whatever happens to the program while it runs, its responder comes to nothing but what a service
can come to; and when nothing is left to be done after a signal, it ends. -/
namespace RouterAdvert.Daemon

open Responder

/-- Whether the responder can be what it is now. -/
def Attained (d : Daemon) : Prop := Responder.Attained d.now d.responder

namespace Attained

variable {d : Daemon}

theorem setKernel (h : d.Attained) (k : Kernel) : (d.setKernel k).Attained :=
  h.aside ⟨rfl, rfl, fun _ => rfl⟩

theorem announce (h : d.Attained) (type : UInt16) (l : Link) : (d.announce type l).Attained :=
  Responder.Attained.setWatch h _

theorem happen (h : d.Attained) (x : Happening) : (d.happen x).Attained := by
  cases x with
  | link l quiet =>
    dsimp only [Daemon.happen]
    split
    · exact h.setKernel _
    · exact (h.setKernel _).announce _ l
  | unlink i =>
    dsimp only [Daemon.happen]
    split
    · exact h
    · exact (h.setKernel _).announce _ _
  | announcement x => exact Responder.Attained.setWatch h _
  | address | clearAddresses | route | clearRoutes | fault => exact h.setKernel _
  | arrival i x =>
    dsimp only [Daemon.happen]
    split
    · exact h
    · refine Responder.Attained.stir (f := fun a => (a.arrive? x).getD a) h _ fun t _ => ?_
      cases ha : t.advertiser.arrive? x with
      | none => exact Or.inl rfl
      | some a => exact Or.inr (.arrive ha)
  | signal n =>
    dsimp only [Daemon.happen]
    split
    · have hn : Responder.Attained d.now (d.responder.note ⟨d.now, none⟩ (.signaled n)) :=
        h.aside ⟨rfl, rfl, fun _ => rfl⟩
      exact hn.setWatch _
    · exact h

theorem advance (h : d.Attained) (limit : Nat) : (d.advance limit).Attained := by
  have hr := Responder.Attained.runFor h (limit - d.now)
  have hm : d.now + (limit - d.now) = max d.now limit := by omega
  rwa [hm] at hr

theorem conclude (h : d.Attained) : d.conclude.Attained := by
  unfold Daemon.conclude
  split
  · exact h.aside ⟨rfl, rfl, fun _ => rfl⟩
  · exact h

theorem observe (h : d.Attained) (horizon : Nat) (xs : List (Nat × Happening)) :
    (d.observe horizon xs).Attained := by
  induction xs generalizing d with
  | nil => exact h.advance horizon
  | cons x xs ih =>
    unfold Daemon.observe
    split
    · exact h
    · split
      · exact h.advance horizon
      · dsimp only
        split
        · exact h.advance x.1
        · exact ih (((h.advance x.1).happen x.2).advance _).conclude

end Attained

theorem attained_start (s : Settings) (p : Pattern) (k : Kernel) : (start s p k).Attained := by
  have hnew := Responder.Attained.new 0 k s.timing p.search
  unfold start
  dsimp only
  generalize hj : (if s.verbose = true then _ else _ : Journal) = j
  have hr : Responder.Attained 0
      { host := k, timing := s.timing, selects := p.search, journal := j } :=
    hnew.aside ⟨rfl, rfl, fun _ => rfl⟩
  have hw := hr.startWatch
  split <;> rename_i r heq
  · rw [heq] at hw
    exact hw.aside ⟨rfl, rfl, fun _ => rfl⟩
  · rw [heq] at hw
    exact hw.aside ⟨rfl, rfl, fun _ => rfl⟩

/-- At the end of every observation the responder is one that a service can come to. -/
theorem attained_observe (s : Settings) (p : Pattern) (k : Kernel) (horizon : Nat)
    (xs : List (Nat × Happening)) : ((start s p k).observe horizon xs).Attained :=
  (attained_start s p k).observe horizon xs

theorem isQuiet_of_over {c : Course Kernel} (h : Course.Over c)
    (hw : c.responder.watch.waiting = 0) : isQuiet c.responder = true := by
  have hcalls : (c.responder.taps.values.all fun t =>
      t.advertiser.connection.all fun x => x.waiting.isEmpty && x.held = 0) = true := by
    refine List.all_eq_true.mpr fun t ht => ?_
    obtain ⟨id, hid⟩ := Table.exists_get?_of_mem_values ht
    obtain ⟨-, -, -, hshut, -⟩ := h.taps id t hid
    cases hx : t.advertiser.connection with
    | none => rfl
    | some x => simp [(hshut x hx).waiting, (hshut x hx).held]
  simp [isQuiet, h.schedule, h.alarm, hw, hcalls]

/-- A program that has taken a signal ends well when nothing is left to be done. -/
theorem status_conclude {d : Daemon} {c : Course Kernel} (h : Course.Over c)
    (hw : c.responder.watch.waiting = 0) (hh : c.responder.halt = none)
    (hd : d.responder = c.responder) (hs : d.signaledAt.isSome) : d.conclude.status = some 0 := by
  have hquiet := isQuiet_of_over h hw
  simp [conclude, hd, hh, hs, hquiet, status]

end RouterAdvert.Daemon
