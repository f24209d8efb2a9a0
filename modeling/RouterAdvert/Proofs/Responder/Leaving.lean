import RouterAdvert.Proofs.Responder.Watched

/-! On the way to the end. Once the program is told to stop, the watch stops in its turn, after what
was there before, and nothing that is left brings a tap into service. Once all taps are closed, only
a new one can be in service. -/
namespace RouterAdvert.Responder

variable {σ : Type}

/-- What a responder is when its watch has stopped. -/
structure Stopped (r : Responder σ) : Prop where
  stopped : r.watch.stopped = true
  waiting : r.watch.waiting = 0
  mailbox : ∀ e ∈ r.watch.mailbox, e.isReceived = true
  empty : r.size = 0
  halt : r.halt = none

/-- A responder on its way to the end: the shutdown waits behind some other events, with nothing
behind it that could undo it, or it has been handled. -/
inductive Leaving (P : LinkWatch.Event → Prop) (r : Responder σ) : Prop
  | asked {before behind : List LinkWatch.Event}
    (hm : r.watch.mailbox = before ++ .shutdown :: behind) (hb : ∀ e ∈ before, P e)
    (hr : ∀ e ∈ behind, e.isReceived = true) : Leaving P r
  | stopped (h : Stopped r) : Leaving P r

theorem Leaving.of_same {P : LinkWatch.Event → Prop} {r r' : Responder σ} (h : Leaving P r)
    (hw : r'.watch = r.watch) (hh : r'.halt = r.halt) (hs : r'.size ≤ r.size) : Leaving P r' := by
  cases h with
  | asked hm hb hr =>
    rw [← hw] at hm
    exact .asked hm hb hr
  | stopped h =>
    refine .stopped ⟨?_, ?_, ?_, Nat.le_zero.mp (h.empty ▸ hs), hh.trans h.halt⟩
    · rw [hw]
      exact h.stopped
    · rw [hw]
      exact h.waiting
    · rw [hw]
      exact h.mailbox

theorem Leaving.shutdown {P : LinkWatch.Event → Prop} {r : Responder σ}
    (h : ∀ e ∈ r.watch.mailbox, P e) : Leaving P r.shutdown := by
  have hm : r.shutdown.watch.mailbox = r.watch.mailbox ++ .shutdown :: [] := rfl
  exact .asked hm h (by simp)

/-- A responder in which at least `n` taps have been made, and which serves nothing if it was just
`n`. -/
structure Retired (n : Nat) (r : Responder σ) : Prop where
  made : n ≤ r.taps.size
  empty : r.taps.size = n → r.size = 0

theorem Retired.of_le {n : Nat} {r r' : Responder σ} (h : Retired n r)
    (ht : r'.taps.size = r.taps.size) (hs : r'.size ≤ r.size) : Retired n r' := by
  refine ⟨ht ▸ h.made, fun hn => Nat.le_zero.mp ?_⟩
  rw [← h.empty (ht ▸ hn)]
  exact hs

theorem size_closeAll (r : Responder σ) : r.closeAll.taps.size = r.taps.size :=
  Orderly.size_cancelAll r.registry.values { r with registry := .empty }

theorem closeAll_watch (r : Responder σ) :
    r.closeAll.watch = r.watch ∧ r.closeAll.halt = r.halt :=
  cancelAll_watch r.registry.values { r with registry := .empty }

theorem Retired.closeAll (r : Responder σ) : Retired r.taps.size r.closeAll :=
  ⟨Nat.le_of_eq (size_closeAll r).symm, fun _ => congrArg Table.size (Orderly.frame_closeAll r).1⟩

variable [Host σ] {now : Nat} {P : LinkWatch.Event → Prop} {r r' : Responder σ}

/-- A watch that has stopped takes no notice of what it handles. -/
theorem Stopped.handleWatch {e : LinkWatch.Event} {events : List LinkWatch.Event} (h : Stopped r)
    (now : Nat) (rest : List Actor) (hm : r.watch.mailbox = e :: events) :
    (r.taken rest events).handleWatch now e = r.taken rest events ∧
      Stopped (r.taken rest events) := by
  refine ⟨?_, h.stopped, h.waiting, fun x hx => ?_, h.empty, h.halt⟩
  · have he : e.isReceived = true := h.mailbox e (by simp [hm])
    cases e with
    | received x => exact if_pos h.stopped
    | begin | shutdown => cases he
  · refine h.mailbox x ?_
    rw [hm]
    exact List.mem_cons_of_mem e hx

theorem Leaving.step? (hl : Leaving P r) (h : Orderly r) (hw : Watched r)
    (hr : r.step? now = some r') : Leaving P r' := by
  obtain ⟨hh, rest, ⟨hs, rfl⟩ | ⟨id, hs, rfl⟩⟩ := step?_cases hr
  · obtain ⟨e, events, hm, he, ho, hq, -, hopen⟩ := exists_watchTurn h hw now hs
    obtain ⟨-, -, es, hes, hrec⟩ := handleWatch_spec ho hq now e hopen
    rw [he]
    cases hl with
    | @asked before behind hm' hb hbr =>
      have hall : ∀ x ∈ behind ++ es, x.isReceived = true := fun x hx =>
        (List.mem_append.mp hx).elim (hbr x) (hrec x)
      cases before with
      | nil =>
        obtain ⟨rfl, rfl⟩ := List.cons.inj (hm.symm.trans hm')
        obtain ⟨-, -, hhalt, hreg, hst, hz, -⟩ := stopWatch_spec now hq
        exact .stopped ⟨hst, hz, hes ▸ hall, congrArg Table.size hreg, hhalt.trans hh⟩
      | cons x before =>
        obtain ⟨rfl, rfl⟩ := List.cons.inj (hm.symm.trans hm')
        have hm'' := hes.trans (List.append_assoc before (.shutdown :: behind) es)
        exact .asked hm'' (fun x hx => hb x (List.mem_cons_of_mem _ hx)) hall
    | stopped hst =>
      obtain ⟨heq, htaken⟩ := hst.handleWatch now rest hm
      rw [heq]
      exact .stopped htaken
  · obtain ⟨-, -, hwatch, hhalt, hsize, -⟩ := stepTap_spec h now hs
    exact hl.of_same hwatch hhalt hsize

/-- If only shutdowns wait before it, the program does not end by itself. -/
theorem Leaving.halt_eq_none (hl : Leaving (· = .shutdown) r) (h : Orderly r) (hw : Watched r)
    (hr : r.step? now = some r') : r'.halt = none := by
  obtain ⟨hh, rest, ⟨hs, rfl⟩ | ⟨id, hs, rfl⟩⟩ := step?_cases hr
  · obtain ⟨e, events, hm, he, -, hq, -⟩ := exists_watchTurn h hw now hs
    rw [he]
    cases hl with
    | @asked before behind hm' hb =>
      have hx : e = .shutdown := by
        cases before with
        | nil => exact (List.cons.inj (hm.symm.trans hm')).1
        | cons x before =>
          obtain ⟨rfl, -⟩ := List.cons.inj (hm.symm.trans hm')
          exact hb e List.mem_cons_self
      subst hx
      exact (stopWatch_spec now hq).2.2.1.trans hh
    | stopped hst =>
      rw [(hst.handleWatch now rest hm).1]
      exact hh
  · exact (stepTap_spec h now hs).2.2.2.1.trans hh

theorem Retired.kept (now n : Nat) :
    Kept now fun r : Responder σ => Orderly r ∧ Retired n r where
  aside h ha := by
    refine ⟨h.1.aside ha, h.2.of_le (congrArg _ ha.taps) (Nat.le_of_eq ?_)⟩
    exact congrArg Table.size ha.registry
  add := by
    intro r h i
    refine ⟨h.1.add now i, ?_⟩
    rcases r.add_spec now i with ⟨q, t, p, ha, -, he, -⟩ | ⟨ha, -⟩
    · have hq : q.taps.size = r.taps.size := congrArg _ ha.taps
      have hs := (h.1.aside ha).size_install now i t
      have hm := h.2.made
      rw [he]
      exact ⟨by omega, by omega⟩
    · exact h.2.of_le (congrArg _ ha.taps) (Nat.le_of_eq (congrArg Table.size ha.registry))
  close := by
    intro r h i
    refine ⟨h.1.close i, ?_⟩
    cases hi : r.registry.get? i with
    | none => simpa [Responder.close, hi] using h.2
    | some id =>
      rw [Orderly.close_of_some hi]
      refine h.2.of_le (Orderly.size_cancelAll _ _) ?_
      rw [size, (Orderly.frame_cancelAll _ _).1]
      exact Table.size_erase_le _ _
  closeAll := by
    intro r h
    refine ⟨h.1.closeAll, h.2.of_le (Orderly.size_cancelAll _ _) ?_⟩
    rw [size, (Orderly.frame_closeAll r).1]
    exact Nat.zero_le _

/-- Without a new tap, a registry that was emptied stays empty. -/
theorem Retired.step? {n : Nat} (h : Retired n r) (ho : Orderly r)
    (hr : r.step? now = some r') : Retired n r' := by
  obtain ⟨-, rest, ⟨hs, rfl⟩ | ⟨id, hs, rfl⟩⟩ := step?_cases hr
  · exact ((kept now n).watchTurn ⟨ho, h⟩ hs).2
  · obtain ⟨-, -, -, -, hsize, hkeys⟩ := stepTap_spec ho now hs
    refine h.of_le ?_ hsize
    rw [← Table.length_keys, hkeys, Table.length_keys]

/-- With nothing for the watch to handle, the turns of the taps leave it alone. -/
theorem step?_of_idle (h : Orderly r) (hw : Watched r) (hm : r.watch.mailbox = [])
    (hr : r.step? now = some r') :
    r'.watch = r.watch ∧ r'.halt = r.halt ∧ r'.taps.size = r.taps.size := by
  obtain ⟨-, rest, ⟨hs, rfl⟩ | ⟨id, hs, rfl⟩⟩ := step?_cases hr
  · obtain ⟨e, events, he, -⟩ := exists_watchTurn h hw now hs
    cases hm.symm.trans he
  · obtain ⟨-, -, hwatch, hhalt, -, hkeys⟩ := stepTap_spec h now hs
    refine ⟨hwatch, hhalt, ?_⟩
    rw [← Table.length_keys, hkeys, Table.length_keys]

end RouterAdvert.Responder
