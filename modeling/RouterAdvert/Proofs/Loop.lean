import RouterAdvert.Loop

/-! Draining the queue. If every step takes away some of the work, as much work as there is bounds
the steps, and nothing is queued afterwards. Work is the total weight of what waits to be done. -/
namespace RouterAdvert

section Total

variable {α : Type} {f : α → Nat}

/-- The weights of all members together. -/
def total (f : α → Nat) (xs : List α) : Nat := xs.foldr (fun x n => f x + n) 0

@[simp] theorem total_nil : total f [] = 0 := rfl

@[simp] theorem total_cons (x : α) (xs : List α) : total f (x :: xs) = f x + total f xs := rfl

@[simp] theorem total_append (xs ys : List α) :
    total f (xs ++ ys) = total f xs + total f ys := by
  induction xs with
  | nil => exact (Nat.zero_add _).symm
  | cons x xs ih => rw [List.cons_append, total_cons, total_cons, ih, Nat.add_assoc]

theorem total_of_forall {n : Nat} {xs : List α} (h : ∀ x ∈ xs, f x = n) :
    total f xs = xs.length * n := by
  induction xs with
  | nil => exact (Nat.zero_mul n).symm
  | cons x xs ih =>
    obtain ⟨hx, hxs⟩ := List.forall_mem_cons.mp h
    rw [total_cons, hx, ih hxs, List.length_cons, Nat.succ_mul, Nat.add_comm]

end Total

namespace Reactor

variable {σ : Type} [Reactor σ]

/-- What every step keeps is kept by any number of them. -/
theorem steps_induction {now : Nat} {P : σ → Prop}
    (hstep : ∀ s s', P s → step? now s = some s' → P s') (n : Nat) {s : σ} (h : P s) :
    P (steps now n s) := by
  induction n generalizing s with
  | zero => exact h
  | succ n ih =>
    unfold steps
    split
    · exact h
    · rename_i s' hs
      exact ih (hstep s s' h hs)

/-- As many steps as there is work leave nothing to do. -/
theorem step?_steps_eq_none {now : Nat} {P : σ → Prop}
    (hstep : ∀ s s', P s → step? now s = some s' → P s' ∧ work s' < work s) {n : Nat} {s : σ}
    (h : P s) (hn : work s ≤ n) : step? now (steps now n s) = none := by
  induction n generalizing s with
  | zero =>
    cases hs : step? now s with
    | none => exact hs
    | some s' =>
      obtain ⟨-, hlt⟩ := hstep s s' h hs
      omega
  | succ n ih =>
    unfold steps
    split
    · assumption
    · rename_i s' hs
      obtain ⟨h', hlt⟩ := hstep s s' h hs
      exact ih h' (by omega)

/-- The queue is empty after it was drained. -/
theorem step?_drain_eq_none {now : Nat} {P : σ → Prop}
    (hstep : ∀ s s', P s → step? now s = some s' → P s' ∧ work s' < work s) {s : σ} (h : P s) :
    step? now (drain now s) = none :=
  step?_steps_eq_none hstep h (Nat.le_refl _)

/-- A queue that is empty after some steps, for which there is work enough, has been drained. -/
theorem drain_eq_of_steps {now n : Nat} {s s' : σ} (hs : steps now n s = s')
    (hq : step? now s' = none) (hw : n ≤ work s) : drain now s = s' := by
  obtain ⟨m, hm⟩ := Nat.exists_eq_add_of_le hw
  rw [drain, hm, steps_add, hs, steps_of_step?_eq_none hq]

/-- Nothing happens to an empty queue. -/
theorem drain_of_step?_eq_none {now : Nat} {s : σ} (h : step? now s = none) : drain now s = s :=
  steps_of_step?_eq_none h _

/-- What is kept by every step and when alarms go off is kept by a run. -/
theorem runUntil_induction {P : σ → Prop}
    (hstep : ∀ now s s', P s → step? now s = some s' → P s') (hring : ∀ t s, P s → P (ring t s))
    (limit now rounds : Nat) {s : σ} (h : P s) : P (runUntil limit now rounds s) := by
  have hdrain (now : Nat) {s : σ} (h : P s) : P (drain now s) :=
    steps_induction (hstep now) _ h
  fun_induction runUntil limit now rounds s with
  | case1 | case2 | case4 => exact hdrain _ h
  | case3 now _ s _ t _ _ _ ih => exact ih (hring t _ (hdrain now h))
  | case5 now s _ t _ _ _ _ ih => exact ih (hring t _ (hdrain now h))

/-- A relation that two systems keep as long as they go side by side: they take the same turns and
set the same alarms. -/
structure Lockstep (R : σ → σ → Prop) : Prop where
  step : ∀ now s t, R s t → Option.Rel R (step? now s) (step? now t)
  ring : ∀ time s t, R s t → R (ring time s) (ring time t)
  nextAlarm : ∀ s t, R s t → nextAlarm? t = nextAlarm? s
  work : ∀ s t, R s t → work t = work s
  patience : ∀ s t, R s t → patience t = patience s

namespace Lockstep

variable {R : σ → σ → Prop} {s t : σ}

theorem steps (h : Lockstep R) (now n : Nat) (hr : R s t) :
    R (steps now n s) (steps now n t) := by
  induction n generalizing s t with
  | zero => exact hr
  | succ n ih =>
    have hstep := h.step now s t hr
    unfold Reactor.steps
    cases hs : step? now s <;> cases ht : step? now t <;> rw [hs, ht] at hstep
    case none.none => exact hr
    case some.some => cases hstep with | some hr' => exact ih hr'
    all_goals cases hstep

theorem drain (h : Lockstep R) (now : Nat) (hr : R s t) : R (drain now s) (drain now t) := by
  rw [Reactor.drain, Reactor.drain, h.work s t hr]
  exact h.steps now _ hr

theorem runUntil (h : Lockstep R) (limit now rounds : Nat) {s t : σ} (hr : R s t) :
    R (runUntil limit now rounds s) (runUntil limit now rounds t) := by
  have hd := h.drain now hr
  rw [Reactor.runUntil.eq_def limit now rounds s, Reactor.runUntil.eq_def limit now rounds t]
  simp only [h.nextAlarm _ _ hd]
  cases nextAlarm? (Reactor.drain now s) with
  | none => exact hd
  | some time =>
    simp only
    by_cases hle : limit < time
    · rw [if_pos hle, if_pos hle]
      exact hd
    · rw [if_neg hle, if_neg hle]
      by_cases hlt : now < time
      · rw [if_pos hlt, if_pos hlt, h.patience _ _ hd]
        exact runUntil h limit time _ (h.ring time _ _ hd)
      · rw [if_neg hlt, if_neg hlt]
        cases rounds with
        | zero => exact hd
        | succ rounds => exact runUntil h limit now rounds (h.ring time _ _ hd)
termination_by (limit - now, rounds)

/-- Two systems that go side by side do so for any time. -/
theorem runFor (h : Lockstep R) (duration now : Nat) (hr : R s t) :
    R (runFor duration now s) (runFor duration now t) := by
  rw [Reactor.runFor, Reactor.runFor, h.patience s t hr]
  exact h.runUntil _ _ _ hr

end Lockstep

end Reactor

end RouterAdvert
