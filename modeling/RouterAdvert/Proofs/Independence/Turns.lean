import RouterAdvert.Proofs.Independence.Watching
import RouterAdvert.Proofs.Responder.Running

/-! Turns of responders that are alike for an interface. The turns of its own taps and those of the
watch come in the same order in both and do the same; in between come turns of other taps, different
ones in each, which change nothing. So the responders are alike when each has handled all it has. -/
namespace RouterAdvert

variable {σ : Type}

namespace Steady

variable [Host σ] {same : σ → σ → Prop} {s s' : σ}

theorem dial_both (S : Steady same) (h : same s s') (l : Link) :
    same (Medium.dial l s).2 (Medium.dial l s').2 :=
  S.symm (S.dial (S.symm (S.dial h l)) l)

theorem call_both (S : Steady same) (h : same s s') (c c' : Connection) (x : ConnectionCall)
    (fault : Option ErrorCode) :
    same (Medium.call c x fault s).2 (Medium.call c' x fault s').2 :=
  S.symm (S.call (S.symm (S.call h c x fault)) c' x fault)

end Steady

namespace Advertiser.Effect

variable [Host σ] {same : σ → σ → Prop} {i : Int32} {j j' : Journal} {s s' : σ} {stamp : Stamp}
  {a a' : Advertiser}

/-- What an advertiser does tells the same of it, whatever the numbers of its connections. -/
theorem perform_alike (S : Steady same) (hj : j.Alike i j') (hs : same s s') (stamp : Stamp)
    (ha : a.unnumbered = a'.unnumbered) (e : Effect) :
    (e.perform stamp a (j, s)).1.Alike i (e.perform stamp a' (j', s')).1 ∧
      same (e.perform stamp a (j, s)).2 (e.perform stamp a' (j', s')).2 := by
  cases e with
  | note n => exact ⟨hj.note stamp n, hs⟩
  | dial =>
    have hl : a.profile.link = a'.profile.link := congrArg (fun a => a.profile.link) ha
    dsimp only [perform]
    rw [hl]
    exact ⟨hj.recordAll stamp (S.dialed hs _), S.dial_both hs _⟩
  | call x fault =>
    have hc : a.connection.map (·.unnumbered) = a'.connection.map (·.unnumbered) :=
      congrArg Advertiser.connection ha
    unfold perform
    cases h : a.connection <;> cases h' : a'.connection <;> rw [h, h'] at hc
    · exact ⟨hj, hs⟩
    · cases hc
    · cases hc
    · exact ⟨hj.recordAll stamp (S.called hs (Option.some.inj hc) x fault),
        S.call_both hs _ _ x fault⟩
  | armed => exact ⟨hj, hs⟩
  | exit x code => exact ⟨hj.record stamp rfl, hs⟩

/-- What an advertiser for another interface does is not about this one. -/
theorem perform_left (S : Steady same) (hj : j.Alike i j') (hs : same s s')
    (hstamp : stamp.concerns i = false) (a : Advertiser) (e : Effect) :
    (e.perform stamp a (j, s)).1.Alike i j' ∧ same (e.perform stamp a (j, s)).2 s' := by
  cases e with
  | note n => exact ⟨hj.note_left hstamp n, hs⟩
  | dial => exact ⟨hj.recordAll_left hstamp _, S.dial hs _⟩
  | call x fault =>
    unfold perform
    cases a.connection with
    | none => exact ⟨hj, hs⟩
    | some c => exact ⟨hj.recordAll_left hstamp _, S.call hs c x fault⟩
  | armed => exact ⟨hj, hs⟩
  | exit x code => exact ⟨hj.record_left hstamp _, hs⟩

end Advertiser.Effect

namespace Responder

namespace Alike

variable {same : σ → σ → Prop} {i : Int32} {r r' : Responder σ} {id : TapId}

theorem deregister (h : Alike same i r r') (hid : id.index = i) (now : Nat) (name : Bytes)
    (code : ErrorCode) :
    Alike same i (r.deregister now id name code) (r'.deregister now id name code) := by
  subst hid
  unfold Responder.deregister
  dsimp only
  generalize (if code = .canceled then Notice.tapClosed name else .tapExited name code) = n
  have hnoted := h.note ⟨now, some id⟩ n
  by_cases hr : r.registry.get? id.index = some id
  · have hr' : r'.registry.get? id.index = some id := h.registry ▸ hr
    rw [if_pos (by exact hr), if_pos (by exact hr')]
    exact { hnoted with registry := by rw [Table.get?_erase_self, Table.get?_erase_self] }
  · have hr' : ¬r'.registry.get? id.index = some id := h.registry ▸ hr
    rw [if_neg (by exact hr), if_neg (by exact hr')]
    exact hnoted

theorem deregister_left (h : Alike same i r r') (hid : id.index ≠ i) (now : Nat) (name : Bytes)
    (code : ErrorCode) : Alike same i (r.deregister now id name code) r' := by
  have hstamp : Stamp.concerns i ⟨now, some id⟩ = false :=
    (concerns_some i now id).trans (decide_eq_false hid)
  unfold Responder.deregister
  dsimp only
  generalize (if code = .canceled then Notice.tapClosed name else .tapExited name code) = n
  have hnoted := h.note_left hstamp n
  split
  · exact { hnoted with
      registry := (Table.get?_erase_of_ne _ hid.symm).trans h.registry }
  · exact hnoted

variable [Host σ]

theorem perform (S : Steady same) (h : Alike same i r r') (hid : id.index = i) (now : Nat)
    {a a' : Advertiser} (ha : a.unnumbered = a'.unnumbered) (e : Advertiser.Effect) :
    Alike same i (r.perform now id a e) (r'.perform now id a' e) := by
  obtain ⟨hj, hs⟩ := Advertiser.Effect.perform_alike S h.journal h.host ⟨now, some id⟩ ha e
  have hdone : Alike same i
      { r with
        journal := (e.perform ⟨now, some id⟩ a (r.journal, r.host)).1
        host := (e.perform ⟨now, some id⟩ a (r.journal, r.host)).2 }
      { r' with
        journal := (e.perform ⟨now, some id⟩ a' (r'.journal, r'.host)).1
        host := (e.perform ⟨now, some id⟩ a' (r'.journal, r'.host)).2 } :=
    { h with host := hs, journal := hj }
  cases e with
  | note | dial | call => exact hdone
  | armed =>
    exact { hdone with
      armed := by
        have hne (ids : List TapId) : (ids.filter (· ≠ id)).filter (·.index = i) =
            (ids.filter (·.index = i)).filter (· ≠ id) := by
          rw [List.filter_filter, List.filter_filter]
          exact List.filter_congr fun x _ => Bool.and_comm ..
        simp only [Responder.perform, List.filter_append, hne, h.armed] }
  | exit x code =>
    cases x with
    | deregister =>
      have hl : a.profile.link = a'.profile.link := congrArg (fun a => a.profile.link) ha
      dsimp only [Responder.perform]
      rw [hl]
      exact hdone.deregister hid now _ code
    | numbered | announce => exact hdone

theorem perform_left (S : Steady same) (h : Alike same i r r') (hid : id.index ≠ i) (now : Nat)
    (a : Advertiser) (e : Advertiser.Effect) : Alike same i (r.perform now id a e) r' := by
  have hstamp : Stamp.concerns i ⟨now, some id⟩ = false :=
    (concerns_some i now id).trans (decide_eq_false hid)
  obtain ⟨hj, hs⟩ := Advertiser.Effect.perform_left S h.journal h.host hstamp a e
  have hdone : Alike same i
      { r with
        journal := (e.perform ⟨now, some id⟩ a (r.journal, r.host)).1
        host := (e.perform ⟨now, some id⟩ a (r.journal, r.host)).2 } r' :=
    { h with host := hs, journal := hj }
  cases e with
  | note | dial | call => exact hdone
  | armed =>
    exact { hdone with
      armed := by
        have hne : (r.armed.filter (· ≠ id)).filter (·.index = i) =
            r.armed.filter (·.index = i) := by
          rw [List.filter_filter]
          refine List.filter_congr fun x _ => ?_
          by_cases hx : x = id <;> simp [hx, hid]
        simp only [Responder.perform, List.filter_append, hne]
        simpa [hid] using h.armed }
  | exit x code =>
    cases x with
    | deregister => exact hdone.deregister_left hid now _ code
    | numbered | announce => exact hdone

/-- A turn of a tap of the interface. -/
theorem stepTap (S : Steady same) (h : Alike same i r r') (hid : id.index = i) (now : Nat) :
    Alike same i (r.stepTap now id) (r'.stepTap now id) := by
  cases ht : r.taps.get? id with
  | none => simpa [Responder.stepTap, ht, h.get?_eq_none hid ht] using h
  | some t =>
    obtain ⟨t', ht', hu⟩ := h.unnumbered_get? hid ht
    have ha : t.advertiser.unnumbered = t'.advertiser.unnumbered := congrArg Tap.advertiser hu
    have hl : t.link = t'.link := congrArg (fun t => t.link) hu
    have hk := S.conditions h.host t.link
    have hstep : (t.advertiser.step? now (Medium.conditions t.link r.host)).map (·.unnumbered) =
        (t'.advertiser.step? now (Medium.conditions t'.link r'.host)).map (·.unnumbered) := by
      rw [← Advertiser.step?_unnumbered, ← Advertiser.step?_unnumbered, ha, hk, hl]
    have hall {u u' : Advertiser.Turn} (hs : u.unnumbered = u'.unnumbered) :
        Alike same i
          (u.effects.foldl (Responder.perform now id u.state)
            (r.setTap id { t with advertiser := u.state }))
          (u'.effects.foldl (Responder.perform now id u'.state)
            (r'.setTap id { t' with advertiser := u'.state })) := by
      have hstate : u.state.unnumbered = u'.state.unnumbered :=
        congrArg (fun u => u.state) hs
      have heffects : u.effects = u'.effects := congrArg (fun u => u.effects) hs
      have hput := h.setTap hid (Tap.unnumbered_with hu hstate)
      rw [← heffects]
      generalize r.setTap id _ = q at hput
      generalize r'.setTap id _ = q' at hput
      induction u.effects generalizing q q' with
      | nil => exact hput
      | cons e es ih => exact ih _ _ (hput.perform S hid now hstate e)
    cases hu : t.advertiser.step? now (Medium.conditions t.link r.host) with
    | none =>
      rw [hu] at hstep
      have hu' := Option.map_eq_none_iff.mp hstep.symm
      simpa [Responder.stepTap, ht, ht', hu, hu'] using h
    | some u =>
      rw [hu] at hstep
      obtain ⟨u', hu', hs⟩ := Option.map_eq_some_iff.mp hstep.symm
      rw [stepTap_eq ht hu, stepTap_eq ht' hu']
      exact hall hs.symm

/-- A turn of a tap of another interface. -/
theorem stepTap_left (S : Steady same) (h : Alike same i r r') (hid : id.index ≠ i) (now : Nat) :
    Alike same i (r.stepTap now id) r' := by
  unfold Responder.stepTap
  split
  · exact h
  · rename_i t ht
    split
    · exact h
    · rename_i u hu
      have hput := h.setTap_left hid { t with advertiser := u.state }
      generalize r.setTap id _ = q at hput
      induction u.effects generalizing q with
      | nil => exact hput
      | cons e es ih => exact ih _ (hput.perform_left S hid now u.state e)

/-- A turn that cannot touch a tap of the interface. -/
theorem step_left (S : Steady same) (h : Alike same i r r') {now : Nat} {a : Actor}
    {rest : List Actor} (hs : r.schedule = a :: rest) (ha : a.concerns i = false)
    {q : Responder σ} (hq : r.step? now = some q) : Alike same i q r' := by
  have hrest : Alike same i { r with schedule := rest } r' :=
    { h with
      schedule := by
        have hf := h.schedule
        rwa [hs, List.filter_cons_of_neg (by simp [ha])] at hf }
  obtain ⟨-, _, ⟨hs', -⟩ | ⟨id, hs', rfl⟩⟩ := step?_cases hq
  · rw [hs] at hs'
    obtain ⟨rfl, -⟩ := List.cons.inj hs'
    cases ha
  · rw [hs] at hs'
    obtain ⟨rfl, rfl⟩ := List.cons.inj hs'
    exact hrest.stepTap_left S (of_decide_eq_false ha) now

/-- A turn that both come to. -/
theorem step_both (S : Steady same) (h : Alike same i r r') (ho : Orderly r) (ho' : Orderly r')
    {now : Nat} {a : Actor} {rest rest' : List Actor} (hs : r.schedule = a :: rest)
    (hs' : r'.schedule = a :: rest') (ha : a.concerns i = true) {q q' : Responder σ}
    (hq : r.step? now = some q) (hq' : r'.step? now = some q') (hn : q.halt ≠ some .failed)
    (hn' : q'.halt ≠ some .failed) : Alike same i q q' := by
  have hrest : Alike same i { r with schedule := rest } { r' with schedule := rest' } :=
    { h with
      schedule := by
        have hf := h.schedule
        rw [hs, hs', List.filter_cons_of_pos ha, List.filter_cons_of_pos ha] at hf
        exact (List.cons.inj hf).2 }
  have hgo : r.halt.isSome = false := by rw [(step?_cases hq).1]; rfl
  have hgo' : r'.halt.isSome = false := by rw [(step?_cases hq').1]; rfl
  simp only [Responder.step?, hs, hs', hgo, hgo', Bool.false_eq_true, if_false] at hq hq'
  cases a with
  | watch =>
    obtain rfl := Option.some.inj hq
    obtain rfl := Option.some.inj hq'
    have haside (q : Responder σ) (rest : List Actor) (hs : q.schedule = .watch :: rest) :
        Aside q { q with schedule := rest } :=
      ⟨rfl, rfl, fun id => by rw [count_of_schedule hs]; simp⟩
    exact hrest.stepWatch S (ho.aside (haside r rest hs)) (ho'.aside (haside r' rest' hs')) hn hn'
  | tap id =>
    obtain rfl := Option.some.inj hq
    obtain rfl := Option.some.inj hq'
    exact hrest.stepTap S (of_decide_eq_true ha) now

/-- When each has handled all it has, they are alike again. -/
theorem drain (S : Steady same) (h : Alike same i r r') {now time : Nat} (hr : Working time r)
    (hr' : Working time r') (ht : time ≤ now)
    (hn : (Reactor.drain now r).halt ≠ some .failed)
    (hn' : (Reactor.drain now r').halt ≠ some .failed) :
    Alike same i (Reactor.drain now r) (Reactor.drain now r') := by
  -- The turns of the interface's taps and of the watch pair up; each other turn is taken alone.
  induction hk : r.work + r'.work using Nat.strongRecOn generalizing r r' with
  | ind k ih =>
    subst hk
    cases hh : r.halt with
    | some x =>
      have hh' : r'.halt = some x := h.halt ▸ hh
      rwa [drain_of_step?_eq_none (step?_of_halt (by rw [hh]; rfl) now),
        drain_of_step?_eq_none (step?_of_halt (by rw [hh']; rfl) now)]
    | none =>
      have hh' : r'.halt = none := h.halt ▸ hh
      have hleft {a : Actor} {rest : List Actor} (hs : r.schedule = a :: rest)
          (ha : a.concerns i = false) :
          Alike same i (Reactor.drain now r) (Reactor.drain now r') := by
        obtain ⟨q, hq⟩ := exists_step? hh hs now
        obtain ⟨hw, hlt⟩ := hr.step? ht hq
        rw [hr.drain_eq ht hq] at hn ⊢
        exact ih _ (by omega) (h.step_left S hs ha hq) hw hr' hn hn' rfl
      have hright {a : Actor} {rest : List Actor} (hs : r'.schedule = a :: rest)
          (ha : a.concerns i = false) :
          Alike same i (Reactor.drain now r) (Reactor.drain now r') := by
        obtain ⟨q, hq⟩ := exists_step? hh' hs now
        obtain ⟨hw, hlt⟩ := hr'.step? ht hq
        rw [hr'.drain_eq ht hq] at hn' ⊢
        exact ih _ (by omega) (((h.symm S).step_left S hs ha hq).symm S) hr hw hn hn' rfl
      have hboth {a : Actor} {rest rest' : List Actor} (hs : r.schedule = a :: rest)
          (hs' : r'.schedule = a :: rest') (ha : a.concerns i = true) :
          Alike same i (Reactor.drain now r) (Reactor.drain now r') := by
        obtain ⟨q, hq⟩ := exists_step? hh hs now
        obtain ⟨q', hq'⟩ := exists_step? hh' hs' now
        obtain ⟨hw, hlt⟩ := hr.step? ht hq
        obtain ⟨hw', hlt'⟩ := hr'.step? ht hq'
        rw [hr.drain_eq ht hq] at hn ⊢
        rw [hr'.drain_eq ht hq'] at hn' ⊢
        exact ih _ (by omega) (h.step_both S hr.orderly hr'.orderly hs hs' ha hq hq'
          (halt_of_drain hn) (halt_of_drain hn')) hw hw' hn hn' rfl
      have hf := h.schedule
      cases hs : r.schedule with
      | nil =>
        cases hs' : r'.schedule with
        | nil =>
          have hrest (q : Responder σ) (hq : q.schedule = []) : q.step? now = none := by
            simp [Responder.step?, hq]
          rwa [drain_of_step?_eq_none (hrest r hs), drain_of_step?_eq_none (hrest r' hs')]
        | cons a rest =>
          refine hright hs' ?_
          rw [hs, hs', List.filter_nil] at hf
          exact Bool.eq_false_iff.mpr (List.filter_eq_nil_iff.mp hf.symm a List.mem_cons_self)
      | cons a rest =>
        cases ha : a.concerns i with
        | false => exact hleft hs ha
        | true =>
          rw [hs, List.filter_cons_of_pos ha] at hf
          cases hs' : r'.schedule with
          | nil =>
            rw [hs'] at hf
            cases hf
          | cons a' rest' =>
            cases ha' : a'.concerns i with
            | false => exact hright hs' ha'
            | true =>
              rw [hs', List.filter_cons_of_pos ha'] at hf
              obtain ⟨rfl, -⟩ := List.cons.inj hf
              exact hboth hs hs' ha

end Alike

end Responder

end RouterAdvert
