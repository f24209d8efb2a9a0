import RouterAdvert.Proofs.Independence.Alike
import RouterAdvert.Proofs.Responder.Orderly

/-! Serving and closing an interface happens alike to responders that are alike there, and leaves
them alike when it is another interface. -/
namespace RouterAdvert

namespace Table

variable {κ α : Type} [DecidableEq κ]

/-- If the values tell their keys, those that tell one key are what is found there. -/
theorem filter_values {t : Table κ α} {k : κ} {p : α → Bool}
    (hp : ∀ x a, t.get? x = some a → (p a = true ↔ x = k)) :
    t.values.filter p = (t.get? k).toList := by
  have hrows (rows : List (κ × α)) (hn : (rows.map (·.1)).Nodup)
      (hp : ∀ row ∈ rows, (p row.2 = true ↔ row.1 = k)) :
      (rows.map (·.2)).filter p = ((rows.find? (·.1 = k)).map (·.2)).toList := by
    induction rows with
    | nil => rfl
    | cons row rows ih =>
      obtain ⟨hk, hn⟩ : row.1 ∉ rows.map (·.1) ∧ (rows.map (·.1)).Nodup := List.nodup_cons.mp hn
      obtain ⟨hrow, hp⟩ := List.forall_mem_cons.mp hp
      by_cases h : row.1 = k
      · have hnone : (rows.map (·.2)).filter p = [] := by
          refine List.filter_eq_nil_iff.mpr fun a ha hpa => hk ?_
          obtain ⟨x, hx, rfl⟩ := List.mem_map.mp ha
          exact List.mem_map.mpr ⟨x, hx, ((hp x hx).mp hpa).trans h.symm⟩
        simp [h, hrow.mpr h, hnone]
      · simpa [h, mt hrow.mp h] using ih hn hp
  refine hrows t.rows t.nodup fun row hrow => hp row.1 row.2 ?_
  exact congrArg (Option.map _) (find?_of_mem t.nodup hrow)

end Table

namespace Steady

variable {σ : Type} [Host σ] {same : σ → σ → Prop} {s s' : σ}

/-- Both are asked for the same link. -/
theorem lookUp_both (S : Steady same) (h : same s s') (i : Int32) :
    same (Host.lookUp i s).after (Host.lookUp i s').after :=
  S.symm (S.lookUp (S.symm (S.lookUp h i)) i)

end Steady

namespace Responder

open Orderly

variable {σ : Type}

namespace Alike

variable {same : σ → σ → Prop} {i j : Int32} {r r' r'' : Responder σ}

theorem blind_cancel : Blind .cancel := fun _ => rfl

theorem blind_start (x : ExitHandler) : Blind (.start x) := fun _ => rfl

theorem blind_ring : Blind .ring := Advertiser.ring_unnumbered

/-- Of several taps, only those of the interface count. -/
theorem modifyAll_left (h : Alike same i r r') {f : Advertiser → Advertiser} (hf : Blind f)
    (ids : List TapId) :
    Alike same i (ids.foldl (fun r id => r.modifyTap id f) r)
      ((ids.filter (·.index = i)).foldl (fun r id => r.modifyTap id f) r') := by
  induction ids generalizing r r' with
  | nil => exact h
  | cons id ids ih =>
    by_cases hid : id.index = i
    · rw [List.filter_cons_of_pos (by simpa using hid)]
      exact ih (h.modifyTap hid hf)
    · rw [List.filter_cons_of_neg (by simpa using hid)]
      exact ih (h.modifyTap_left hid f)

theorem noteFindings_left (h : Alike same i r r') (now : Nat) (t : Tap) :
    Alike same i (r.noteFindings ⟨now, none⟩ t) r' := by
  dsimp only [noteFindings]
  split <;> split
  · exact ((h.note_aside now _).note_aside now _).note_aside now _
  · exact (h.note_aside now _).note_aside now _
  · exact (h.note_aside now _).note_aside now _
  · exact h.note_aside now _

theorem replace (h : Alike same i r r') (now : Nat) (name : Bytes)
    {previous : Option TapId} (hp : ∀ id, previous = some id → id.index = i) :
    Alike same i (Orderly.replace now name previous r) (Orderly.replace now name previous r') := by
  cases previous with
  | none => exact h
  | some id => exact (h.note ⟨now, none⟩ _).modifyTap (hp id rfl) blind_cancel

theorem replace_left (h : Alike same i r r') (now : Nat) (name : Bytes) {previous : Option TapId}
    (hp : ∀ id, previous = some id → id.index ≠ i) :
    Alike same i (Orderly.replace now name previous r) r' := by
  cases previous with
  | none => exact h
  | some id => exact (h.note_aside now _).modifyTap_left (hp id rfl) _

theorem install (h : Alike same i r r') (ho : Orderly r) (now : Nat) (t : Tap) :
    Alike same i (r.install now i t) (r'.install now i t) := by
  have hid : (r.freshId i).index = i := rfl
  have hput : Alike same i { r with registry := r.registry.insert i (r.freshId i) }
      { r' with registry := r'.registry.insert i (r.freshId i) } :=
    { h with registry := by rw [Table.get?_insert_self, Table.get?_insert_self] }
  rw [install_eq, install_eq, ← h.fresh, ← h.registry]
  refine ((hput.setTap hid rfl).replace now _ fun id hp => ?_).modifyTap hid (blind_start _)
  exact (ho.registered i id hp).1

theorem install_left (h : Alike same i r r') (ho : Orderly r) (hj : j ≠ i) (now : Nat) (t : Tap) :
    Alike same i (r.install now j t) r' := by
  have hput : Alike same i { r with registry := r.registry.insert j (r.freshId j) } r' :=
    { h with registry := by rw [Table.get?_insert_of_ne _ hj.symm, h.registry] }
  rw [install_eq]
  refine ((hput.setTap_left hj t).replace_left now _ fun id hp => ?_).modifyTap_left hj _
  rw [(ho.registered j id hp).1]
  exact hj

theorem close_left (h : Alike same i r r') (ho : Orderly r) (hj : j ≠ i) :
    Alike same i (r.close j) r' := by
  unfold Responder.close
  split
  · exact h
  · rename_i id hid
    have herase : Alike same i { r with registry := r.registry.erase j } r' :=
      { h with registry := by rw [Table.get?_erase_of_ne _ hj.symm, h.registry] }
    refine herase.modifyTap_left ?_ _
    rw [(ho.registered j id hid).1]
    exact hj

variable [Host σ]

theorem symm (S : Steady same) (h : Alike same i r r') : Alike same i r' r :=
  ⟨S.symm h.host, h.timing.symm, h.selects.symm, h.journal.symm, fun x hx => (h.taps x hx).symm,
    h.fresh.symm, h.registry.symm, h.watch.symm, h.schedule.symm, h.armed.symm, h.halt.symm⟩

theorem trans (S : Steady same) (h : Alike same i r r') (h' : Alike same i r' r'') :
    Alike same i r r'' :=
  ⟨S.trans h.host h'.host, h.timing.trans h'.timing, h.selects.trans h'.selects,
    h.journal.trans h'.journal, fun x hx => (h.taps x hx).trans (h'.taps x hx),
    h.fresh.trans h'.fresh, h.registry.trans h'.registry, h.watch.trans h'.watch,
    h.schedule.trans h'.schedule, h.armed.trans h'.armed, h.halt.trans h'.halt⟩

theorem refl_left (S : Steady same) (h : Alike same i r r') : Alike same i r r :=
  h.trans S (h.symm S)

theorem modifyAll (S : Steady same) (h : Alike same i r r') {f : Advertiser → Advertiser}
    (hf : Blind f) {ids ids' : List TapId}
    (hids : ids.filter (·.index = i) = ids'.filter (·.index = i)) :
    Alike same i (ids.foldl (fun r id => r.modifyTap id f) r)
      (ids'.foldl (fun r id => r.modifyTap id f) r') := by
  have hr := h.modifyAll_left hf ids
  have hr' := ((h.symm S).refl_left S).modifyAll_left hf ids'
  rw [← hids] at hr'
  exact hr.trans S (hr'.symm S)

/-- Making a tap for any interface changes nothing. -/
theorem build_left (S : Steady same) (h : Alike same i r r') (now : Nat) (j : Int32) :
    Alike same i (r.build now j).1 r' := by
  have hlink : Alike same i (r.observe ⟨now, none⟩ (Host.lookUp j r.host)) r' :=
    h.observe_left (concerns_none i now) (S.lookUp h.host j)
  have hroutes : Alike same i ((r.observe ⟨now, none⟩ (Host.lookUp j r.host)).observe ⟨now, none⟩
      (Host.listRoutes (Host.lookUp j r.host).after)) r' :=
    hlink.observe_left (concerns_none i now) (S.listRoutes (S.lookUp h.host j))
  dsimp only [build]
  split
  · exact hlink.note_aside now _
  · split
    · exact hroutes
    · exact hroutes.note_aside now _
    · have hnoted (n n' : Notice) := (hroutes.note_aside now n).note_aside now n'
      split
      · exact hnoted _ _
      · exact (hnoted _ _).noteFindings_left now _

/-- Both would make the same tap. -/
theorem build_answer (S : Steady same) (h : Alike same i r r') (now : Nat) (j : Int32) :
    (r.build now j).2 = (r'.build now j).2 := by
  have hlink := S.link h.host j
  have hroutes : (Host.listRoutes (r.observe ⟨now, none⟩ (Host.lookUp j r.host)).host).answer =
      (Host.listRoutes (r'.observe ⟨now, none⟩ (Host.lookUp j r'.host)).host).answer :=
    S.routes (S.lookUp_both h.host j)
  have htiming : r.timing = r'.timing := h.timing
  dsimp only [build]
  rw [hlink]
  split
  · rfl
  · rw [hroutes]
    split
    · rfl
    · rfl
    · split
      · rfl
      · exact congrArg (fun x => Except.ok (Tap.make x _ _)) htiming

/-- Serving another interface changes nothing, as long as its routes are possible. -/
theorem add_left (S : Steady same) (h : Alike same i r r') (ho : Orderly r) (hj : j ≠ i)
    {now : Nat} (hn : (r.add now j).1.halt ≠ some .failed) :
    Alike same i (r.add now j).1 r' := by
  have hb := h.build_left S now j
  have ha := (r.build_spec now j).1
  rw [add_eq] at hn ⊢
  cases hr : r.build now j with
  | mk q x =>
    rw [hr] at hb ha hn
    cases x with
    | ok t => exact hb.install_left (ho.aside ha) hj now t
    | error o =>
      cases o with
      | impossibleRoute => exact absurd rfl hn
      | refused e => cases e <;> exact hb.note_aside now _

theorem add (S : Steady same) (h : Alike same i r r') (ho : Orderly r) (ho' : Orderly r')
    (now : Nat) (j : Int32) : Alike same i (r.add now j).1 (r'.add now j).1 := by
  have hb := (((h.build_left S now j).symm S).build_left S now j).symm S
  have ha := (r.build_spec now j).1
  have ha' := (r'.build_spec now j).1
  have hx := h.build_answer S now j
  rw [add_eq, add_eq]
  cases hr : r.build now j with
  | mk q x =>
    cases hr' : r'.build now j with
    | mk q' x' =>
      rw [hr, hr'] at hb hx
      rw [hr] at ha
      rw [hr'] at ha'
      obtain rfl : x = x' := hx
      cases x with
      | ok t =>
        by_cases hj : j = i
        · subst hj
          exact hb.install (ho.aside ha) now t
        · have hq := hb.install_left (ho.aside ha) hj now t
          exact ((hq.symm S).install_left (ho'.aside ha') hj now t).symm S
      | error o =>
        cases o with
        | impossibleRoute => exact { hb with halt := rfl }
        | refused e => cases e <;> exact hb.note ⟨now, none⟩ _

theorem close (S : Steady same) (h : Alike same i r r') (ho : Orderly r) (ho' : Orderly r')
    (j : Int32) : Alike same i (r.close j) (r'.close j) := by
  by_cases hj : j = i
  · subst hj
    unfold Responder.close
    rw [← h.registry]
    split
    · exact h
    · rename_i id hid
      have herase : Alike same j { r with registry := r.registry.erase j }
          { r' with registry := r'.registry.erase j } :=
        { h with registry := by rw [Table.get?_erase_self, Table.get?_erase_self] }
      exact herase.modifyTap (ho.registered j id hid).1 blind_cancel
  · exact (((h.close_left ho hj).symm S).close_left ho' hj).symm S

theorem closeAll (S : Steady same) (h : Alike same i r r') (ho : Orderly r) (ho' : Orderly r') :
    Alike same i r.closeAll r'.closeAll := by
  have hserving (q : Responder σ) (hq : Orderly q) :
      q.registry.values.filter (·.index = i) = (q.registry.get? i).toList := by
    refine Table.filter_values fun j id hj => ?_
    rw [decide_eq_true_eq, (hq.registered j id hj).1]
  have hempty : Alike same i { r with registry := .empty } { r' with registry := .empty } :=
    { h with registry := rfl }
  refine hempty.modifyAll S blind_cancel ?_
  rw [hserving r ho, hserving r' ho', h.registry]

end Alike

end Responder

end RouterAdvert
