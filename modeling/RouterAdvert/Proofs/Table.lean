import RouterAdvert.Proofs.Loop
import RouterAdvert.Table

/-! The keys and the values of a table after a change, and totals over the values. -/
namespace RouterAdvert.Table

variable {κ α : Type}

theorem length_keys (t : Table κ α) : t.keys.length = t.size := List.length_map _

variable [DecidableEq κ]

@[simp] theorem get?_empty (k : κ) : (empty : Table κ α).get? k = none := rfl

theorem isSome_get?_iff {t : Table κ α} {k : κ} : (t.get? k).isSome ↔ k ∈ t.keys := by
  rw [← Decidable.not_iff_not, Bool.not_eq_true, Option.isSome_eq_false_iff,
    Option.isNone_iff_eq_none]
  exact get?_eq_none_iff

theorem mem_values_of_get? {t : Table κ α} {k : κ} {a : α} (h : t.get? k = some a) :
    a ∈ t.values := by
  obtain ⟨r, hr, rfl⟩ := Option.map_eq_some_iff.mp h
  exact List.mem_map_of_mem (List.mem_of_find?_eq_some hr)

/-- With distinct keys, each row is the first with its key. -/
theorem find?_of_mem {rows : List (κ × α)} (hn : (rows.map (·.1)).Nodup) {r : κ × α}
    (h : r ∈ rows) : rows.find? (·.1 = r.1) = some r := by
  induction rows with
  | nil => cases h
  | cons x rows ih =>
    obtain ⟨hx, hrows⟩ : x.1 ∉ rows.map (·.1) ∧ (rows.map (·.1)).Nodup := List.nodup_cons.mp hn
    rcases List.mem_cons.mp h with rfl | h
    · simp
    · have hne : x.1 ≠ r.1 := fun hk => hx (hk ▸ List.mem_map_of_mem h)
      simp [hne, ih hrows h]

theorem exists_get?_of_mem_values {t : Table κ α} {a : α} (h : a ∈ t.values) :
    ∃ k, t.get? k = some a := by
  obtain ⟨r, hr, rfl⟩ := List.mem_map.mp h
  exact ⟨r.1, congrArg (Option.map _) (find?_of_mem t.nodup hr)⟩

theorem get?_insert_eq_some_iff {t : Table κ α} {k x : κ} {a b : α} :
    (t.insert k a).get? x = some b ↔ x = k ∧ a = b ∨ x ≠ k ∧ t.get? x = some b := by
  by_cases h : x = k
  · subst h
    simp
  · simp [h]

theorem isSome_get?_insert_iff {t : Table κ α} {k x : κ} {a : α} :
    ((t.insert k a).get? x).isSome ↔ x = k ∨ (t.get? x).isSome := by
  by_cases h : x = k
  · subst h
    simp
  · simp [h]

theorem get?_erase_eq_some_iff {t : Table κ α} {k x : κ} {b : α} :
    (t.erase k).get? x = some b ↔ t.get? x = some b ∧ x ≠ k := by
  by_cases h : x = k
  · subst h
    simp
  · simp [h]

/-- A new key goes to the end of the keys. -/
theorem keys_insert_of_none {t : Table κ α} {k : κ} (h : t.get? k = none) (a : α) :
    (t.insert k a).keys = t.keys ++ [k] := by
  simp [insert, h, push, keys]

theorem keys_insert_of_some {t : Table κ α} {k : κ} (h : (t.get? k).isSome) (a : α) :
    (t.insert k a).keys = t.keys := by
  have hn : ¬t.get? k = none := by simpa [Option.isSome_iff_ne_none] using h
  rw [insert, dif_neg hn]
  exact keys_changed k (fun _ => a) t.rows

theorem changed_of_not_mem {k : κ} {f : α → α} {rows : List (κ × α)} (h : k ∉ rows.map (·.1)) :
    changed k f rows = rows := by
  have hid (r : κ × α) (hr : r ∈ rows) : (if r.1 = k then (k, f r.2) else r) = r := by
    refine if_neg fun hk => h ?_
    rw [← hk]
    exact List.mem_map_of_mem hr
  exact (List.map_congr_left hid).trans (List.map_id' rows)

theorem values_insert_of_some {t : Table κ α} {k : κ} {b : α} (h : t.get? k = some b) :
    ∃ before after, t.values = before ++ b :: after ∧
      ∀ a, (t.insert k a).values = before ++ a :: after := by
  obtain ⟨r, hr, rfl⟩ := Option.map_eq_some_iff.mp h
  obtain ⟨hk, before, after, hrows, -⟩ := List.find?_eq_some_iff_append.mp hr
  have hk : r.1 = k := by simpa using hk
  have hn := t.nodup
  rw [hrows, List.map_append, List.map_cons, List.nodup_append, List.nodup_cons, hk] at hn
  obtain ⟨-, ⟨hafter, -⟩, hdisjoint⟩ := hn
  have hbefore : k ∉ before.map (·.1) := fun hm => hdisjoint k hm k List.mem_cons_self rfl
  refine ⟨before.map (·.2), after.map (·.2), by simp [values, hrows], fun a => ?_⟩
  have hsome : ¬t.get? k = none := by simp [h]
  rw [insert, dif_neg hsome]
  have hsplit : changed k (fun _ => a) t.rows =
      changed k (fun _ => a) before ++ (k, a) :: changed k (fun _ => a) after := by
    simp [changed, hrows, hk]
  simp [values, modify, hsplit, changed_of_not_mem hbefore, changed_of_not_mem hafter]

theorem values_insert_of_none {t : Table κ α} {k : κ} (h : t.get? k = none) (a : α) :
    (t.insert k a).values = t.values ++ [a] := by
  simp [insert, h, push, values]

theorem total_insert_of_some {t : Table κ α} {k : κ} {b : α} (f : α → Nat)
    (h : t.get? k = some b) (a : α) :
    total f (t.insert k a).values + f b = total f t.values + f a := by
  obtain ⟨before, after, hv, hi⟩ := values_insert_of_some h
  rw [hv, hi]
  simp only [total_append, total_cons]
  omega

theorem total_insert_of_none {t : Table κ α} {k : κ} (f : α → Nat) (h : t.get? k = none)
    (a : α) : total f (t.insert k a).values = total f t.values + f a := by
  rw [values_insert_of_none h, total_append, total_cons, total_nil, Nat.add_zero]

theorem size_insert_of_none {t : Table κ α} {k : κ} (h : t.get? k = none) (a : α) :
    (t.insert k a).size = t.size + 1 := by
  simp [insert, h, push, size]

theorem size_insert_le (t : Table κ α) (k : κ) (a : α) : (t.insert k a).size ≤ t.size + 1 := by
  unfold insert
  split
  · simp [push, size]
  · simp [modify, changed, size]

theorem size_erase_le (t : Table κ α) (k : κ) : (t.erase k).size ≤ t.size :=
  List.length_filter_le _ _

theorem size_erase_lt {t : Table κ α} {k : κ} (h : (t.get? k).isSome) :
    (t.erase k).size < t.size := by
  obtain ⟨r, hr, hk⟩ := List.mem_map.mp (isSome_get?_iff.mp h)
  refine List.length_filter_lt_length_iff_exists.mpr ⟨r, hr, ?_⟩
  simp [hk]

end RouterAdvert.Table
