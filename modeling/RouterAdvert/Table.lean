/-! Finite tables in insertion order: one row for each key, and a key that is written again keeps
its place. Looking up what was inserted, erased or modified gives what one expects. -/
namespace RouterAdvert

structure Table (κ : Type) (α : Type) where
  rows : List (κ × α)
  nodup : (rows.map (·.1)).Nodup

namespace Table

variable {κ α : Type} [DecidableEq κ]

def empty : Table κ α := ⟨[], List.Pairwise.nil⟩

def get? (t : Table κ α) (k : κ) : Option α := (t.rows.find? (·.1 = k)).map (·.2)

def contains (t : Table κ α) (k : κ) : Bool := (t.get? k).isSome

def keys (t : Table κ α) : List κ := t.rows.map (·.1)

def values (t : Table κ α) : List α := t.rows.map (·.2)

def size (t : Table κ α) : Nat := t.rows.length

/-- The rows with another value for `k` where it occurs. -/
def changed (k : κ) (f : α → α) (rows : List (κ × α)) : List (κ × α) :=
  rows.map fun r => if r.1 = k then (k, f r.2) else r

theorem keys_changed (k : κ) (f : α → α) (rows : List (κ × α)) :
    (changed k f rows).map (·.1) = rows.map (·.1) := by
  rw [changed, List.map_map]
  refine List.map_congr_left fun r _ => ?_
  by_cases h : r.1 = k <;> simp [h]

/-- Changes the row of `k`, if there is one. -/
def modify (t : Table κ α) (k : κ) (f : α → α) : Table κ α :=
  ⟨changed k f t.rows, by rw [keys_changed]; exact t.nodup⟩

theorem get?_eq_none_iff {t : Table κ α} {k : κ} : t.get? k = none ↔ k ∉ t.keys := by
  simp only [get?, Option.map_eq_none_iff, List.find?_eq_none, decide_eq_true_eq, keys,
    List.mem_map, not_exists, not_and]

/-- Adds a row for a new key at the end. -/
def push (t : Table κ α) (k : κ) (a : α) (h : t.get? k = none) : Table κ α :=
  ⟨t.rows ++ [(k, a)], by
    have hk : k ∉ t.rows.map (·.1) := get?_eq_none_iff.1 h
    rw [List.map_append, List.nodup_append]
    refine ⟨t.nodup, by simp, fun x hx y hy hxy => hk ?_⟩
    have hy : y = k := by simpa using hy
    rwa [← hy, ← hxy]⟩

/-- A new key goes to the end. -/
def insert (t : Table κ α) (k : κ) (a : α) : Table κ α :=
  if h : t.get? k = none then t.push k a h else t.modify k fun _ => a

def erase (t : Table κ α) (k : κ) : Table κ α :=
  ⟨t.rows.filter (·.1 ≠ k), t.nodup.sublist (List.filter_sublist.map _)⟩

theorem find?_changed_self (k : κ) (f : α → α) (rows : List (κ × α)) :
    ((changed k f rows).find? (·.1 = k)).map (·.2) =
      ((rows.find? (·.1 = k)).map (·.2)).map f := by
  induction rows with
  | nil => rfl
  | cons r rs ih =>
    by_cases h : r.1 = k
    · simp [changed, h]
    · simpa [changed, h] using ih

theorem find?_changed_of_ne {k k' : κ} (hk : k' ≠ k) (f : α → α) (rows : List (κ × α)) :
    ((changed k f rows).find? (·.1 = k')).map (·.2) = (rows.find? (·.1 = k')).map (·.2) := by
  induction rows with
  | nil => rfl
  | cons r rs ih =>
    by_cases h : r.1 = k
    · have hr : ¬r.1 = k' := fun e => hk (e.symm.trans h)
      simpa [changed, h, hr, Ne.symm hk] using ih
    · by_cases hr : r.1 = k'
      · simp [changed, hr, hk]
      · simpa [changed, h, hr] using ih

@[simp] theorem get?_modify_self (t : Table κ α) (k : κ) (f : α → α) :
    (t.modify k f).get? k = (t.get? k).map f := find?_changed_self k f t.rows

@[simp] theorem get?_modify_of_ne (t : Table κ α) {k k' : κ} (h : k' ≠ k) (f : α → α) :
    (t.modify k f).get? k' = t.get? k' := find?_changed_of_ne h f t.rows

theorem get?_push_self (t : Table κ α) (k : κ) (a : α) (h : t.get? k = none) :
    (t.push k a h).get? k = some a := by
  have hf : t.rows.find? (·.1 = k) = none := Option.map_eq_none_iff.1 h
  simp [push, get?, List.find?_append, hf]

theorem get?_push_of_ne (t : Table κ α) {k k' : κ} (hk : k' ≠ k) (a : α) (h : t.get? k = none) :
    (t.push k a h).get? k' = t.get? k' := by
  simp [push, get?, List.find?_append, Ne.symm hk]

@[simp] theorem get?_insert_self (t : Table κ α) (k : κ) (a : α) :
    (t.insert k a).get? k = some a := by
  unfold insert
  split
  · exact get?_push_self t k a _
  · rename_i h
    obtain ⟨b, hb⟩ := Option.ne_none_iff_exists'.1 h
    simp [hb]

@[simp] theorem get?_insert_of_ne (t : Table κ α) {k k' : κ} (hk : k' ≠ k) (a : α) :
    (t.insert k a).get? k' = t.get? k' := by
  unfold insert
  split
  · exact get?_push_of_ne t hk a _
  · exact get?_modify_of_ne t hk _

@[simp] theorem get?_erase_self (t : Table κ α) (k : κ) : (t.erase k).get? k = none := by
  rw [get?_eq_none_iff]
  simp [erase, keys]

@[simp] theorem get?_erase_of_ne (t : Table κ α) {k k' : κ} (hk : k' ≠ k) :
    (t.erase k).get? k' = t.get? k' := by
  simp only [get?, erase, List.find?_filter]
  congr 2
  funext r
  by_cases hr : r.1 = k' <;> simp [hr, hk]

end Table

end RouterAdvert
