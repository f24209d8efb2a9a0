import Mathlib.Data.List.Induction
import Mathlib.Data.List.TakeWhile
import Mathlib.Data.Nat.Digits.Defs
import RouterAdvert.CommandLine

/-! Numbers on the command line. A numeral may have any length and any number of zeros in front, and
it never counts for what is left of it in 32 bits. It can be read in 32 bits nevertheless: digit by
digit, going on to the last one when the number has become too large. -/
namespace RouterAdvert.CommandLine.Numeral

def value (b : Bytes) : Nat := b.foldl (fun n d => 10 * n + (d - 48).toNat) 0

/-- The number that `b` writes, if it lies between the bounds. -/
def read? (low high : UInt32) (b : Bytes) : Option UInt32 :=
  if b ≠ [] ∧ b.all isDigit ∧ low.toNat ≤ value b ∧ value b ≤ high.toNat then
    some (UInt32.ofNat (value b))
  else none

variable {b : Bytes} {c : UInt8} {low high : UInt32}

theorem isDigit_iff : isDigit c = true ↔ 48 ≤ c ∧ c ≤ 57 := by
  rw [isDigit, Bool.and_eq_true, decide_eq_true_eq, decide_eq_true_eq]

theorem toNat_digit (h : isDigit c = true) : (c - 48).toNat = c.toNat - 48 ∧ c.toNat - 48 < 10 := by
  obtain ⟨h₁, h₂⟩ := isDigit_iff.mp h
  have h₂ : c.toNat ≤ 57 := UInt8.le_iff_toNat_le.mp h₂
  exact ⟨UInt8.toNat_sub_of_le _ _ h₁, by omega⟩

theorem value_concat (b : Bytes) (c : UInt8) :
    value (b ++ [c]) = 10 * value b + (c - 48).toNat := by
  simp [value]

/-- The places of a numeral count for powers of ten, the last one for one. -/
theorem value_eq_ofDigits (h : ∀ c ∈ b, isDigit c = true) :
    value b = Nat.ofDigits 10 (b.reverse.map fun c => c.toNat - 48) := by
  induction b using List.reverseRecOn with
  | nil => rfl
  | append_singleton b c ih =>
    have hc := toNat_digit (h c (by simp))
    rw [value_concat, ih fun x hx => h x (by simp [hx]), hc.1]
    simp [Nat.ofDigits_cons, Nat.add_comm]

/-- A number as one of 32 bits, if it fits. -/
def fit? (n : Nat) : Option UInt32 := if n < 2 ^ 32 then some (UInt32.ofNat n) else none

theorem push?_eq (n : UInt32) (h : isDigit c = true) :
    push? n c = fit? (10 * n.toNat + (c - 48).toNat) := by
  have hc := toNat_digit h
  have hd : (c - 48).toUInt32.toNat = (c - 48).toNat := UInt8.toNat_toUInt32 _
  have hle : (c - 48).toUInt32 ≤ 0xffffffff := UInt32.le_iff_toNat_le.mpr (by simp; omega)
  have hroom : ((0xffffffff - (c - 48).toUInt32) / 10).toNat =
      (4294967295 - (c - 48).toNat) / 10 := by
    rw [UInt32.toNat_div, UInt32.toNat_sub_of_le _ _ hle, hd]
    rfl
  -- There is room for the digit exactly if the product and the sum stay below the modulus.
  have hfits : n ≤ (0xffffffff - (c - 48).toUInt32) / 10 ↔
      10 * n.toNat + (c - 48).toNat < 2 ^ 32 := by
    rw [UInt32.le_iff_toNat_le, hroom]
    omega
  unfold push? fit?
  by_cases hlt : 10 * n.toNat + (c - 48).toNat < 2 ^ 32
  · rw [if_pos (hfits.mpr hlt), if_pos hlt]
    refine congrArg some (UInt32.toNat_inj.mp ?_)
    rw [UInt32.toNat_add, UInt32.toNat_mul, hd, UInt32.toNat_ofNat_of_lt' hlt]
    simp only [UInt32.reduceToNat]
    omega
  · rw [if_neg (mt hfits.mp hlt), if_neg hlt]

/-- A number that does not fit does not fit with more digits behind it either. -/
theorem bind_push?_fit? (n : Nat) (h : isDigit c = true) :
    (fit? n).bind (push? · c) = fit? (10 * n + (c - 48).toNat) := by
  by_cases hn : n < 2 ^ 32
  · have hfit : fit? n = some (UInt32.ofNat n) := if_pos hn
    rw [hfit, Option.bind_some, push?_eq _ h, UInt32.toNat_ofNat_of_lt' hn]
  · have hfit : fit? n = none := if_neg hn
    have hmore : fit? (10 * n + (c - 48).toNat) = none := if_neg (by omega)
    rw [hfit, hmore, Option.bind_none]

theorem scanOn_fit? (n : Nat) (b : Bytes) :
    scanOn (fit? n) b =
      (fit? ((b.takeWhile isDigit).foldl (fun n d => 10 * n + (d - 48).toNat) n),
        b.dropWhile isDigit) := by
  induction b generalizing n with
  | nil => rfl
  | cons c b ih =>
    rw [scanOn]
    by_cases hc : isDigit c = true
    · rw [if_pos hc, bind_push?_fit? n hc, ih, List.takeWhile_cons_of_pos hc,
        List.dropWhile_cons_of_pos hc, List.foldl_cons]
    · rw [if_neg hc, List.takeWhile_cons_of_neg hc, List.dropWhile_cons_of_neg hc, List.foldl_nil]

/-- The scan finds the number that the digits in front write, if there are any and it fits, and goes
on behind them in any case. -/
theorem scan_eq (b : Bytes) :
    scan b =
      if b.takeWhile isDigit = [] then (.error .noDigit, b)
      else if value (b.takeWhile isDigit) < 2 ^ 32 then
        (.ok (UInt32.ofNat (value (b.takeWhile isDigit))), b.dropWhile isDigit)
      else (.error .tooLarge, b.dropWhile isDigit) := by
  have hscan : scanOn (some 0) b = (fit? (value (b.takeWhile isDigit)), b.dropWhile isDigit) :=
    scanOn_fit? 0 b
  have hfirst : b.head?.any isDigit = true ↔ b.takeWhile isDigit ≠ [] := by
    cases b with
    | nil => simp
    | cons c b => by_cases hc : isDigit c = true <;> simp [hc]
  unfold scan
  by_cases hne : b.takeWhile isDigit = []
  · rw [if_neg (mt hfirst.mp (not_not_intro hne)), if_pos hne]
  · rw [if_pos (hfirst.mpr hne), if_neg hne, hscan, fit?]
    by_cases hlt : value (b.takeWhile isDigit) < 2 ^ 32
    · rw [if_pos hlt, if_pos hlt]
    · rw [if_neg hlt, if_neg hlt]

/-- A scan that stops at something else does not count, whatever it has found. -/
theorem assign_of_stray (h : ¬∀ c ∈ b, isDigit c = true) (out : UInt32) :
    assign low high b out = (false, out) := by
  obtain ⟨c, rest, hrest⟩ := List.exists_cons_of_ne_nil (mt List.dropWhile_eq_nil_iff.mp h)
  rw [assign, scan_eq, hrest]
  split_ifs <;> rfl

theorem assign_of_digits (hne : b ≠ []) (h : ∀ c ∈ b, isDigit c = true) (out : UInt32) :
    assign low high b out =
      if low.toNat ≤ value b ∧ value b ≤ high.toNat then (true, UInt32.ofNat (value b))
      else (false, out) := by
  have hhigh := high.toNat_lt
  rw [assign, scan_eq, List.takeWhile_eq_self_iff.mpr h, List.dropWhile_eq_nil_iff.mpr h,
    if_neg hne]
  by_cases hlt : value b < 2 ^ 32
  · have hn : (UInt32.ofNat (value b)).toNat = value b := UInt32.toNat_ofNat_of_lt' hlt
    have hout : UInt32.ofNat (value b) < low ∨ high < UInt32.ofNat (value b) ↔
        ¬(low.toNat ≤ value b ∧ value b ≤ high.toNat) := by
      rw [UInt32.lt_iff_toNat_lt, UInt32.lt_iff_toNat_lt, hn]
      omega
    rw [if_pos hlt, ← ite_not, ← if_congr hout rfl rfl]
  · rw [if_neg hlt, if_neg (by omega)]

/-- Reading in 32 bits comes to the same as comparing the number itself with the bounds. -/
theorem assign_eq (low high : UInt32) (b : Bytes) (out : UInt32) :
    assign low high b out =
      match read? low high b with
      | some n => (true, n)
      | none => (false, out) := by
  by_cases h : b ≠ [] ∧ ∀ c ∈ b, isDigit c = true
  · rw [assign_of_digits h.1 h.2]
    by_cases hin : low.toNat ≤ value b ∧ value b ≤ high.toNat
    · rw [if_pos hin, read?, if_pos ⟨h.1, List.all_eq_true.mpr h.2, hin⟩]
    · rw [if_neg hin, read?, if_neg fun hr => hin hr.2.2]
  · have hread : read? low high b = none :=
      if_neg fun hr => h ⟨hr.1, List.all_eq_true.mp hr.2.1⟩
    rw [hread]
    by_cases hne : b = []
    · subst hne
      rfl
    · exact assign_of_stray (fun hall => h ⟨hne, hall⟩) out

/-- All of `b` is one numeral, of the number `n`. -/
structure Writes (b : Bytes) (n : Nat) : Prop where
  ne_nil : b ≠ []
  digits : ∀ c ∈ b, isDigit c = true
  value_eq : value b = n

theorem decimal_digit (h : isDigit c = true) : Bytes.decimal (c.toNat - 48) = [c] := by
  have hc := (toNat_digit h).2
  have hle : 48 ≤ c.toNat := UInt8.le_iff_toNat_le.mp (isDigit_iff.mp h).1
  have hsum : 48 + (c.toNat - 48) = c.toNat := by omega
  rw [Bytes.decimal, Nat.toDigits_of_lt_base hc, List.map_singleton,
    Nat.toNat_digitChar_of_lt_ten hc, hsum]
  exact congrArg (fun x => [x]) UInt8.ofNat_toNat

theorem decimal_concat {n : Nat} (hn : 0 < n) (h : isDigit c = true) :
    Bytes.decimal (10 * n + (c.toNat - 48)) = Bytes.decimal n ++ [c] := by
  rw [← decimal_digit h, Bytes.decimal,
    ← Nat.toDigits_append_toDigits (by decide) hn (toNat_digit h).2, List.map_append]
  rfl

namespace Writes

variable {n : Nat}

theorem digit (h : isDigit c = true) : Writes [c] (c.toNat - 48) where
  ne_nil := by simp
  digits := by simpa using h
  value_eq := by simpa [value] using (toNat_digit h).1

theorem concat (hb : Writes b n) (h : isDigit c = true) :
    Writes (b ++ [c]) (10 * n + (c.toNat - 48)) where
  ne_nil := by simp
  digits x hx := by
    obtain hx | hx := List.mem_append.mp hx
    · exact hb.digits x hx
    · rwa [List.mem_singleton.mp hx]
  value_eq := by rw [value_concat, hb.value_eq, (toNat_digit h).1]

/-- Zeros in front do not count. -/
theorem pad (hb : Writes b n) (k : Nat) : Writes (List.replicate k 48 ++ b) n where
  ne_nil := by simp [hb.ne_nil]
  digits x hx := by
    obtain hx | hx := List.mem_append.mp hx
    · rw [List.eq_of_mem_replicate hx]
      rfl
    · exact hb.digits x hx
  value_eq := by
    induction k with
    | zero => exact hb.value_eq
    | succ k ih => exact ih

end Writes

theorem exists_digit {d : Nat} (h : d < 10) : ∃ c, isDigit c = true ∧ c.toNat - 48 = d := by
  have hall : ∀ d < 10, isDigit (48 + d.toUInt8) = true ∧ (48 + d.toUInt8).toNat - 48 = d := by
    decide
  exact ⟨_, hall d h⟩

theorem writes_decimal (n : Nat) : Writes (Bytes.decimal n) n := by
  induction n using Nat.strong_induction_on with
  | h n ih =>
    by_cases hn : n < 10
    · obtain ⟨c, hc, rfl⟩ := exists_digit hn
      rw [decimal_digit hc]
      exact .digit hc
    · obtain ⟨c, hc, hd⟩ := exists_digit (Nat.mod_lt n (by decide : 0 < 10))
      have hsplit : 10 * (n / 10) + (c.toNat - 48) = n := by omega
      rw [← hsplit, decimal_concat (by omega) hc]
      exact (ih (n / 10) (by omega)).concat hc

/-- A numeral is the decimal form of its number with zeros in front. -/
theorem Writes.eq_padded {n : Nat} (h : Writes b n) :
    ∃ k, b = List.replicate k 48 ++ Bytes.decimal n := by
  induction b using List.reverseRecOn generalizing n with
  | nil => exact absurd rfl h.ne_nil
  | append_singleton b c ih =>
    have hc : isDigit c = true := h.digits c (by simp)
    obtain rfl : 10 * value b + (c.toNat - 48) = n := by
      rw [← h.value_eq, value_concat, (toNat_digit hc).1]
    by_cases hb : b = []
    · subst hb
      exact ⟨0, by rw [value, List.foldl_nil, Nat.mul_zero, Nat.zero_add, decimal_digit hc]; rfl⟩
    · obtain ⟨k, hk⟩ := ih ⟨hb, fun x hx => h.digits x (by simp [hx]), rfl⟩
      by_cases hv : value b = 0
      -- In front of the last digit there are only zeros, the decimal form of zero among them.
      · rw [hv] at hk
        refine ⟨k + 1, ?_⟩
        rw [hv, Nat.mul_zero, Nat.zero_add, decimal_digit hc, hk, List.replicate_succ']
        rfl
      · refine ⟨k, ?_⟩
        rw [decimal_concat (Nat.pos_of_ne_zero hv) hc, ← List.append_assoc, ← hk]

theorem writes_iff_decimal {n : Nat} :
    Writes b n ↔ ∃ k, b = List.replicate k 48 ++ Bytes.decimal n := by
  constructor
  · exact Writes.eq_padded
  · rintro ⟨k, rfl⟩
    exact (writes_decimal n).pad k

/-- Digits, at least one, and what they come to in powers of ten. -/
theorem writes_iff_ofDigits {n : Nat} : Writes b n ↔
    b ≠ [] ∧ (∀ c ∈ b, 48 ≤ c ∧ c ≤ 57) ∧
      Nat.ofDigits 10 (b.reverse.map fun c => c.toNat - 48) = n := by
  simp only [← isDigit_iff]
  constructor
  · intro h
    exact ⟨h.ne_nil, h.digits, (value_eq_ofDigits h.digits).symm.trans h.value_eq⟩
  · rintro ⟨hne, hall, hn⟩
    exact ⟨hne, hall, (value_eq_ofDigits hall).trans hn⟩

theorem read?_eq_some_iff {n : UInt32} :
    read? low high b = some n ↔ Writes b n.toNat ∧ low.toNat ≤ n.toNat ∧ n.toNat ≤ high.toNat := by
  have hhigh := high.toNat_lt
  unfold read?
  constructor
  · intro h
    split at h
    · rename_i hb
      obtain ⟨hne, hall, hin⟩ := hb
      have hn : (UInt32.ofNat (value b)).toNat = value b :=
        UInt32.toNat_ofNat_of_lt' (Nat.lt_of_le_of_lt hin.2 hhigh)
      rw [← Option.some.inj h, hn]
      exact ⟨⟨hne, List.all_eq_true.mp hall, rfl⟩, hin⟩
    · cases h
  · rintro ⟨hb, hin⟩
    rw [if_pos ⟨hb.ne_nil, List.all_eq_true.mpr hb.digits, hb.value_eq ▸ hin⟩, hb.value_eq]
    exact congrArg some UInt32.ofNat_toNat

/-- A value is read exactly if some numeral of a number between the bounds is written. -/
theorem isSome_read?_iff :
    (read? low high b).isSome ↔ ∃ n, Writes b n ∧ low.toNat ≤ n ∧ n ≤ high.toNat := by
  rw [Option.isSome_iff_exists]
  constructor
  · rintro ⟨n, h⟩
    exact ⟨n.toNat, read?_eq_some_iff.mp h⟩
  · rintro ⟨n, hb, hin⟩
    have hn : (UInt32.ofNat n).toNat = n :=
      UInt32.toNat_ofNat_of_lt' (Nat.lt_of_le_of_lt hin.2 high.toNat_lt)
    exact ⟨UInt32.ofNat n, read?_eq_some_iff.mpr (by rw [hn]; exact ⟨hb, hin⟩)⟩

/-- What is assigned is also what is read. -/
theorem read?_eq_assign (low high : UInt32) (b : Bytes) (out : UInt32) :
    read? low high b =
      if (assign low high b out).1 then some (assign low high b out).2 else none := by
  rw [assign_eq]
  cases read? low high b <;> rfl

/-- The interval is what is read of the value. -/
theorem choose_interval (s : Settings) (b : Bytes) :
    choose s .interval b =
      match read? 4 1800 b with
      | some n => .ok { s with interval := n }
      | none => .error (.error (.interval b)) := by
  simp only [choose, assign_eq]
  cases read? 4 1800 b <;> rfl

theorem choose_threads (s : Settings) (b : Bytes) :
    choose s .threads b =
      match read? 1 64 b with
      | some n => .ok { s with threads := n }
      | none => .error (.error (.threads b)) := by
  simp only [choose, assign_eq]
  cases read? 1 64 b <;> rfl

/-- A number is assigned exactly if the bytes are decimal digits, at least one, whose number lies
between the bounds, however many zeros are in front; it is that number, without wrapping. Nothing is
assigned otherwise. This is how the interval and the number of threads are set. -/
theorem assign_accepts (low high : UInt32) (b : Bytes) (out : UInt32) :
    let v := Nat.ofDigits 10 (b.reverse.map fun c => c.toNat - 48)
    let r := assign low high b out
    (r.1 = true ↔ b ≠ [] ∧ (∀ c ∈ b, 48 ≤ c ∧ c ≤ 57) ∧ low.toNat ≤ v ∧ v ≤ high.toNat) ∧
    (r.1 = true → r.2.toNat = v) ∧
    (r.1 = false → r.2 = out) ∧
    (r.1 = true ↔ ∃ n k, b = List.replicate k 48 ++ Bytes.decimal n ∧
      low.toNat ≤ n ∧ n ≤ high.toNat) ∧
    read? low high b = (if r.1 then some r.2 else none) ∧
    ∀ s : Settings,
      choose s .interval b = (let r := assign 4 1800 b s.interval
        if r.1 then .ok { s with interval := r.2 } else .error (.error (.interval b))) ∧
      choose s .threads b = (let r := assign 1 64 b s.threads
        if r.1 then .ok { s with threads := r.2 } else .error (.error (.threads b))) := by
  intro v r
  have hread : read? low high b = if r.1 then some r.2 else none :=
    read?_eq_assign low high b out
  have hr : r.1 = true ↔ ∃ n, Writes b n ∧ low.toNat ≤ n ∧ n ≤ high.toNat := by
    rw [← isSome_read?_iff, hread]
    cases r.1 <;> simp
  refine ⟨?_, fun h => ?_, fun h => ?_, ?_, hread, fun s => ⟨?_, ?_⟩⟩
  · rw [hr]
    simp only [writes_iff_ofDigits, and_assoc, exists_and_left, exists_eq_left', v]
  · rw [if_pos h] at hread
    obtain ⟨hb, -⟩ := read?_eq_some_iff.mp hread
    exact (writes_iff_ofDigits.mp hb).2.2.symm
  · have hassign := assign_eq low high b out
    rw [hread, if_neg (Bool.eq_false_iff.mp h)] at hassign
    exact congrArg Prod.snd hassign
  · rw [hr]
    simp only [writes_iff_decimal, exists_and_right]
  · simp only [choose]
    generalize assign 4 1800 b s.interval = r
    obtain ⟨_ | _, n⟩ := r <;> rfl
  · simp only [choose]
    generalize assign 1 64 b s.threads = r
    obtain ⟨_ | _, n⟩ := r <;> rfl

/-- Zeros in front do not count, and a number does not count for what is left of it in 32 bits. -/
theorem assign_accepts_padded :
    ((assign 4 1800 "00010" 7).1 = true ∧ (assign 4 1800 "00010" 7).2.toNat = 10) ∧
      (assign 4 1800 "4294967306" 7).1 = false ∧ (assign 4 1800 "4294967306" 7).2 = 7 := by
  have hten : (assign 4 1800 "00010" 7).1 = true := by decide +kernel
  have hlarge : (assign 4 1800 "4294967306" 7).1 = false := by decide +kernel
  obtain ⟨-, hvalue, -⟩ := assign_accepts 4 1800 "00010" 7
  obtain ⟨-, -, hkept, -⟩ := assign_accepts 4 1800 "4294967306" 7
  exact ⟨⟨hten, (hvalue hten).trans (by decide +kernel)⟩, hlarge, hkept hlarge⟩

/-- Signs, blanks and units are not read over. -/
example : ∀ b ∈ (["+5", "-5", " 5", "5 ", "5s", ""] : List Bytes), read? 4 1800 b = none := by
  decide +kernel

end RouterAdvert.CommandLine.Numeral
