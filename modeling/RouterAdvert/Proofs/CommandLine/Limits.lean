import RouterAdvert.Daemon
import RouterAdvert.Proofs.CommandLine.Choices

/-! What settings can come to. Every command line that is read, accepted or refused, leaves them
within the limits that the program relies on when it computes its pace, starts its threads and
compiles its pattern: none of this is checked again there. -/
namespace RouterAdvert

namespace Settings

/-- The limits that the command line keeps settings to. -/
structure Within (s : Settings) : Prop where
  interval : 4 ≤ s.interval.toNat ∧ s.interval.toNat ≤ 1800
  threads : 1 ≤ s.threads.toNat ∧ s.threads.toNat ≤ 64
  regex : (Pattern.compile? s.regex).isSome

theorem within_default : Within {} where
  interval := by decide
  threads := by decide
  regex := by decide +kernel

namespace Within

variable {s : Settings}

/-- The product is far below the modulus. -/
theorem toNat_triple (h : Within s) : (3 * s.interval).toNat = 3 * s.interval.toNat := by
  have hi := h.interval
  rw [UInt32.toNat_mul]
  exact Nat.mod_eq_of_lt (by simp; omega)

theorem min_triple (h : Within s) : min (3 * s.interval) maxLifetime = 3 * s.interval := by
  have hle : 3 * s.interval ≤ maxLifetime := by
    have hi := h.interval
    rw [UInt32.le_iff_toNat_le, h.toNat_triple, show maxLifetime.toNat = 9000 from rfl]
    omega
  exact if_pos hle

theorem toNat_lifetime (h : Within s) : s.timing.lifetime.toNat = 3 * s.interval.toNat := by
  have hi := h.interval
  have hmin : s.timing.lifetime = (3 * s.interval).toUInt16 := congrArg UInt32.toUInt16 h.min_triple
  rw [hmin, UInt32.toNat_toUInt16, h.toNat_triple]
  exact Nat.mod_eq_of_lt (by omega)

theorem toNat_workers (h : Within s) : s.workers.toNat + 1 = s.threads.toNat := by
  have ht := h.threads
  have hle : (1 : UInt32) ≤ s.threads := UInt32.le_iff_toNat_le.mpr ht.1
  rw [workers, UInt32.toNat_sub_of_le _ _ hle]
  exact Nat.sub_add_cancel ht.1

end Within

end Settings

namespace CommandLine

open Settings

variable {s : Settings}

/-- A choice that is accepted has been checked. -/
theorem within_choose (h : s.Within) {switch : Switch} {value : Bytes} {t : Settings}
    (ht : choose s switch value = .ok t) : t.Within := by
  cases switch with
  | regex =>
    cases hv : Pattern.compile? value with
    | none => simp [choose, hv] at ht
    | some p =>
      obtain rfl : { s with regex := value } = t := by simpa [choose, hv] using ht
      exact ⟨h.interval, h.threads, by rw [hv]; rfl⟩
  | interval =>
    cases hv : Numeral.read? 4 1800 value with
    | none => simp [Numeral.choose_interval, hv] at ht
    | some n =>
      obtain rfl : { s with interval := n } = t := by
        simpa [Numeral.choose_interval, hv] using ht
      exact ⟨(Numeral.read?_eq_some_iff.mp hv).2, h.threads, h.regex⟩
  | threads =>
    cases hv : Numeral.read? 1 64 value with
    | none => simp [Numeral.choose_threads, hv] at ht
    | some n =>
      obtain rfl : { s with threads := n } = t := by simpa [Numeral.choose_threads, hv] using ht
      exact ⟨h.interval, (Numeral.read?_eq_some_iff.mp hv).2, h.regex⟩
  | syslog | verbose =>
    obtain rfl := Except.ok.inj ht
    exact ⟨h.interval, h.threads, h.regex⟩
  | version | help => cases ht

/-- However the scan ends, it leaves settings that were accepted. -/
theorem within_interpret (h : s.Within) (extra : Option Bytes) (items : List Item) :
    (interpret s extra items).1.Within := by
  induction items generalizing s extra with
  | nil => cases extra <;> exact h
  | cons i items ih =>
    cases i with
    | operand a => exact ih h _
    | choice switch value =>
      unfold interpret
      cases ht : choose s switch value with
      | ok t => exact ih (within_choose h ht) extra
      | error o => exact h
    | unknownLetter | unknownName | missingValue => exact h

theorem within_apply (h : s.Within) (arguments : List Bytes) : (apply s arguments).1.Within :=
  within_interpret h none _

theorem within_applyAll (h : s.Within) (lines : List (List Bytes)) :
    ∀ r ∈ applyAll s lines, r.1.Within := by
  induction lines generalizing s with
  | nil => simp [applyAll]
  | cons arguments lines ih =>
    have ha := within_apply h arguments
    exact List.forall_mem_cons.mpr ⟨ha, ih ha⟩

/-- The settings that command lines leave, one read after the other. -/
def left (lines : List (List Bytes)) : Settings :=
  ((applyAll {} lines).map (·.1)).getLastD {}

theorem within_left (lines : List (List Bytes)) : (left lines).Within := by
  have hall := within_applyAll within_default lines
  unfold left
  cases hr : (applyAll {} lines).getLast? with
  | none => simpa [List.getLastD_eq_getLast?, hr] using within_default
  | some r =>
    simpa [List.getLastD_eq_getLast?, hr] using hall r (List.mem_of_getLast? hr)

/-- The program that is asked to run gets to its watch. -/
theorem run_of_apply {arguments : List Bytes} {t : Settings}
    (h : apply {} arguments = (t, .ok .run)) (k : Kernel)
    (happenings : List (Nat × Daemon.Happening)) (horizon : Nat) :
    ∃ p, Pattern.compile? t.regex = some p ∧
      Daemon.run arguments k happenings horizon =
        let d := Daemon.observe horizon (Daemon.start t p k) happenings
        { status := d.status, trace := d.trace } := by
  have ht : t.Within := by
    have ha := within_apply within_default arguments
    rwa [h] at ha
  obtain ⟨p, hp⟩ := Option.isSome_iff_exists.mp ht.regex
  exact ⟨p, hp, by simp only [Daemon.run, h, hp]⟩

/-- Whatever command lines are read one after the other, and however each of them ends, the settings
are within their limits. So the lifetime announced is three times the interval, without wrapping,
being capped or losing bits; the interval in milliseconds is exact; the threads beside the first one
are counted without wrapping; and the pattern compiles, so that a program that is asked to run gets
to its watch. -/
theorem left_within_limits (lines : List (List Bytes)) :
    let s := left lines
    (4 ≤ s.interval.toNat ∧ s.interval.toNat ≤ 1800 ∧ 1 ≤ s.threads.toNat ∧
      s.threads.toNat ≤ 64 ∧ (Pattern.compile? s.regex).isSome) ∧
    ((3 * s.interval).toNat = 3 * s.interval.toNat ∧
      min (3 * s.interval) maxLifetime = 3 * s.interval ∧
      s.timing.lifetime.toNat = 3 * s.interval.toNat ∧ 0 < s.timing.lifetime.toNat ∧
      s.interval.toNat < s.timing.lifetime.toNat) ∧
    s.timing.advertInterval = 1000 * s.interval.toNat ∧
    s.workers.toNat + 1 = s.threads.toNat ∧
    ∀ arguments t, apply {} arguments = (t, .ok .run) → ∀ k happenings horizon,
      ∃ p, Pattern.compile? t.regex = some p ∧
        Daemon.run arguments k happenings horizon =
          let d := Daemon.observe horizon (Daemon.start t p k) happenings
          { status := d.status, trace := d.trace } := by
  have h := within_left lines
  have hl := h.toNat_lifetime
  have hi := h.interval
  refine ⟨⟨hi.1, hi.2, h.threads.1, h.threads.2, h.regex⟩,
    ⟨h.toNat_triple, h.min_triple, hl, by omega, by omega⟩, Nat.mul_comm _ _, h.toNat_workers,
    fun arguments t ht => run_of_apply ht⟩

/-- A line that is refused at its second choice leaves its first one, and a pattern that does not
compile leaves the one before it. -/
theorem left_of_refused_lines :
    left [["-i1800", "-t0"], ["-r", "tap["]] = { interval := 1800 } ∧
      ({ interval := 1800 } : Settings).timing.lifetime.toNat = 5400 ∧
      apply {} ["-vt64"] = ({ threads := 64, verbose := true }, .ok .run) ∧
      ∃ p, Pattern.compile? "^tap" = some p ∧
        Daemon.run ["-vt64"] {} [] 0 =
          let d := Daemon.observe 0
            (Daemon.start { threads := 64, verbose := true } p {}) []
          { status := d.status, trace := d.trace } := by
  have hleft : left [["-i1800", "-t0"], ["-r", "tap["]] = { interval := 1800 } := by
    decide +kernel
  have happly : apply {} ["-vt64"] = ({ threads := 64, verbose := true }, .ok .run) := by
    decide +kernel
  obtain ⟨-, ⟨-, -, hl, -⟩, -, -, hrun⟩ :=
    left_within_limits [["-i1800", "-t0"], ["-r", "tap["]]
  rw [hleft] at hl
  exact ⟨hleft, hl, happly, hrun _ _ happly {} [] 0⟩

end CommandLine

end RouterAdvert
