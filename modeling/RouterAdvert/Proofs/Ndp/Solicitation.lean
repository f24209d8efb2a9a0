import RouterAdvert.Ndp.Solicitation
import RouterAdvert.Proofs.Ndp.Options

/-! Which octets are a router solicitation, and which rule all others break first. The check comes
to the same verdict when it fetches each octet by its place in the message, and never fetches one
that is not there. -/
namespace RouterAdvert.Ndp.Solicitation

/-- Whether an option gives the link-layer address of the sender. -/
def isSourceLink (o : Bytes) : Bool := o.head? = some sourceLinkType

/-- Options that break no rule where they stand. `seen` tells whether a Source Link-Layer Address
came before them. -/
structure Allowed (seen : Bool) (os : List Bytes) : Prop where
  option : ∀ o ∈ os, IsOption o
  single : seen.toNat + os.countP isSourceLink ≤ 1
  size : ∀ o ∈ os, isSourceLink o = true → o[1]? = some 1

/-- The first rule that is broken by the octets of the next option, or of what is none. -/
inductive Faulty (seen : Bool) : Bytes → Verdict → Prop
  | lone (type : UInt8) : Faulty seen [type] .badOptionLength
  | length {type units : UInt8} {body : Bytes}
    (h : units = 0 ∨ (type :: units :: body).length < 8 * units.toNat) :
    Faulty seen (type :: units :: body) .badOptionLength
  | second {units : UInt8} {body : Bytes} (hz : units ≠ 0)
    (h : 8 * units.toNat ≤ (sourceLinkType :: units :: body).length) (hs : seen = true) :
    Faulty seen (sourceLinkType :: units :: body) .duplicateSourceLink
  | size {units : UInt8} {body : Bytes} (hz : units ≠ 0)
    (h : 8 * units.toNat ≤ (sourceLinkType :: units :: body).length) (hs : seen = false)
    (hn : units ≠ 1) : Faulty seen (sourceLinkType :: units :: body) .badSourceLink

/-- What is found behind options that break no rule: nothing more, or the first broken rule. -/
inductive Ends (seen : Bool) : Bytes → Except Verdict Bool → Prop
  | done : Ends seen [] (.ok seen)
  | fault {rest : Bytes} {v : Verdict} (h : Faulty seen rest v) : Ends seen rest (.error v)

/-- Options that break no rule, with what is found behind them. -/
def Scanned (seen : Bool) (b : Bytes) (x : Except Verdict Bool) : Prop :=
  ∃ os rest, b = os.flatten ++ rest ∧ Allowed seen os ∧
    Ends (seen || os.any isSourceLink) rest x

/-- The fixed part of a solicitation. -/
structure HasHeader (b : Bytes) : Prop where
  long : 8 ≤ b.length
  type : b[0]? = some 133
  code : b[1]? = some 0

/-- The octets of a valid solicitation, from a sender with an address or without one. -/
def IsSolicitation (b : Bytes) (senderUnspecified : Bool) : Prop :=
  HasHeader b ∧ ∃ os, b.drop 8 = os.flatten ∧ Allowed false os ∧
    (senderUnspecified = true → ∀ o ∈ os, isSourceLink o = false)

/-- The verdict on a message: valid, or the first rule that it breaks. -/
inductive Judged (b : Bytes) (senderUnspecified : Bool) : Verdict → Prop
  | ok (h : IsSolicitation b senderUnspecified) : Judged b senderUnspecified .ok
  | tooShort (h : b.length < 8) : Judged b senderUnspecified .tooShort
  | badType (h : 8 ≤ b.length) (ht : b[0]? ≠ some 133) : Judged b senderUnspecified .badType
  | badCode (h : 8 ≤ b.length) (ht : b[0]? = some 133) (hc : b[1]? ≠ some 0) :
    Judged b senderUnspecified .badCode
  | fault {os : List Bytes} {rest : Bytes} {v : Verdict} (h : HasHeader b)
    (hb : b.drop 8 = os.flatten ++ rest) (ho : Allowed false os)
    (hf : Faulty (os.any isSourceLink) rest v) : Judged b senderUnspecified v
  | unspecified {os : List Bytes} (h : HasHeader b) (hb : b.drop 8 = os.flatten)
    (ho : Allowed false os) (hs : os.any isSourceLink = true) (hu : senderUnspecified = true) :
    Judged b senderUnspecified .unspecifiedWithSourceLink

theorem toNat_eq_zero_iff (units : UInt8) : 8 * units.toNat = 0 ↔ units = 0 := by
  rw [← UInt8.toNat_inj]
  simp only [UInt8.toNat_zero]
  omega

/-- The length of a whole option is eight octets exactly if it is one unit. -/
theorem size_iff (units : UInt8) : 8 * units.toNat = SourceLink.size ↔ units = 1 := by
  rw [← UInt8.toNat_inj, SourceLink.size]
  simp only [UInt8.reduceToNat]
  omega

theorem allowed_nil (seen : Bool) : Allowed seen [] :=
  ⟨by simp, by cases seen <;> simp, by simp⟩

/-- The first of several options is followed by options that know of it. -/
theorem allowed_cons_iff {seen : Bool} {o : Bytes} {os : List Bytes} :
    Allowed seen (o :: os) ↔
      IsOption o ∧ (isSourceLink o = true → seen = false ∧ o[1]? = some 1) ∧
        Allowed (seen || isSourceLink o) os := by
  constructor
  · rintro ⟨ho, hs, hn⟩
    rw [List.countP_cons] at hs
    refine ⟨ho o List.mem_cons_self, fun hl => ⟨?_, hn o List.mem_cons_self hl⟩,
      fun x hx => ho x (List.mem_cons_of_mem o hx), ?_,
      fun x hx => hn x (List.mem_cons_of_mem o hx)⟩
    · rw [if_pos hl] at hs
      cases seen
      · rfl
      · simp only [Bool.toNat_true] at hs
        omega
    · cases seen <;> cases h : isSourceLink o <;>
        simp only [h, Bool.or_false, Bool.or_true, Bool.toNat_true, Bool.toNat_false, if_true,
          Bool.false_eq_true, if_false] at hs ⊢ <;> omega
  · rintro ⟨ho, hl, hos⟩
    refine ⟨List.forall_mem_cons.mpr ⟨ho, hos.option⟩, ?_,
      List.forall_mem_cons.mpr ⟨fun h => (hl h).2, hos.size⟩⟩
    have hs := hos.single
    rw [List.countP_cons]
    cases h : isSourceLink o
    · simpa [h] using hs
    · obtain ⟨rfl, -⟩ := hl h
      simp only [h, Bool.or_true, Bool.toNat_true] at hs
      simp only [Bool.toNat_false, if_true]
      omega

/-- The scan goes on behind an option that breaks no rule. -/
theorem scanOptions_cons {seen : Bool} {type units : UInt8} {body : Bytes}
    (hn : ¬(8 * units.toNat = 0 ∨ 8 * units.toNat > body.length + 2))
    (hl : type = sourceLinkType → seen = false ∧ units = 1) :
    scanOptions seen (type :: units :: body) =
      scanOptions (seen || decide (type = sourceLinkType)) (body.drop (8 * units.toNat - 2)) := by
  rw [scanOptions]
  refine (if_neg hn).trans ?_
  by_cases ht : type = sourceLinkType
  · obtain ⟨rfl, hu⟩ := hl ht
    rw [if_pos ht, if_neg (by simp), if_neg (not_not_intro ((size_iff units).mpr hu)),
      decide_eq_true ht, Bool.or_true]
  · rw [if_neg ht, decide_eq_false ht, Bool.or_false]

theorem scanOptions_append {seen : Bool} {o : Bytes} (ho : IsOption o)
    (hl : isSourceLink o = true → seen = false ∧ o[1]? = some 1) (rest : Bytes) :
    scanOptions seen (o ++ rest) = scanOptions (seen || isSourceLink o) rest := by
  obtain ⟨type, units, body, rfl, hn⟩ := ho
  have hn : body.length + 2 = 8 * units.toNat := hn
  have hrest : (body ++ rest).drop (8 * units.toNat - 2) = rest :=
    List.drop_left' (by omega)
  have hlink : isSourceLink (type :: units :: body) = decide (type = sourceLinkType) := by
    simp [isSourceLink]
  rw [List.cons_append, List.cons_append, scanOptions_cons, hrest, hlink]
  · rw [List.length_append]
    omega
  · intro ht
    obtain ⟨hs, hu⟩ := hl (by rw [hlink, decide_eq_true ht])
    exact ⟨hs, by simpa using hu⟩

theorem scanOptions_of_ends {seen : Bool} {rest : Bytes} {x : Except Verdict Bool}
    (h : Ends seen rest x) : scanOptions seen rest = x := by
  cases h with
  | done => rw [scanOptions]
  | fault hf =>
    cases hf with
    | lone type => rw [scanOptions]
    | length hn =>
      rw [scanOptions]
      refine if_pos (hn.imp (fun hz => (toNat_eq_zero_iff _).mpr hz) fun hl => ?_)
      simpa using hl
    | second hz hl hs =>
      have hz := mt (toNat_eq_zero_iff _).mp hz
      have hl := Nat.not_lt.mpr hl
      rw [scanOptions]
      exact (if_neg (not_or_intro hz hl)).trans ((if_pos rfl).trans (if_pos hs))
    | size hz hl hs hn =>
      have hz := mt (toNat_eq_zero_iff _).mp hz
      have hl := Nat.not_lt.mpr hl
      have hn := mt (size_iff _).mp hn
      rw [scanOptions]
      exact (if_neg (not_or_intro hz hl)).trans
        ((if_pos rfl).trans ((if_neg (by simp [hs])).trans (if_pos hn)))

theorem Ends.scanned {seen : Bool} {b : Bytes} {x : Except Verdict Bool} (h : Ends seen b x) :
    Scanned seen b x :=
  ⟨[], b, rfl, allowed_nil seen, by simpa using h⟩

theorem Scanned.append {seen : Bool} {o rest : Bytes} {x : Except Verdict Bool} (ho : IsOption o)
    (hl : isSourceLink o = true → seen = false ∧ o[1]? = some 1)
    (h : Scanned (seen || isSourceLink o) rest x) : Scanned seen (o ++ rest) x := by
  obtain ⟨os, after, rfl, hos, he⟩ := h
  refine ⟨o :: os, after, ?_, allowed_cons_iff.mpr ⟨ho, hl, hos⟩, ?_⟩
  · rw [List.flatten_cons, List.append_assoc]
  · rwa [List.any_cons, ← Bool.or_assoc]

/-- An option that fits, with what the scan finds behind it. -/
theorem Scanned.cons {seen : Bool} {type units : UInt8} {body : Bytes} {x : Except Verdict Bool}
    (hn : ¬(8 * units.toNat = 0 ∨ 8 * units.toNat > body.length + 2))
    (hl : type = sourceLinkType → seen = false ∧ units = 1)
    (h : Scanned (seen || decide (type = sourceLinkType)) (body.drop (8 * units.toNat - 2)) x) :
    Scanned seen (type :: units :: body) x := by
  have ho : IsOption (type :: units :: body.take (8 * units.toNat - 2)) := by
    refine ⟨type, units, _, rfl, ?_⟩
    simp only [List.length_cons, List.length_take]
    omega
  have hlink : isSourceLink (type :: units :: body.take (8 * units.toNat - 2)) =
      decide (type = sourceLinkType) := by
    simp [isSourceLink]
  have hall : type :: units :: body =
      (type :: units :: body.take (8 * units.toNat - 2)) ++ body.drop (8 * units.toNat - 2) := by
    simp
  rw [hall]
  refine Scanned.append ho (fun ht => ?_) (hlink ▸ h)
  obtain ⟨hs, hu⟩ := hl (of_decide_eq_true (hlink ▸ ht))
  exact ⟨hs, by simp [hu]⟩

theorem scanned_scanOptions (seen : Bool) (b : Bytes) :
    Scanned seen b (scanOptions seen b) := by
  fun_induction scanOptions seen b with
  | case1 seen => exact Ends.scanned .done
  | case2 seen type => exact Ends.scanned (.fault (.lone type))
  | case3 seen type units body length hn =>
    refine Ends.scanned (.fault (.length ?_))
    exact hn.imp (toNat_eq_zero_iff units).mp fun hl => by simpa using hl
  | case4 units body length hn =>
    obtain ⟨hz, hl⟩ := not_or.mp hn
    exact Ends.scanned (.fault
      (.second (mt (toNat_eq_zero_iff units).mpr hz) (Nat.not_lt.mp hl) rfl))
  | case5 seen units body length hn hs hu =>
    obtain ⟨hz, hl⟩ := not_or.mp hn
    exact Ends.scanned (.fault
      (.size (mt (toNat_eq_zero_iff units).mpr hz) (Nat.not_lt.mp hl) (by simpa using hs)
        (mt (size_iff units).mpr hu)))
  | case6 seen units body length hn hs hu ih =>
    have hu : units = 1 := (size_iff units).mp (Decidable.not_not.mp hu)
    refine Scanned.cons hn (fun _ => ⟨by simpa using hs, hu⟩) ?_
    rwa [decide_eq_true rfl, Bool.or_true]
  | case7 seen type units body length hn ht ih =>
    refine Scanned.cons hn (fun h => absurd h ht) ?_
    rwa [decide_eq_false ht, Bool.or_false]

/-- What the scan answers, said without it. -/
theorem scanOptions_eq_iff {seen : Bool} {b : Bytes} {x : Except Verdict Bool} :
    scanOptions seen b = x ↔ Scanned seen b x := by
  constructor
  · rintro rfl
    exact scanned_scanOptions seen b
  · rintro ⟨os, rest, rfl, ho, he⟩
    induction os generalizing seen with
    | nil => exact scanOptions_of_ends (by simpa using he)
    | cons o os ih =>
      obtain ⟨hopt, hl, hos⟩ := allowed_cons_iff.mp ho
      rw [List.flatten_cons, List.append_assoc, scanOptions_append hopt hl]
      rw [List.any_cons, ← Bool.or_assoc] at he
      exact ih hos he

/-- Fetches octets by their places; nothing if one of them is not there. -/
def fetch? (b : Bytes) (start count : Nat) : Option Bytes :=
  (List.range' start count).mapM fun i => b[i]?

/-- The scan with a place in the message. There is no answer if it fetches an octet that is not
there. -/
def scanFrom? (b : Bytes) (seen : Bool) (i : Nat) : Option (Except Verdict Bool) :=
  if b.length ≤ i then some (.ok seen)
  else if b.length - i < 2 then some (.error .badOptionLength)
  else
    match b[i]?, b[i + 1]? with
    | some type, some units =>
      let length := 8 * units.toNat
      if length = 0 ∨ length > b.length - i then some (.error .badOptionLength)
      else if type = sourceLinkType then
        if seen then some (.error .duplicateSourceLink)
        else if length ≠ SourceLink.size then some (.error .badSourceLink)
        else scanFrom? b true (i + length)
      else scanFrom? b seen (i + length)
    | _, _ => none
termination_by b.length - i

/-- The check with a place in the message. There is no answer if it fetches an octet that is not
there. -/
def checkInPlace? (b : Bytes) (senderUnspecified : Bool) : Option Verdict :=
  if b.length < IcmpHeader.size + SolicitHeader.size then some .tooShort
  else do
    let icmp ← fetch? b 0 IcmpHeader.size
    if icmp[0]? ≠ some routerSolicitType then return .badType
    else if icmp[1]? ≠ some 0 then return .badCode
    else
      let _ ← fetch? b IcmpHeader.size SolicitHeader.size
      match ← scanFrom? b false (IcmpHeader.size + SolicitHeader.size) with
      | .error v => return v
      | .ok hasSourceLink =>
        return if hasSourceLink && senderUnspecified then .unspecifiedWithSourceLink else .ok

theorem fetch?_eq_some {b : Bytes} {start count : Nat} (h : start + count ≤ b.length) :
    fetch? b start count = some ((b.drop start).take count) := by
  induction count generalizing start with
  | zero => simp [fetch?]
  | succ count ih =>
    have hi : start < b.length := by omega
    have hrest : fetch? b (start + 1) count = some ((b.drop (start + 1)).take count) :=
      ih (by omega)
    unfold fetch? at hrest ⊢
    rw [List.range'_succ, List.mapM_cons, hrest, List.getElem?_eq_getElem hi,
      List.drop_eq_getElem_cons hi, List.take_succ_cons]
    rfl

/-- The scan by place is the scan of what follows the place. -/
theorem scanFrom?_eq (b : Bytes) (seen : Bool) (i : Nat) :
    scanFrom? b seen i = some (scanOptions seen (b.drop i)) := by
  -- The two octets that are fetched are those the scan of the rest begins with.
  have hdrop {i : Nat} {type units : UInt8} (ht : b[i]? = some type)
      (hu : b[i + 1]? = some units) : b.drop i = type :: units :: b.drop (i + 2) := by
    obtain ⟨hi, rfl⟩ := List.getElem?_eq_some_iff.mp ht
    obtain ⟨hi', rfl⟩ := List.getElem?_eq_some_iff.mp hu
    rw [List.drop_eq_getElem_cons hi, List.drop_eq_getElem_cons hi']
  have hfits {i n : Nat} (h : ¬(n = 0 ∨ n > b.length - i)) (hl : ¬b.length - i < 2) :
      ¬(n = 0 ∨ n > (b.drop (i + 2)).length + 2) ∧ (n ≠ 0 ∧ n ≤ (b.drop i).length) := by
    simp only [List.length_drop]
    omega
  have hnext {i n : Nat} (hn : 2 ≤ n) : (b.drop (i + 2)).drop (n - 2) = b.drop (i + n) := by
    rw [List.drop_drop, show i + 2 + (n - 2) = i + n by omega]
  fun_induction scanFrom? b seen i with
  | case1 seen i hi => rw [List.drop_eq_nil_of_le hi, scanOptions]
  | case2 seen i hi hl =>
    obtain ⟨type, ht⟩ := List.length_eq_one_iff.mp
      (show (b.drop i).length = 1 by rw [List.length_drop]; omega)
    rw [ht, scanOptions]
  | case3 seen i hi hl type units hu ht length hn =>
    rw [hdrop ht hu, scanOptions_of_ends (.fault (.length ?_))]
    rw [← hdrop ht hu, List.length_drop]
    exact hn.imp_left (toNat_eq_zero_iff units).mp
  | case4 i hi hl units hu length hn ht =>
    obtain ⟨hz, hle⟩ := (hfits hn hl).2
    rw [hdrop ht hu] at hle ⊢
    rw [scanOptions_of_ends (.fault (.second (mt (toNat_eq_zero_iff units).mpr hz) hle rfl))]
  | case5 seen i hi hl units hu length hn hs hsize ht =>
    obtain ⟨hz, hle⟩ := (hfits hn hl).2
    rw [hdrop ht hu] at hle ⊢
    rw [scanOptions_of_ends (.fault (.size (mt (toNat_eq_zero_iff units).mpr hz) hle
      (by simpa using hs) (mt (size_iff units).mpr hsize)))]
  | case6 seen i hi hl units hu length hn hs hsize ht ih =>
    have hsize : 8 * units.toNat = 8 := Decidable.not_not.mp hsize
    rw [ih, hdrop ht hu, scanOptions_cons (hfits hn hl).1 fun _ =>
      ⟨by simpa using hs, (size_iff units).mp hsize⟩, hnext (by omega), decide_eq_true rfl,
      Bool.or_true]
  | case7 seen i hi hl type units hu ht length hn hne ih =>
    have hz : 8 * units.toNat ≠ 0 := (hfits hn hl).2.1
    rw [ih, hdrop ht hu, scanOptions_cons (hfits hn hl).1 fun h => absurd h hne,
      hnext (by omega), decide_eq_false hne, Bool.or_false]
  | case8 seen i hi hl hnone =>
    exact (hnone _ _ (List.getElem?_eq_getElem (by omega))
      (List.getElem?_eq_getElem (by omega))).elim

theorem split?_four {b : Bytes} (h : 4 ≤ b.length) :
    ∃ raw : Vector UInt8 4, Bytes.split? 4 b = some (raw, b.drop 4) ∧ b[0]? = some raw[0] ∧
      b[1]? = some raw[1] := by
  refine ⟨Bytes.prefixOf 4 b, if_pos h, ?_, ?_⟩
  all_goals simp [Bytes.prefixOf, List.getD_eq_getElem?_getD, show 0 < b.length by omega,
    show 1 < b.length by omega]

theorem check_of_short {b : Bytes} (h : b.length < 8) (u : Bool) : check b u = .tooShort := by
  by_cases hb : b.length < 4
  · simp [check, IcmpHeader.read?, Bytes.split?_eq_none_iff.mpr hb]
  · obtain ⟨raw, hs, -⟩ := split?_four (Nat.not_lt.mp hb)
    have hn : Bytes.split? 4 (b.drop 4) = none := by
      rw [Bytes.split?_eq_none_iff, List.length_drop]
      omega
    simp [check, IcmpHeader.read?, SolicitHeader.read?, hs, hn]

theorem check_of_long {b : Bytes} (h : 8 ≤ b.length) (u : Bool) :
    check b u = if b[0]? = some 133 then
      if b[1]? = some 0 then checkOptions u (b.drop 8) else .badCode
    else .badType := by
  obtain ⟨raw, hs, h₀, h₁⟩ := split?_four (b := b) (by omega)
  obtain ⟨raw', hs', -⟩ := split?_four (b := b.drop 4) (by rw [List.length_drop]; omega)
  have ht : routerSolicitType = 133 := rfl
  simp only [check, IcmpHeader.read?, SolicitHeader.read?, hs, hs', Option.map_some,
    IcmpHeader.type, IcmpHeader.code, ht, h₀, h₁, Option.some.injEq, List.drop_drop, ne_eq]
  by_cases ht : raw[0] = 133 <;> by_cases hc : raw[1] = 0 <;> simp [ht, hc]

/-- The check fetches no octet but those of the message, and comes to the same verdict. -/
theorem checkInPlace?_eq (b : Bytes) (u : Bool) : checkInPlace? b u = some (check b u) := by
  unfold checkInPlace?
  split
  · rename_i h
    rw [check_of_short h]
  · rename_i h
    have h : 8 ≤ b.length := Nat.not_lt.mp h
    have hicmp : fetch? b 0 IcmpHeader.size = some (b.take 4) := fetch?_eq_some (by
      simp only [IcmpHeader.size]; omega)
    have hsolicit : fetch? b IcmpHeader.size SolicitHeader.size = some ((b.drop 4).take 4) :=
      fetch?_eq_some (by simp only [IcmpHeader.size, SolicitHeader.size]; omega)
    have hscan := scanFrom?_eq b false (IcmpHeader.size + SolicitHeader.size)
    have ht : routerSolicitType = 133 := rfl
    rw [check_of_long h, hicmp, hsolicit, hscan]
    by_cases h₀ : b[0]? = some 133
    · by_cases h₁ : b[1]? = some 0
      · have hb : b.drop (IcmpHeader.size + SolicitHeader.size) = b.drop 8 := rfl
        rw [hb, checkOptions]
        cases hx : scanOptions false (b.drop 8) <;> simp [h₀, h₁, ht]
      · simp [h₀, h₁, ht]
    · simp [h₀, ht]

/-- The octets of options are judged by the scan, and by their sender where they break no rule. -/
theorem checkOptions_eq_iff {u : Bool} {b : Bytes} {v : Verdict} :
    checkOptions u b = v ↔
      (∃ os rest, b = os.flatten ++ rest ∧ Allowed false os ∧
        Faulty (os.any isSourceLink) rest v) ∨
      ∃ os, b = os.flatten ∧ Allowed false os ∧
        v = if os.any isSourceLink && u then .unspecifiedWithSourceLink else .ok := by
  constructor
  · rintro rfl
    obtain ⟨os, rest, hb, ho, he⟩ := scanned_scanOptions false b
    rw [Bool.false_or] at he
    rw [checkOptions]
    generalize scanOptions false b = x at he
    cases he with
    | done => exact .inr ⟨os, by rw [hb, List.append_nil], ho, rfl⟩
    | fault hf => exact .inl ⟨os, rest, hb, ho, hf⟩
  · rintro (⟨os, rest, hb, ho, hf⟩ | ⟨os, hb, ho, rfl⟩)
    · have hx : scanOptions false b = .error v :=
        scanOptions_eq_iff.mpr ⟨os, rest, hb, ho, by rw [Bool.false_or]; exact .fault hf⟩
      rw [checkOptions, hx]
    · have hx : scanOptions false b = .ok (os.any isSourceLink) :=
        scanOptions_eq_iff.mpr ⟨os, [], by rw [hb, List.append_nil], ho,
          by rw [Bool.false_or]; exact .done⟩
      rw [checkOptions, hx]

theorem check_of_header {b : Bytes} (h : HasHeader b) (u : Bool) :
    check b u = checkOptions u (b.drop 8) := by
  rw [check_of_long h.long, if_pos h.type, if_pos h.code]

/-- The check judges by the rules, and the rules leave no choice. -/
theorem check_eq_iff {b : Bytes} {u : Bool} {v : Verdict} : check b u = v ↔ Judged b u v := by
  constructor
  · rintro rfl
    by_cases hl : 8 ≤ b.length
    · by_cases ht : b[0]? = some 133
      · by_cases hc : b[1]? = some 0
        · have h : HasHeader b := ⟨hl, ht, hc⟩
          obtain ⟨os, rest, hb, ho, hf⟩ | ⟨os, hb, ho, hv⟩ :=
            checkOptions_eq_iff.mp (check_of_header h u).symm
          · exact .fault h hb ho hf
          · split at hv
            · rename_i hs
              rw [hv]
              obtain ⟨hs, hu⟩ := Bool.and_eq_true_iff.mp hs
              exact .unspecified h hb ho hs hu
            · rename_i hs
              rw [hv]
              refine .ok ⟨h, os, hb, ho, fun hu o hmem => ?_⟩
              rw [hu, Bool.and_true, List.any_eq_true] at hs
              exact Bool.eq_false_iff.mpr fun ht => hs ⟨o, hmem, ht⟩
        · rw [check_of_long hl, if_pos ht, if_neg hc]
          exact .badCode hl ht hc
      · rw [check_of_long hl, if_neg ht]
        exact .badType hl ht
    · rw [check_of_short (Nat.lt_of_not_le hl)]
      exact .tooShort (Nat.lt_of_not_le hl)
  · intro h
    cases h with
    | tooShort h => exact check_of_short h u
    | badType h ht => rw [check_of_long h, if_neg ht]
    | badCode h ht hc => rw [check_of_long h, if_pos ht, if_neg hc]
    | fault h hb ho hf =>
      rw [check_of_header h]
      exact checkOptions_eq_iff.mpr (.inl ⟨_, _, hb, ho, hf⟩)
    | unspecified h hb ho hs hu =>
      rw [check_of_header h]
      exact checkOptions_eq_iff.mpr (.inr ⟨_, hb, ho, by rw [hs, hu]; rfl⟩)
    | ok h =>
      obtain ⟨h, os, hb, ho, hu⟩ := h
      rw [check_of_header h]
      refine checkOptions_eq_iff.mpr (.inr ⟨os, hb, ho, ?_⟩)
      refine (if_neg fun hs => ?_).symm
      obtain ⟨hs, hsender⟩ := Bool.and_eq_true_iff.mp hs
      obtain ⟨o, hmem, ht⟩ := List.any_eq_true.mp hs
      exact Bool.false_ne_true ((hu hsender o hmem).symm.trans ht)

theorem Judged.isSolicitation {b : Bytes} {u : Bool} (h : Judged b u .ok) :
    IsSolicitation b u := by
  cases h with
  | ok h => exact h
  | fault h hb ho hf => cases hf

/-- A message is valid exactly if it is a solicitation, and the verdict on any other one names the
first rule that it breaks. No octet is fetched but those of the message. -/
theorem check_judges (b : Bytes) (senderUnspecified : Bool) :
    (check b senderUnspecified = .ok ↔ IsSolicitation b senderUnspecified) ∧
    (∀ v, check b senderUnspecified = v ↔ Judged b senderUnspecified v) ∧
    checkInPlace? b senderUnspecified = some (check b senderUnspecified) :=
  ⟨check_eq_iff.trans ⟨Judged.isSolicitation, .ok⟩, fun _ => check_eq_iff,
    checkInPlace?_eq b senderUnspecified⟩

end RouterAdvert.Ndp.Solicitation
