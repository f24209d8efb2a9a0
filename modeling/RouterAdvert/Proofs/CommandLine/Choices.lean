import Mathlib.Data.List.TakeWhile
import RouterAdvert.Proofs.CommandLine.Numerals
import RouterAdvert.Proofs.CommandLine.Spelling

/-! What a command line comes to. Only its choices count, one after another, and at the end its
first operand; neither how they are written nor what stands between them does. -/
namespace RouterAdvert.CommandLine

structure Choice where
  switch : Switch
  value : Bytes
  deriving DecidableEq, Repr

namespace Choice

/-- The choices that end the scan, and how. -/
inductive Ends : Choice → Outcome → Prop
  | version (v : Bytes) : Ends ⟨.version, v⟩ (.ok .version)
  | help (v : Bytes) : Ends ⟨.help, v⟩ (.ok .help)
  | regex {v : Bytes} (h : Pattern.compile? v = none) : Ends ⟨.regex, v⟩ (.error (.regex v))
  | interval {v : Bytes} (h : Numeral.read? 4 1800 v = none) :
    Ends ⟨.interval, v⟩ (.error (.interval v))
  | threads {v : Bytes} (h : Numeral.read? 1 64 v = none) :
    Ends ⟨.threads, v⟩ (.error (.threads v))

/-- Whether the scan goes on behind the choice. -/
def Passes (c : Choice) : Prop := ∀ o, ¬c.Ends o

end Choice

/-- The values that are given with a switch. -/
def values (s : Switch) (cs : List Choice) : List Bytes :=
  (cs.filter (·.switch = s)).map (·.value)

/-- The settings after choices: of each kind, the last one counts. -/
def settled (s : Settings) (cs : List Choice) : Settings where
  regex := (values .regex cs).getLastD s.regex
  interval := ((values .interval cs).filterMap (Numeral.read? 4 1800)).getLastD s.interval
  threads := ((values .threads cs).filterMap (Numeral.read? 1 64)).getLastD s.threads
  useSyslog := s.useSyslog || cs.any (·.switch = .syslog)
  verbose := s.verbose || cs.any (·.switch = .verbose)

/-- What a command line comes to whose choices all pass. -/
def verdict (extra : Option Bytes) : Outcome :=
  match extra with
  | some a => .error (.operand a)
  | none => .ok .run

/-- Makes the choices one after another, up to the first that ends the scan. -/
def settle (s : Settings) (extra : Option Bytes) : List Choice → Settings × Outcome
  | [] => (s, verdict extra)
  | c :: cs =>
    match choose s c.switch c.value with
    | .ok s => settle s extra cs
    | .error outcome => (s, outcome)

namespace Item

def choice? : Item → Option Choice
  | choice s value => some ⟨s, value⟩
  | _ => none

def operand? : Item → Option Bytes
  | operand a => some a
  | _ => none

/-- Whether the item is a choice or an operand. -/
def Plain (i : Item) : Prop := (∃ s value, i = choice s value) ∨ ∃ a, i = operand a

end Item

namespace Line

def choices (l : Line) : List Choice := l.items.filterMap Item.choice?

def operands (l : Line) : List Bytes := l.items.filterMap Item.operand?

end Line

variable {c : Choice}

theorem values_cons (k : Switch) (c : Choice) (cs : List Choice) :
    values k (c :: cs) = if c.switch = k then c.value :: values k cs else values k cs := by
  unfold values
  by_cases h : c.switch = k
  · rw [List.filter_cons_of_pos (by simpa using h), if_pos h, List.map_cons]
  · rw [List.filter_cons_of_neg (by simpa using h), if_neg h]

theorem settled_nil (s : Settings) : settled s [] = s := by
  simp [settled, values]

theorem choose_of_ends {o : Outcome} (h : c.Ends o) (s : Settings) :
    choose s c.switch c.value = .error o := by
  cases h with
  | version v => rfl
  | help v => rfl
  | regex h => simp only [choose, h]
  | interval h => simp only [Numeral.choose_interval, h]
  | threads h => simp only [Numeral.choose_threads, h]

theorem choose_of_passes (h : c.Passes) (s : Settings) :
    ∃ t, choose s c.switch c.value = .ok t ∧ ∀ cs, settled t cs = settled s (c :: cs) := by
  obtain ⟨switch, value⟩ := c
  cases switch with
  | regex =>
    cases hv : Pattern.compile? value with
    | none => exact absurd (.regex hv) (h _)
    | some p =>
      refine ⟨{ s with regex := value }, by simp only [choose, hv], fun cs => ?_⟩
      simp only [settled, values_cons, reduceCtorEq, if_true, if_false, List.getLastD_cons,
        List.any_cons, decide_false, Bool.false_or]
  | interval =>
    cases hv : Numeral.read? 4 1800 value with
    | none => exact absurd (.interval hv) (h _)
    | some n =>
      refine ⟨{ s with interval := n }, by simp only [Numeral.choose_interval, hv], fun cs => ?_⟩
      simp only [settled, values_cons, reduceCtorEq, if_true, if_false, List.getLastD_cons,
        List.filterMap_cons, hv, List.any_cons, decide_false, Bool.false_or]
  | threads =>
    cases hv : Numeral.read? 1 64 value with
    | none => exact absurd (.threads hv) (h _)
    | some n =>
      refine ⟨{ s with threads := n }, by simp only [Numeral.choose_threads, hv], fun cs => ?_⟩
      simp only [settled, values_cons, reduceCtorEq, if_true, if_false, List.getLastD_cons,
        List.filterMap_cons, hv, List.any_cons, decide_false, Bool.false_or]
  | syslog =>
    refine ⟨{ s with useSyslog := true }, rfl, fun cs => ?_⟩
    simp [settled, values_cons]
  | verbose =>
    refine ⟨{ s with verbose := true }, rfl, fun cs => ?_⟩
    simp [settled, values_cons]
  | version => exact absurd (.version value) (h _)
  | help => exact absurd (.help value) (h _)

theorem Choice.passes_iff : c.Passes ↔ (choose {} c.switch c.value).isOk := by
  constructor
  · intro h
    obtain ⟨t, ht, -⟩ := choose_of_passes h {}
    rw [ht]
    rfl
  · intro h o ho
    rw [choose_of_ends ho] at h
    cases h

instance : Decidable c.Passes := decidable_of_iff _ Choice.passes_iff.symm

theorem settle_append {before : List Choice} (h : ∀ d ∈ before, d.Passes) (s : Settings)
    (extra : Option Bytes) (rest : List Choice) :
    settle s extra (before ++ rest) = settle (settled s before) extra rest := by
  induction before generalizing s with
  | nil => rw [settled_nil, List.nil_append]
  | cons c before ih =>
    obtain ⟨t, hchoose, hsettled⟩ := choose_of_passes (h c List.mem_cons_self) s
    rw [List.cons_append, settle, hchoose, ← hsettled]
    exact ih (fun d hd => h d (List.mem_cons_of_mem c hd)) t

theorem interpret_eq_settle {items : List Item} (h : ∀ i ∈ items, i.Plain) (s : Settings)
    (extra : Option Bytes) : interpret s extra items =
      settle s (extra <|> (items.filterMap Item.operand?).head?)
        (items.filterMap Item.choice?) := by
  induction items generalizing s extra with
  | nil => cases extra <;> rfl
  | cons i items ih =>
    have hrest := ih fun x hx => h x (List.mem_cons_of_mem i hx)
    -- A choice moves the settings on, an operand what is kept for the end.
    rcases h i List.mem_cons_self with ⟨switch, value, rfl⟩ | ⟨a, rfl⟩
    · show interpret s extra (.choice switch value :: items) =
        settle s (extra <|> (items.filterMap Item.operand?).head?)
          (⟨switch, value⟩ :: items.filterMap Item.choice?)
      unfold interpret settle
      cases choose s switch value with
      | ok t => exact hrest t extra
      | error o => rfl
    · refine (hrest s (extra <|> some a)).trans ?_
      cases extra <;> rfl

theorem plain_of_mem_items {l : Line} {i : Item} (h : i ∈ l.items) : i.Plain := by
  rcases List.mem_append.mp h with h | h
  · obtain ⟨w, -, hw⟩ := List.mem_flatMap.mp h
    have hflags (flags : List Flag) (h : i ∈ Word.choices flags) : i.Plain := by
      obtain ⟨f, -, hf⟩ := List.mem_map.mp h
      exact Or.inl ⟨f.1, [], hf.symm⟩
    cases w with
    | operand a h => exact Or.inr ⟨a, List.mem_singleton.mp hw⟩
    | letters flags h => exact hflags flags hw
    | attached flags s value h =>
      rcases List.mem_append.mp hw with hw | hw
      · exact hflags flags hw
      · exact Or.inl ⟨s.1, value, List.mem_singleton.mp hw⟩
    | apart flags s value =>
      rcases List.mem_append.mp hw with hw | hw
      · exact hflags flags hw
      · exact Or.inl ⟨s.1, value, List.mem_singleton.mp hw⟩
    | name flag p h => exact Or.inl ⟨flag.1, [], List.mem_singleton.mp hw⟩
    | assigned s p h value => exact Or.inl ⟨s.1, value, List.mem_singleton.mp hw⟩
    | nameApart s p h value => exact Or.inl ⟨s.1, value, List.mem_singleton.mp hw⟩
  · obtain ⟨a, -, ha⟩ := List.mem_map.mp h
    exact Or.inr ⟨a, ha.symm⟩

theorem untilZero_of_not_mem {a : Bytes} (h : 0 ∉ a) : Bytes.untilZero a = a := by
  apply List.takeWhile_eq_self_iff.mpr
  intro c hc
  exact bne_iff_ne.mpr fun hz => h (hz ▸ hc)

/-- A command line comes to its choices one after another, however they are written and mixed with
operands. The first choice that ends the scan decides and leaves what was set before it; if there is
none, the command line is refused exactly if there is an operand, which is named. -/
theorem apply_arguments {l : Line} (hz : ∀ a ∈ l.arguments, 0 ∉ a) (s : Settings) :
    apply s l.arguments = settle s l.operands.head? l.choices ∧
    (∀ before c after o, l.choices = before ++ c :: after → (∀ d ∈ before, d.Passes) → c.Ends o →
      apply s l.arguments = (settled s before, o)) ∧
    ((∀ c ∈ l.choices, c.Passes) →
      apply s l.arguments = (settled s l.choices,
        match l.operands.head? with
        | some a => .error (.operand a)
        | none => .ok .run)) := by
  have hzero : l.arguments.map Bytes.untilZero = l.arguments :=
    (List.map_congr_left fun a ha => untilZero_of_not_mem (hz a ha)).trans (List.map_id _)
  have happly : apply s l.arguments = settle s l.operands.head? l.choices := by
    unfold apply
    rw [hzero, l.ofArguments_arguments, interpret_eq_settle fun i => plain_of_mem_items]
    rfl
  refine ⟨happly, fun before c after o hcs hb hc => ?_, fun hcs => ?_⟩
  · rw [happly, hcs, settle_append hb, settle, choose_of_ends hc]
  · have hall := settle_append hcs s l.operands.head? []
    rw [List.append_nil] at hall
    rw [happly, hall]
    rfl

/-- `tap0 -sr ^vnet --int=30 --verbose -- -x` -/
def mixedLine : Line where
  words := [
    .operand "tap0" (by decide),
    .apart [⟨.syslog, rfl⟩] ⟨.regex, rfl⟩ "^vnet",
    .assigned ⟨.interval, rfl⟩ "int" ⟨by decide, fun t => by cases t <;> decide⟩ "30",
    .name ⟨.verbose, rfl⟩ _ (Switch.names_name .verbose)]
  closed := some ["-x"]

theorem apply_mixedLine :
    (∀ a ∈ mixedLine.arguments, 0 ∉ a) ∧
      apply {} ["tap0", "-sr", "^vnet", "--int=30", "--verbose", "--", "-x"] =
        ({ regex := "^vnet", interval := 30, useSyslog := true, verbose := true },
          .error (.operand "tap0")) := by
  have hz : ∀ a ∈ mixedLine.arguments, 0 ∉ a := by
    decide +kernel
  have hcs : mixedLine.choices =
      [⟨.syslog, []⟩, ⟨.regex, "^vnet"⟩, ⟨.interval, "30"⟩, ⟨.verbose, []⟩] := by
    decide +kernel
  have hpass : ∀ c ∈ mixedLine.choices, c.Passes := by
    rw [hcs]
    decide +kernel
  obtain ⟨-, -, hall⟩ := apply_arguments hz {}
  have hsettled : settled {} mixedLine.choices =
      { regex := "^vnet", interval := 30, useSyslog := true, verbose := true } := by
    decide +kernel
  have hoperand : mixedLine.operands.head? = some (Bytes.ofString "tap0") := by
    decide +kernel
  refine ⟨hz, (hall hpass).trans ?_⟩
  rw [hsettled, hoperand]

end RouterAdvert.CommandLine
