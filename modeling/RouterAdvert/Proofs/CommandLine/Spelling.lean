import Mathlib.Data.List.TakeDrop
import RouterAdvert.CommandLine.Item

/-! How the items of a command line can be written. A switch has a letter and a name, of which a
beginning will do if no other name begins so. Letters can share a dash, and a value can be part of
an argument or the next one. However they are written, the same items are read. -/
namespace RouterAdvert.CommandLine

def dash : UInt8 := 45

/-- Whether this is the name of the switch, or a beginning of it that no other name has. -/
structure Switch.Names (p : Bytes) (s : Switch) : Prop where
  begins : p <+: s.name
  unique : ∀ t : Switch, p <+: t.name → t = s

/-- The switches that take no value, and those that do. -/
abbrev Flag := { s : Switch // s.takesValue = false }

abbrev Setting := { s : Switch // s.takesValue = true }

/-- What can be written at once. -/
inductive Word where
  | operand (a : Bytes) (h : a.head? = some dash → a = [dash])
  | letters (flags : List Flag) (h : flags ≠ [])
  /-- Letters, the last of them with its value behind it. -/
  | attached (flags : List Flag) (s : Setting) (value : Bytes) (h : value ≠ [])
  /-- Letters, the last of them with its value in the next argument. -/
  | apart (flags : List Flag) (s : Setting) (value : Bytes)
  | name (flag : Flag) (p : Bytes) (h : flag.1.Names p)
  | assigned (s : Setting) (p : Bytes) (h : s.1.Names p) (value : Bytes)
  | nameApart (s : Setting) (p : Bytes) (h : s.1.Names p) (value : Bytes)

namespace Word

def cluster (flags : List Flag) : Bytes := flags.map (·.1.letter)

def arguments : Word → List Bytes
  | operand a _ => [a]
  | letters flags _ => [dash :: cluster flags]
  | attached flags s value _ => [dash :: (cluster flags ++ s.1.letter :: value)]
  | apart flags s value => [dash :: (cluster flags ++ [s.1.letter]), value]
  | name _ p _ => [dash :: dash :: p]
  | assigned _ p _ value => [dash :: dash :: (p ++ Item.equalsSign :: value)]
  | nameApart _ p _ value => [dash :: dash :: p, value]

def choices (flags : List Flag) : List Item := flags.map fun f => .choice f.1 []

def items : Word → List Item
  | operand a _ => [.operand a]
  | letters flags _ => choices flags
  | attached flags s value _ => choices flags ++ [.choice s.1 value]
  | apart flags s value => choices flags ++ [.choice s.1 value]
  | name flag _ _ => [.choice flag.1 []]
  | assigned s _ _ value => [.choice s.1 value]
  | nameApart s _ _ value => [.choice s.1 value]

end Word

/-- A command line: words, and operands of any form behind an end mark. -/
structure Line where
  words : List Word
  closed : Option (List Bytes) := none

namespace Line

def arguments (l : Line) : List Bytes :=
  l.words.flatMap Word.arguments ++
    match l.closed with
    | some operands => Item.endMark :: operands
    | none => []

def items (l : Line) : List Item :=
  l.words.flatMap Word.items ++ (l.closed.getD []).map .operand

end Line

namespace Switch

variable {p : Bytes} {s : Switch}

/-- The whole name of a switch is no beginning of another name. -/
theorem names_name (s : Switch) : s.Names s.name := by
  constructor
  · exact List.prefix_refl s.name
  · intro t h
    cases s <;> cases t <;> first | rfl | exact absurd h (by decide)

theorem Names.ne_nil (h : s.Names p) : p ≠ [] := by
  intro hp
  subst hp
  have hr : regex = s := h.unique regex List.nil_prefix
  have hi : interval = s := h.unique interval List.nil_prefix
  cases hr.trans hi.symm

theorem Names.no_equalsSign (h : s.Names p) : ∀ c ∈ p, (c != Item.equalsSign) = true := by
  intro c hc
  have hname : s.name.all (· != Item.equalsSign) = true := by
    cases s <;> rfl
  exact List.all_eq_true.mp hname c (h.begins.subset hc)

theorem ofName?_of_names (h : s.Names p) : ofName? p = some s := by
  unfold ofName?
  cases hfind : all.find? (·.name = p) with
  | some t =>
    have ht : t.name = p := by simpa using List.find?_some hfind
    have hts : t = s := h.unique t (ht ▸ List.prefix_refl p)
    rw [hts]
  | none =>
    have hfilter : all.filter (p <+: ·.name) = all.filter (· = s) := by
      apply List.filter_congr
      intro t _
      exact decide_eq_decide.mpr ⟨h.unique t, fun ht => ht ▸ h.begins⟩
    have hone : all.filter (· = s) = [s] := by
      cases s <;> decide
    rw [hfilter, hone]

theorem ofLetter?_letter (s : Switch) : ofLetter? s.letter = some s := by
  cases s <;> rfl

end Switch

namespace Item

/-- The items in front of what is read. -/
def Reading.after (items : List Item) (r : Reading) : Reading := items.foldr Reading.cons r

theorem Reading.after_complete (items is : List Item) :
    (complete is).after items = complete (items ++ is) := by
  induction items with
  | nil => rfl
  | cons i items ih => exact congrArg (Reading.cons i) ih

theorem Reading.after_awaiting (items is : List Item) (s : Switch) :
    (awaiting is s).after items = awaiting (items ++ is) s := by
  induction items with
  | nil => rfl
  | cons i items ih => exact congrArg (Reading.cons i) ih

theorem readLetters_flag (f : Flag) (rest : Bytes) :
    readLetters (f.1.letter :: rest) = (readLetters rest).cons (choice f.1 []) := by
  rw [readLetters, Switch.ofLetter?_letter]
  simp only [f.2]
  rfl

theorem readLetters_cluster (flags : List Flag) (rest : Bytes) :
    readLetters (Word.cluster flags ++ rest) = (readLetters rest).after (Word.choices flags) := by
  induction flags with
  | nil => rfl
  | cons f flags ih =>
    rw [Word.cluster, List.map_cons, List.cons_append, readLetters_flag]
    exact congrArg (Reading.cons _) ih

theorem readLetters_setting (s : Setting) (value : Bytes) :
    readLetters (s.1.letter :: value) =
      if value = [] then .awaiting [] s.1 else .complete [choice s.1 value] := by
  rw [readLetters, Switch.ofLetter?_letter]
  simp only [s.2, if_true]

theorem read_letter (s : Switch) (rest : Bytes) :
    read (dash :: s.letter :: rest) = readLetters (s.letter :: rest) := by
  cases s <;> rfl

/-- A cluster of letters begins with a letter, whether the one of a setting or not. -/
theorem cluster_setting (flags : List Flag) (s : Setting) (value : Bytes) :
    ∃ (t : Switch) (b : Bytes), Word.cluster flags ++ s.1.letter :: value = t.letter :: b := by
  cases flags with
  | nil => exact ⟨s.1, value, rfl⟩
  | cons f flags => exact ⟨f.1, _, rfl⟩

theorem endMark_eq : endMark = [dash, dash] := by
  decide

/-- Letters behind a dash are no end mark, and they are read one after another. -/
theorem read_cluster (flags : List Flag) (rest : Bytes)
    (h : ∃ (s : Switch) (b : Bytes), Word.cluster flags ++ rest = s.letter :: b) :
    dash :: (Word.cluster flags ++ rest) ≠ endMark ∧
      read (dash :: (Word.cluster flags ++ rest)) =
        (readLetters rest).after (Word.choices flags) := by
  obtain ⟨s, b, h⟩ := h
  rw [← readLetters_cluster, h, endMark_eq]
  constructor
  · have hdash : s.letter ≠ dash := by
      cases s <;> decide
    intro hmark
    exact hdash (List.cons.inj (List.cons.inj hmark).2).1
  · exact read_letter s b

theorem span_name {s : Switch} {p : Bytes} (h : s.Names p) (rest : Bytes)
    (hrest : ∀ c, rest.head? = some c → c = equalsSign) :
    (p ++ rest).span (· != equalsSign) = (p, rest) := by
  have hp := h.no_equalsSign
  rw [List.span_eq_takeWhile_dropWhile, List.takeWhile_append_of_pos hp,
    List.dropWhile_append_of_pos hp]
  cases rest with
  | nil => rw [List.takeWhile_nil, List.append_nil, List.dropWhile_nil]
  | cons c rest =>
    rw [hrest c rfl]
    simp

/-- A name behind two dashes. -/
theorem read_name {s : Switch} {p : Bytes} (h : s.Names p) :
    dash :: dash :: p ≠ endMark ∧ read (dash :: dash :: p) =
      if s.takesValue then .awaiting [] s else .complete [choice s []] := by
  have hspan := span_name h [] nofun
  rw [List.append_nil] at hspan
  constructor
  · rw [endMark_eq]
    intro hmark
    exact h.ne_nil (List.cons.inj (List.cons.inj hmark).2).2
  · show readName _ p = _
    unfold readName
    simp only [hspan, Switch.ofName?_of_names h]

/-- A name behind two dashes, with a value behind an equals sign. -/
theorem read_assigned {s : Setting} {p : Bytes} (h : s.1.Names p) (value : Bytes) :
    dash :: dash :: (p ++ equalsSign :: value) ≠ endMark ∧
      read (dash :: dash :: (p ++ equalsSign :: value)) = .complete [choice s.1 value] := by
  have hspan := span_name h (equalsSign :: value) fun c hc => (Option.some.inj hc).symm
  constructor
  · rw [endMark_eq]
    simp
  · show readName _ (p ++ equalsSign :: value) = _
    unfold readName
    simp only [hspan, Switch.ofName?_of_names h, s.2, if_true]

theorem read_operand {a : Bytes} (h : a.head? = some dash → a = [dash]) :
    a ≠ endMark ∧ read a = .complete [operand a] := by
  by_cases hdash : a.head? = some dash
  · rw [h hdash]
    exact ⟨by decide, rfl⟩
  · constructor
    · intro hmark
      rw [hmark] at hdash
      exact hdash rfl
    · unfold read
      split
      · exact absurd rfl hdash
      · exact absurd rfl hdash
      · rfl

theorem ofArguments_of_complete {a : Bytes} {is : List Item} (h : a ≠ endMark)
    (hr : read a = .complete is) (rest : List Bytes) :
    ofArguments (a :: rest) = is ++ ofArguments rest := by
  rw [ofArguments.eq_2 a rest is hr, if_neg h]

theorem ofArguments_of_awaiting {a : Bytes} {is : List Item} {s : Switch} (h : a ≠ endMark)
    (hr : read a = .awaiting is s) (value : Bytes) (rest : List Bytes) :
    ofArguments (a :: value :: rest) = is ++ choice s value :: ofArguments rest := by
  rw [ofArguments.eq_4 a is s value rest hr, if_neg h]

theorem ofArguments_word (w : Word) (rest : List Bytes) :
    ofArguments (w.arguments ++ rest) = w.items ++ ofArguments rest := by
  cases w with
  | operand a h =>
    obtain ⟨hmark, hread⟩ := read_operand h
    exact ofArguments_of_complete hmark hread rest
  | letters flags h =>
    obtain ⟨f, flags, rfl⟩ := List.exists_cons_of_ne_nil h
    have hcluster := read_cluster (f :: flags) [] ⟨f.1, _, rfl⟩
    rw [List.append_nil] at hcluster
    obtain ⟨hmark, hread⟩ := hcluster
    rw [readLetters, Reading.after_complete, List.append_nil] at hread
    exact ofArguments_of_complete hmark hread rest
  | attached flags s value h =>
    obtain ⟨hmark, hread⟩ := read_cluster flags (s.1.letter :: value)
      (cluster_setting flags s value)
    rw [readLetters_setting, if_neg h, Reading.after_complete] at hread
    exact ofArguments_of_complete hmark hread rest
  | apart flags s value =>
    obtain ⟨hmark, hread⟩ := read_cluster flags [s.1.letter]
      (cluster_setting flags s [])
    rw [readLetters_setting, if_pos rfl, Reading.after_awaiting, List.append_nil] at hread
    refine (ofArguments_of_awaiting hmark hread value rest).trans ?_
    simp [Word.items]
  | name flag p h =>
    obtain ⟨hmark, hread⟩ := read_name h
    rw [flag.2, if_neg nofun] at hread
    exact ofArguments_of_complete hmark hread rest
  | assigned s p h value =>
    obtain ⟨hmark, hread⟩ := read_assigned h value
    exact ofArguments_of_complete hmark hread rest
  | nameApart s p h value =>
    obtain ⟨hmark, hread⟩ := read_name h
    rw [s.2, if_pos rfl] at hread
    exact ofArguments_of_awaiting hmark hread value rest

end Item

/-- Reading gives back the items that were written. -/
theorem Line.ofArguments_arguments (l : Line) : Item.ofArguments l.arguments = l.items := by
  obtain ⟨words, closed⟩ := l
  unfold arguments items
  induction words with
  | nil =>
    cases closed with
    | none => rfl
    | some operands => exact if_pos rfl
  | cons w words ih =>
    rw [List.flatMap_cons, List.flatMap_cons, List.append_assoc, List.append_assoc,
      Item.ofArguments_word]
    exact congrArg (w.items ++ ·) ih

end RouterAdvert.CommandLine
