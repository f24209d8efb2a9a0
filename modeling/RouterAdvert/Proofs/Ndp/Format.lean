import RouterAdvert.Proofs.Ndp.Bits

/-! Wire objects in general. A format says what a class of objects offers and where its fields lie;
the laws of getters, setters and reads follow from a few facts about each single one of them. -/
namespace RouterAdvert

theorem Bytes.toList_prefixOf {n : Nat} {b : Bytes} (h : n ≤ b.length) :
    (prefixOf n b).toList = b.take n := by
  apply List.ext_getElem
  · simp [h]
  · intro i h₁ h₂
    have hi : i < b.length := by
      rw [List.length_take] at h₂
      omega
    simp [prefixOf, List.getD_eq_getElem?_getD, hi]

namespace Ndp

/-- A class of wire objects of one size with its fields. Setters and getters are given by what they
are called with. -/
structure Format where
  Carrier : Type
  size : Nat
  /-- The object at the front of some octets, and the rest. -/
  read? : Bytes → Option (Carrier × Bytes)
  write : Carrier → Bytes
  Edit : Type
  edit : Edit → Carrier → Carrier
  Field : Type
  decEqField : DecidableEq Field
  Value : Field → Type
  get : (f : Field) → Carrier → Value f
  /-- The bits of a field; reserved bits are those of none. -/
  covers : Field → Nat → Prop
  /-- What bits say about a field. -/
  decode : (f : Field) → (Nat → Bool) → Value f
  /-- The field that a setter is for. -/
  target : Edit → Field
  /-- What a setter makes of the value that it is called with. -/
  stored : (e : Edit) → Value (target e)

namespace Format

attribute [instance] Format.decEqField

variable (F : Format)

/-- Reads an object from a buffer: whether it succeeds, the object and what is left to read. -/
def readInto (o : F.Carrier) (b : Bytes) : Bool × F.Carrier × Bytes :=
  match F.read? b with
  | some (o', rest) => (true, o', rest)
  | none => (false, o, b)

inductive Call where
  | set (e : F.Edit)
  | read (b : Bytes)

def call (o : F.Carrier) : F.Call → F.Carrier
  | .set e => F.edit e o
  | .read b => (F.readInto o b).2.1

def run (o : F.Carrier) (calls : List F.Call) : F.Carrier := calls.foldl F.call o

/-- The octets that were read last, and the setter calls since then. -/
def note : Bytes × List F.Edit → F.Call → Bytes × List F.Edit
  | (b, es), .set e => (b, es ++ [e])
  | (b, es), .read b' => if b'.length < F.size then (b, es) else (b'.take F.size, [])

/-- What a setter stores, if it is for this field. -/
def stored? (f : F.Field) (e : F.Edit) : Option (F.Value f) :=
  if h : F.target e = f then some (h ▸ F.stored e) else none

/-- Of octets and setter calls: the value that was set last, or what the octets say. -/
def expected (f : F.Field) (h : Bytes × List F.Edit) : F.Value f :=
  (h.2.reverse.findSome? (F.stored? f)).getD (F.decode f (bit h.1))

/-- The laws of objects. -/
structure Lawful : Prop where
  length_write : ∀ o, (F.write o).length = F.size
  read_short : ∀ o b, b.length < F.size → F.readInto o b = (false, o, b)
  read_long : ∀ o b, F.size ≤ b.length →
    ∃ o', F.readInto o b = (true, o', b.drop F.size) ∧ F.write o' = b.take F.size
  get_edit : ∀ e o, F.get (F.target e) (F.edit e o) = F.stored e
  covers_unique : ∀ f g i, F.covers f i → F.covers g i → f = g
  bit_edit : ∀ e o i, ¬F.covers (F.target e) i →
    bit (F.write (F.edit e o)) i = bit (F.write o) i
  get_edit_of_ne : ∀ e o f, f ≠ F.target e → F.get f (F.edit e o) = F.get f o
  edit_comm : ∀ d e o, F.target d ≠ F.target e → F.edit d (F.edit e o) = F.edit e (F.edit d o)
  edit_edit : ∀ d e o, F.target d = F.target e → F.edit d (F.edit e o) = F.edit d o
  get_run : ∀ f o calls,
    F.get f (F.run o calls) = F.expected f (calls.foldl F.note (F.write o, []))
  reserved_run : ∀ i o calls, (∀ f, ¬F.covers f i) →
    bit (F.write (F.run o calls)) i = bit (calls.foldl F.note (F.write o, [])).1 i

/-- What is to be known about each setter and each getter. -/
structure Regular : Prop where
  length_write : ∀ o, (F.write o).length = F.size
  write_injective : ∀ o o', F.write o = F.write o' → o = o'
  read?_short : ∀ b, b.length < F.size → F.read? b = none
  read?_long : ∀ b, F.size ≤ b.length →
    ∃ o, F.read? b = some (o, b.drop F.size) ∧ F.write o = b.take F.size
  /-- What becomes of the bits of a field depends on the setter call alone. -/
  fixed : ∀ e o o' i, F.covers (F.target e) i →
    bit (F.write (F.edit e o)) i = bit (F.write (F.edit e o')) i
  frame : ∀ e o i, ¬F.covers (F.target e) i →
    bit (F.write (F.edit e o)) i = bit (F.write o) i
  covers_unique : ∀ f g i, F.covers f i → F.covers g i → f = g
  get_eq : ∀ f o, F.get f o = F.decode f (bit (F.write o))
  decode_congr : ∀ f x y, (∀ i, F.covers f i → x i = y i) → F.decode f x = F.decode f y
  get_edit : ∀ e o, F.get (F.target e) (F.edit e o) = F.stored e

/-- Objects that are nothing but their octets, which makes reads and bits the same for all. -/
theorem Regular.of_raw {F : Format} (m : Vector UInt8 F.size → F.Carrier)
    (r : F.Carrier → Vector UInt8 F.size) (hr : ∀ v, r (m v) = v) (hm : ∀ o, m (r o) = o)
    (hread : ∀ b, F.read? b = (Bytes.split? F.size b).map fun (v, rest) => (m v, rest))
    (hwrite : ∀ o, F.write o = (r o).toList)
    (hedit : ∀ e, Decides (F.covers (F.target e)) fun v => r (F.edit e (m v)))
    (covers_unique : ∀ f g i, F.covers f i → F.covers g i → f = g)
    (get_eq : ∀ f o, F.get f o = F.decode f (bit (F.write o)))
    (decode_congr : ∀ f x y, (∀ i, F.covers f i → x i = y i) → F.decode f x = F.decode f y)
    (get_edit : ∀ e o, F.get (F.target e) (F.edit e o) = F.stored e) : F.Regular where
  length_write o := by rw [hwrite, Vector.length_toList]
  write_injective o o' h := by
    rw [hwrite, hwrite, Vector.toList_inj] at h
    rw [← hm o, h, hm]
  read?_short b h := by rw [hread, Bytes.split?_eq_none_iff.mpr h, Option.map_none]
  read?_long b h := by
    refine ⟨m (Bytes.prefixOf F.size b), ?_, ?_⟩
    · rw [hread, Bytes.split?, if_pos h, Option.map_some]
    · rw [hwrite, hr, Bytes.toList_prefixOf h]
  fixed e o o' i hi := by
    rw [hwrite, hwrite, ← hm o, ← hm o']
    exact (hedit e).fixed _ _ i hi
  frame e o i hi := by
    rw [hwrite, hwrite, ← hm o, (hedit e).frame _ i hi, hr]
  covers_unique := covers_unique
  get_eq := get_eq
  decode_congr := decode_congr
  get_edit := get_edit

namespace Regular

variable {F : Format} (hF : F.Regular)
include hF

theorem ext {o o' : F.Carrier} (h : ∀ i, bit (F.write o) i = bit (F.write o') i) : o = o' :=
  hF.write_injective o o' (eq_of_bit_eq ((hF.length_write o).trans (hF.length_write o').symm) h)

theorem read_short (o : F.Carrier) {b : Bytes} (h : b.length < F.size) :
    F.readInto o b = (false, o, b) := by
  rw [readInto, hF.read?_short b h]

theorem read_long (o : F.Carrier) {b : Bytes} (h : F.size ≤ b.length) :
    ∃ o', F.readInto o b = (true, o', b.drop F.size) ∧ F.write o' = b.take F.size := by
  obtain ⟨o', hr, hw⟩ := hF.read?_long b h
  exact ⟨o', by rw [readInto, hr], hw⟩

/-- Other fields are read from bits that a setter leaves alone. -/
theorem get_edit_of_ne (e : F.Edit) (o : F.Carrier) {f : F.Field} (h : f ≠ F.target e) :
    F.get f (F.edit e o) = F.get f o := by
  rw [hF.get_eq, hF.get_eq]
  exact hF.decode_congr f _ _ fun i hi => hF.frame e o i fun he => h (hF.covers_unique f _ i hi he)

theorem edit_comm {d e : F.Edit} (o : F.Carrier) (h : F.target d ≠ F.target e) :
    F.edit d (F.edit e o) = F.edit e (F.edit d o) := by
  refine hF.ext fun i => ?_
  -- A bit belongs to one of the two fields at most, so only one of the setters decides it.
  by_cases hd : F.covers (F.target d) i
  · have he : ¬F.covers (F.target e) i := fun he => h (hF.covers_unique _ _ i hd he)
    rw [hF.frame e _ i he]
    exact hF.fixed d _ _ i hd
  · rw [hF.frame d _ i hd]
    by_cases he : F.covers (F.target e) i
    · exact hF.fixed e _ _ i he
    · rw [hF.frame e _ i he, hF.frame e _ i he, hF.frame d _ i hd]

theorem edit_edit {d e : F.Edit} (o : F.Carrier) (h : F.target d = F.target e) :
    F.edit d (F.edit e o) = F.edit d o := by
  refine hF.ext fun i => ?_
  by_cases hd : F.covers (F.target d) i
  · exact hF.fixed d _ _ i hd
  · rw [hF.frame d _ i hd, hF.frame d _ i hd, hF.frame e _ i (h ▸ hd)]

/-- The object holds what it should, and its reserved bits are those of the octets. -/
structure Holds (F : Format) (h : Bytes × List F.Edit) (o : F.Carrier) : Prop where
  get : ∀ f, F.get f o = F.expected f h
  reserved : ∀ i, (∀ f, ¬F.covers f i) → bit (F.write o) i = bit h.1 i

/-- Nothing has been set since an object was read. -/
theorem holds_of_write (o : F.Carrier) : Holds F (F.write o, []) o where
  get f := hF.get_eq f o
  reserved _ _ := rfl

theorem holds_edit {h : Bytes × List F.Edit} {o : F.Carrier} (ho : Holds F h o) (e : F.Edit) :
    Holds F (h.1, h.2 ++ [e]) (F.edit e o) where
  get f := by
    rw [expected, List.reverse_concat, List.findSome?_cons]
    by_cases hf : F.target e = f
    · subst hf
      rw [hF.get_edit, stored?, dif_pos rfl]
      rfl
    · rw [hF.get_edit_of_ne e o (Ne.symm hf), ho.get f, stored?, dif_neg hf]
      rfl
  reserved i hi := by
    rw [hF.frame e o i (hi _), ho.reserved i hi]

theorem holds_call {h : Bytes × List F.Edit} {o : F.Carrier} (ho : Holds F h o) (c : F.Call) :
    Holds F (F.note h c) (F.call o c) := by
  cases c with
  | set e => exact hF.holds_edit ho e
  | read b =>
    rw [note, call]
    by_cases hb : b.length < F.size
    · rw [if_pos hb, hF.read_short o hb]
      exact ho
    · obtain ⟨o', hr, hw⟩ := hF.read_long o (Nat.not_lt.mp hb)
      rw [if_neg hb, hr, ← hw]
      exact hF.holds_of_write o'

theorem holds_run {h : Bytes × List F.Edit} {o : F.Carrier} (ho : Holds F h o)
    (calls : List F.Call) : Holds F (calls.foldl F.note h) (F.run o calls) := by
  induction calls generalizing h o with
  | nil => exact ho
  | cons c calls ih => exact ih (hF.holds_call ho c)

theorem lawful : F.Lawful where
  length_write := hF.length_write
  read_short o _ h := hF.read_short o h
  read_long o _ h := hF.read_long o h
  get_edit := hF.get_edit
  covers_unique := hF.covers_unique
  bit_edit := hF.frame
  get_edit_of_ne e o _ h := hF.get_edit_of_ne e o h
  edit_comm _ _ o h := hF.edit_comm o h
  edit_edit _ _ o h := hF.edit_edit o h
  get_run f o calls := (hF.holds_run (hF.holds_of_write o) calls).get f
  reserved_run i o calls := (hF.holds_run (hF.holds_of_write o) calls).reserved i

end Regular

end Format

end Ndp

end RouterAdvert
