import RouterAdvert.Bytes

/-! Options as they follow each other in a Neighbor Discovery message: a type, a length in units of
eight octets, and what belongs to it. -/
namespace RouterAdvert.Ndp

/-- Whether these octets are one option. -/
def IsOption (o : Bytes) : Prop :=
  ∃ type units body, o = type :: units :: body ∧ o.length = 8 * units.toNat

/-- Cuts octets into options; nothing if they do not come out even. -/
def options? (b : Bytes) : Option (List Bytes) :=
  match b with
  | [] => some []
  | [_] => none
  | type :: units :: body =>
    let length := 8 * units.toNat
    if length = 0 ∨ length > body.length + 2 then none
    else
      (options? (body.drop (length - 2))).map fun os =>
        (type :: units :: body.take (length - 2)) :: os
termination_by b.length

theorem options?_append {o : Bytes} (h : IsOption o) (rest : Bytes) :
    options? (o ++ rest) = (options? rest).map (o :: ·) := by
  obtain ⟨type, units, body, rfl, hl⟩ := h
  have hl : body.length + 2 = 8 * units.toNat := hl
  have hbody : 8 * units.toNat - 2 = body.length := by omega
  rw [List.cons_append, List.cons_append, options?]
  simp only [hbody, List.length_append, List.drop_left, List.take_left]
  exact if_neg (by omega)

/-- What was put together from options is cut into these. -/
theorem options?_flatten {os : List Bytes} (h : ∀ o ∈ os, IsOption o) :
    options? os.flatten = some os := by
  induction os with
  | nil => rw [List.flatten_nil, options?]
  | cons o os ih =>
    rw [List.flatten_cons, options?_append (h o List.mem_cons_self),
      ih fun x hx => h x (List.mem_cons_of_mem o hx)]
    rfl

end RouterAdvert.Ndp
