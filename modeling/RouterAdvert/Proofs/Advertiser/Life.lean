import RouterAdvert.Proofs.Advertiser.Outcome

/-! The life of an advertiser in any surroundings. Starts, cancellations, datagrams, errors, ends of
held sends and the going off of the alarm come in any order, time passes between any two of them,
and each event is handled whenever, and under whatever conditions, it happens to be. What has been
handled so far is kept as a record beside the advertiser. -/
namespace RouterAdvert.Advertiser

/-- One event that was handled: when, under which conditions, by whom, and what came of it. -/
structure Deed where
  time : Nat
  conditions : Conditions
  event : Event
  /-- The advertiser when it had just taken the event. -/
  before : Advertiser
  after : Turn

/-- An advertiser at some time, with everything that it has handled, oldest first. -/
structure Life where
  now : Nat
  advertiser : Advertiser
  deeds : List Deed := []

namespace Life

/-- All that was done so far, in order, messages apart. -/
def acts (l : Life) : List Effect := l.deeds.flatMap (·.after.acts)

/-- The time of the last deed of some kind. -/
def last? (p : Deed → Bool) (l : Life) : Option Nat := (l.deeds.reverse.find? p).map (·.time)

/-- Puts another advertiser in its place, with the same past. -/
def become (a : Advertiser) (l : Life) : Life := { l with advertiser := a }

/-- The life after one more deed. -/
def add (d : Deed) (l : Life) : Life :=
  { l with advertiser := d.after.state, deeds := l.deeds ++ [d] }

/-- The deed of handling the oldest event `e` under some conditions. -/
def deed (k : Conditions) (e : Event) (rest : List Event) (t : Turn) (l : Life) : Deed :=
  { time := l.now
    conditions := k
    event := e
    before := { l.advertiser with mailbox := rest }
    after := t }

/-- What can happen next. Each event is handled under any conditions. -/
inductive Step (l : Life) : Life → Prop
  | pass (delay : Nat) : Step l { l with now := l.now + delay }
  | stir {a : Advertiser} (h : Stir l.now l.advertiser a) : Step l (l.become a)
  | handle (k : Conditions) {e : Event} {rest : List Event} {t : Turn}
    (hm : l.advertiser.mailbox = e :: rest) (h : l.advertiser.step? l.now k = some t) :
    Step l (l.add (l.deed k e rest t))

/-- The lives of advertisers with this profile. -/
inductive Reachable (p : Profile) : Life → Prop
  | new (now : Nat) : Reachable p { now := now, advertiser := { profile := p } }
  | step {l l' : Life} (h : Reachable p l) (s : Step l l') : Reachable p l'

/-- What a life can come to. -/
inductive Later (l : Life) : Life → Prop
  | refl : Later l l
  | step {l' l'' : Life} (h : Later l l') (s : Step l' l'') : Later l l''

variable {p : Profile} {l l' : Life} {e : Event} {rest : List Event}

theorem Reachable.later (h : Reachable p l) (hl : Later l l') : Reachable p l' := by
  induction hl with
  | refl => exact h
  | step _ s ih => exact ih.step s

theorem acts_add (k : Conditions) (e : Event) (rest : List Event) (t : Turn) (l : Life) :
    (l.add (l.deed k e rest t)).acts = l.acts ++ t.acts := by
  simp [acts, add, deed]

theorem last?_add (q : Deed → Bool) (d : Deed) (l : Life) :
    (l.add d).last? q = if q d then some d.time else l.last? q := by
  simp only [last?, add, List.reverse_append, List.reverse_singleton, List.singleton_append,
    List.find?_cons]
  cases q d <;> rfl

theorem eq_handle_of_step? {a : Advertiser} {now : Nat} {k : Conditions} {t : Turn}
    (hm : a.mailbox = e :: rest) (h : a.step? now k = some t) :
    t = Turn.handle now k e { state := { a with mailbox := rest } } := by
  simp only [step?, hm, Option.some.injEq] at h
  exact h.symm

/-- The oldest event of a sound advertiser has one of the outcomes that there are. -/
theorem outcome_of_step? {a : Advertiser} {now : Nat} {k : Conditions} {t : Turn} (hs : Sound a)
    (hm : a.mailbox = e :: rest) (h : a.step? now k = some t) :
    Sound (facing e { a with mailbox := rest }) ∧
      Outcome now k { a with mailbox := rest } e t.state t.acts := by
  rw [eq_facing hm] at hs
  rw [eq_handle_of_step? hm h]
  exact ⟨hs, hs.outcome now k⟩

theorem Step.sound (s : Step l l') (h : Sound l.advertiser) : Sound l'.advertiser := by
  cases s with
  | pass d => exact h
  | stir hs => exact hs.sound h
  | handle k hm hk =>
    obtain ⟨hf, o⟩ := outcome_of_step? h hm hk
    exact hf.of_outcome o

theorem Reachable.sound (h : Reachable p l) : Sound l.advertiser := by
  induction h with
  | new now => exact .new p
  | step _ s ih => exact s.sound ih

end Life

end RouterAdvert.Advertiser
