import RouterAdvert.Proofs.Advertiser.Waiting

/-! How an advertiser ends. It goes from phase to phase in one direction; the first event that puts
an end to it decides the code, the first starter is told it once, and nothing is done after that. -/
namespace RouterAdvert

namespace Phase

theorem rank_le_closed (p : Phase) : p.rank ≤ closed.rank := by
  cases p <;> decide

end Phase

namespace Advertiser

namespace Effect

/-- Whether an act belongs to the end: the connection is closed, or the starter is told. -/
def isLast : Effect → Bool
  | call .close _ | exit _ _ => true
  | _ => false

def isExit : Effect → Bool
  | exit _ _ => true
  | _ => false

/-- The error of a call without which there is no advertising. -/
def refusal? : Effect → Option ErrorCode
  | call .filter fault | call .join fault => fault
  | _ => none

end Effect

namespace Event

def starter? : Event → Option ExitHandler
  | start h => some h
  | _ => none

end Event

/-- The code with which an event puts an end to an advertiser that is not closed, if it does. -/
def verdict? (e : Event) (acts : List Effect) (a : Advertiser) : Option ErrorCode :=
  match e with
  | .start _ => if a.canceled then some .canceled else acts.findSome? (·.refusal?)
  | .cancel => if a.phase = .connecting ∨ a.phase = .active then some .canceled else none
  | .alarm _ _ => acts.findSome? (·.refusal?)
  | .received (.error x) => some x
  | .received (.ok _) => none
  | .sent r => r.filter fun x => !Turn.isPassing x

/-- Whether a dial was made, and gave a connection. -/
def connects (k : Conditions) (acts : List Effect) : Bool := acts.any (·.isDial) && k.dial.isOk

section Outcomes

variable {now : Nat} {k : Conditions} {a b : Advertiser} {e : Event} {acts : List Effect}

theorem verdict?_of_dials (h : a.Dials e) (acts : List Effect) :
    a.verdict? e acts = acts.findSome? (·.refusal?) := by
  rcases h with ⟨⟨x, rfl⟩, -, hc⟩ | ⟨rfl, -⟩
  · simp [verdict?, hc]
  · rfl

theorem verdict?_of_ends {code : ErrorCode} (h : a.Ends e code) (acts : List Effect) :
    a.verdict? e acts = some code := by
  cases e with
  | start x => simp [verdict?, h.2.1, h.2.2]
  | cancel => simp [verdict?, h.1, h.2]
  | alarm p aborted => exact h.elim
  | received r =>
    cases r with
    | ok data => exact h.elim
    | error x => exact congrArg some h.2.symm
  | sent r =>
    cases r with
    | none => exact h.elim
    | some x => simp [verdict?, h.2.1, h.2.2]

theorem Ends.phase {code : ErrorCode} (h : a.Ends e code) :
    (∃ x, e = .start x) ∧ a.phase = .idle ∨ a.phase = .connecting ∨ a.phase = .active := by
  cases e with
  | start x => exact Or.inl ⟨⟨x, rfl⟩, h.1⟩
  | cancel => exact Or.inr h.1
  | alarm _ _ => exact h.elim
  | received r =>
    cases r with
    | ok _ => exact h.elim
    | error _ => exact Or.inr (Or.inr h.1)
  | sent r =>
    cases r with
    | none => exact h.elim
    | some _ => exact Or.inr (Or.inr h.1)

theorem onExit_accept_of_ne_idle (h : a.phase ≠ .idle) (e : Event) :
    (a.accept e).onExit = a.onExit := by
  cases e <;> simp [accept, h]

/-- Whoever ends has been started. -/
theorem Ends.isSome_onExit {code : ErrorCode} (he : a.Ends e code) (h : Sound (a.facing e)) :
    (a.accept e).onExit.isSome := by
  rcases he.phase with ⟨⟨x, rfl⟩, hi⟩ | hp
  · rw [accept_start_of_idle hi]
    rfl
  · rw [onExit_accept_of_ne_idle (by rcases hp with hp | hp <;> simp [hp])]
    exact h.starter.mpr hp

theorem verdict?_of_goes {r : Option ErrorCode} (h : a.Goes r) (acts : List Effect) :
    a.verdict? (.sent r) acts = none := by
  simpa [verdict?, Option.filter_eq_none_iff] using h.2

theorem verdict?_of_rests (h : Sound (a.facing e)) (hr : a.Rests e) (ha : a.phase ≠ .closed) :
    a.verdict? e [] = none := by
  cases e with
  | start x =>
    have hc : a.canceled = false := by
      cases hc : a.canceled with
      | false => rfl
      | true => exact absurd (h.canceled hc) (not_or.mpr ⟨hr, ha⟩)
    simp [verdict?, hc]
  | cancel => simp [verdict?, hr.resolve_right ha]
  | alarm p aborted => rfl
  | received r | sent r => exact absurd hr ha

theorem wanted_work (k : Conditions) (a : Advertiser) :
    (a.wanted k).findSome? (·.refusal?) = none ∧ ∀ x ∈ a.wanted k, x.isLast = false := by
  unfold wanted
  split
  · exact ⟨rfl, by simp⟩
  · exact ⟨rfl, by simp [Effect.isLast]⟩

theorem onExit_want (k : Conditions) (a : Advertiser) : (a.want k).onExit = a.onExit := by
  unfold want
  split <;> rfl

theorem canceled_want (k : Conditions) (a : Advertiser) : (a.want k).canceled = a.canceled := by
  unfold want
  split <;> rfl

theorem Dials.rank_le (h : a.Dials e) : a.phase.rank ≤ Phase.connecting.rank := by
  rcases h with ⟨-, hi, -⟩ | ⟨-, hc⟩
  · rw [hi]
    decide
  · exact Nat.le_of_eq (congrArg _ hc)

theorem Outcome.rank_le (o : Outcome now k a e b acts) : a.phase.rank ≤ b.phase.rank := by
  cases o with
  | rests | ignores | waits => exact Nat.le_refl _
  | ends | unfiltered | unjoined => exact a.phase.rank_le_closed
  | fails hd => exact hd.rank_le
  | opens hd =>
    rw [phase_want]
    exact Nat.le_trans hd.rank_le (by decide : Phase.connecting.rank ≤ Phase.active.rank)
  | ticks | answers => exact Nat.le_of_eq (congrArg Phase.rank (phase_want k a).symm)
  | follows =>
    have hp := phase_want k { a with sending := false, sendPending := false }
    exact Nat.le_of_eq (congrArg Phase.rank hp.symm)

theorem Outcome.canceled (o : Outcome now k a e b acts) :
    b.canceled = (e.isCancel || a.canceled) := by
  cases o with
  | rests | ends | fails | unfiltered | unjoined | ignores | waits => rfl
  | opens | ticks | follows => rw [canceled_want]; rfl
  | answers => exact canceled_want k a

theorem connects_append (k : Conditions) (acts more : List Effect) :
    connects k (acts ++ more) = (connects k acts || connects k more) := by
  simp [connects, Bool.and_or_distrib_right]

theorem connects_wanted (k : Conditions) (a : Advertiser) : connects k (a.wanted k) = false := by
  unfold wanted
  split <;> rfl

theorem connects_farewell (k : Conditions) (code : ErrorCode) (a : Advertiser) :
    connects k (a.farewell code) = false := by
  cases hc : a.connection <;> cases hx : a.onExit <;>
    simp [connects, farewell, hc, hx, Effect.isDial]

theorem isSome_connection_operate (f : Connection → Connection × List Completion)
    (a : Advertiser) : (a.operate f).connection.isSome = a.connection.isSome := Option.isSome_map

/-- There is one connection for each dial that gave one. -/
theorem Outcome.connection (o : Outcome now k a e b acts) (h : Sound (a.facing e)) :
    b.connection.isSome.toNat = a.connection.isSome.toNat + (connects k acts).toNat := by
  cases o with
  | rests | waits => rfl
  | ends =>
    rw [connects_farewell]
    exact congrArg Bool.toNat Option.isSome_map
  | fails hd hk => simp [connects, hk, accept, Except.isOk, Except.toBool]
  | unfiltered hd hk | unjoined hd hk =>
    have hn : a.connection = none := (h.accept_of_dials hd).2.2.1
    rw [connects_append, connects_farewell]
    simp [connects, hk, hn, ended, dialed, Effect.isDial, Except.isOk, Except.toBool]
  | opens hd hk =>
    have hn : a.connection = none := (h.accept_of_dials hd).2.2.1
    rw [isSome_connection_want, listen, isSome_connection_operate]
    simp [connects, hk, hn, dialed, Effect.isDial, Except.isOk, Except.toBool]
  | ticks =>
    rw [isSome_connection_want, connects_wanted]
    rfl
  | answers =>
    rw [listen, isSome_connection_operate, isSome_connection_want, connects_append, connects_wanted]
    rfl
  | ignores =>
    rw [listen, isSome_connection_operate]
    rfl
  | follows =>
    rw [isSome_connection_want]
    rfl

/-- After the end there is nothing to do. -/
theorem Outcome.of_closed (o : Outcome now k a e b acts) (ha : a.phase = .closed) :
    acts = [] ∧ b.phase = .closed := by
  cases o with
  | rests => exact ⟨rfl, ha⟩
  | ends he => rcases he.phase with ⟨-, hp⟩ | hp | hp <;> cases ha.symm.trans hp
  | fails hd | unfiltered hd | unjoined hd | opens hd =>
    exact absurd hd.rank_le (by rw [ha]; decide)
  | ticks hp | answers hp | ignores hp => cases ha.symm.trans hp
  | follows hg | waits hg => cases ha.symm.trans hg.1

/-- An advertiser that is not closed has not come to an end. -/
theorem Outcome.goes_on (o : Outcome now k a e b acts) (h : Sound (a.facing e))
    (hb : b.phase ≠ .closed) :
    b.onExit = (a.accept e).onExit ∧ a.verdict? e acts = none ∧ ∀ x ∈ acts, x.isLast = false := by
  obtain ⟨hr, hl⟩ := wanted_work k a
  cases o with
  | rests hr => exact ⟨rfl, verdict?_of_rests h hr hb, by simp⟩
  | ends | unfiltered | unjoined => exact absurd rfl hb
  | fails hd => exact ⟨rfl, verdict?_of_dials hd _, by simp [Effect.isLast]⟩
  | opens hd => exact ⟨onExit_want k _, verdict?_of_dials hd _, by simp [Effect.isLast]⟩
  | ticks => exact ⟨onExit_want k a, hr, hl⟩
  | answers =>
    refine ⟨onExit_want k a, rfl, fun x hx => ?_⟩
    rcases List.mem_append.mp hx with hx | hx
    · exact hl x hx
    · rw [List.mem_singleton.mp hx]
      rfl
  | ignores => exact ⟨rfl, rfl, by simp [Effect.isLast]⟩
  | follows hg => exact ⟨onExit_want k _, verdict?_of_goes hg _, by simp [Effect.isLast]⟩
  | waits hg => exact ⟨rfl, verdict?_of_goes hg _, by simp [Effect.isLast]⟩

theorem farewell_eq {x : ExitHandler} (hx : a.onExit = some x) (code : ErrorCode) :
    a.farewell code =
      List.replicate a.ended.connection.isSome.toNat (.call .close none) ++ [.exit x code] := by
  cases hc : a.connection <;> simp [farewell, ended, hx, hc]

/-- An advertiser that closes is told why, and so is its starter. -/
theorem Outcome.closes (o : Outcome now k a e b acts) (h : Sound (a.facing e))
    (ha : a.phase ≠ .closed) (hb : b.phase = .closed) :
    ∃ x code work, (a.accept e).onExit = some x ∧ a.verdict? e acts = some code ∧
      acts =
        work ++ List.replicate b.connection.isSome.toNat (.call .close none) ++ [.exit x code] ∧
      ∀ y ∈ work, y.isLast = false := by
  cases o with
  | rests => exact absurd hb ha
  | @ends _ code he =>
    obtain ⟨x, hx⟩ := Option.isSome_iff_exists.mp (he.isSome_onExit h)
    exact ⟨x, code, [], hx, verdict?_of_ends he _, farewell_eq hx code, by simp⟩
  | @unfiltered _ d code hd =>
    obtain ⟨x, hx⟩ := Option.isSome_iff_exists.mp (h.accept_of_dials hd).1
    refine ⟨x, code, [.dial, .call .filter (some code)], hx, verdict?_of_dials hd _, ?_, ?_⟩
    · rw [farewell_eq (a := (a.accept e).dialed d) hx code, ← List.append_assoc]
    · simp [Effect.isLast]
  | @unjoined _ d code hd =>
    obtain ⟨x, hx⟩ := Option.isSome_iff_exists.mp (h.accept_of_dials hd).1
    refine ⟨x, code, [.dial, .call .filter none, .call .join (some code)], hx,
      verdict?_of_dials hd _, ?_, ?_⟩
    · rw [farewell_eq (a := (a.accept e).dialed d) hx code, ← List.append_assoc]
    · simp [Effect.isLast]
  | fails => cases hb
  | opens => cases (phase_want k _).symm.trans hb
  | ticks hp | answers hp => cases hp.symm.trans ((phase_want k a).symm.trans hb)
  | ignores hp => cases hp.symm.trans hb
  | follows hg => cases hg.1.symm.trans ((phase_want k _).symm.trans hb :)
  | waits hg => cases hg.1.symm.trans hb

theorem Outcome.of_idle (o : Outcome now k a e b acts) (hb : b.phase = .idle) :
    acts = [] ∧ a.phase = .idle := by
  cases o with
  | rests => exact ⟨rfl, hb⟩
  | ends | fails | unfiltered | unjoined => cases hb
  | opens => cases (phase_want k _).symm.trans hb
  | ticks hp | answers hp => cases hp.symm.trans ((phase_want k a).symm.trans hb)
  | ignores hp => cases hp.symm.trans hb
  | follows hg => cases hg.1.symm.trans ((phase_want k _).symm.trans hb :)
  | waits hg => cases hg.1.symm.trans hb

/-- After a cancellation that came first nothing is done but to tell the starter. -/
theorem Outcome.of_canceled (o : Outcome now k a e b acts) (h : Sound (a.facing e))
    (hi : a.phase = .idle) (hc : a.canceled = true) :
    b.phase = .idle ∧ acts = [] ∨ b.phase = .closed ∧ ∀ x ∈ acts, x.isExit = true := by
  have hd : ¬ a.Dials e := by
    rintro (⟨-, -, hn⟩ | ⟨-, hp⟩)
    · cases hn.symm.trans hc
    · cases hi.symm.trans hp
  cases o with
  | rests => exact Or.inl ⟨hi, rfl⟩
  | ends =>
    have hn : (a.accept e).connection = none := (h.unconnected (Or.inl hi)).1
    refine Or.inr ⟨rfl, fun x hx => ?_⟩
    obtain ⟨y, -, rfl⟩ : ∃ y, (a.accept e).onExit = some y ∧ _ = x := by
      simpa [farewell, hn] using hx
    rfl
  | fails hd' | unfiltered hd' | unjoined hd' | opens hd' => exact absurd hd' hd
  | ticks hp | answers hp | ignores hp => cases hi.symm.trans hp
  | follows hg | waits hg => cases hi.symm.trans hg.1

/-- The first to start an advertiser is the one who is told. -/
theorem onExit_accept (h : Sound (a.facing e)) (ha : a.phase ≠ .closed) :
    (a.accept e).onExit = a.onExit.or e.starter? := by
  have hs : a.onExit.isSome ↔ a.phase = .connecting ∨ a.phase = .active := h.starter
  by_cases hi : a.phase = .idle
  · have hn : a.onExit = none := by simpa [hi] using hs
    cases e <;> simp [accept, hi, hn, Event.starter?]
  · have hx : a.onExit.isSome := hs.mpr (by cases hp : a.phase <;> simp_all)
    obtain ⟨x, hx⟩ := Option.isSome_iff_exists.mp hx
    rw [onExit_accept_of_ne_idle hi, hx]
    rfl

theorem Stir.isSome_connection (s : Stir now a b) :
    b.connection.isSome = a.connection.isSome := by
  cases s with
  | start | cancel => rfl
  | ring hx => rw [ring_eq hx]
  | arrive ha => rw [(operate_of_arrive ha).2, isSome_connection_operate]
  | release ha => rw [(operate_of_release ha).2, isSome_connection_operate]

end Outcomes

namespace Life

variable {r : Profile} {l l' : Life}

/-- Who was the first to start the advertiser. -/
def starter? (l : Life) : Option ExitHandler := l.deeds.findSome? (·.event.starter?)

/-- The code of the first deed that puts an end to the life. -/
def verdict? (l : Life) : Option ErrorCode :=
  l.deeds.findSome? fun d => d.before.verdict? d.event d.after.acts

/-- How many connections were dialed. -/
def connections (l : Life) : Nat := l.deeds.countP fun d => connects d.conditions d.after.acts

structure Ending (l : Life) : Prop where
  starter : l.advertiser.phase ≠ .closed → l.advertiser.onExit = l.starter?
  idle : l.advertiser.phase = .idle → l.acts = []
  going : l.advertiser.phase ≠ .closed → l.verdict? = none ∧ ∀ e ∈ l.acts, e.isLast = false
  gone : l.advertiser.phase = .closed → ∃ x code work,
    l.starter? = some x ∧ l.verdict? = some code ∧
      l.acts = work ++ List.replicate l.connections (.call .close none) ++ [.exit x code] ∧
      ∀ e ∈ work, e.isLast = false
  canceled : l.advertiser.canceled = l.deeds.any (·.event.isCancel)
  connections : l.connections = l.advertiser.connection.isSome.toNat

section Add

variable (k : Conditions) (e : Event) (rest : List Event) (t : Turn) (l : Life)

theorem starter?_add : (l.add (l.deed k e rest t)).starter? = l.starter?.or e.starter? := by
  simp only [starter?, add, deed, List.findSome?_append, List.findSome?_singleton]

theorem verdict?_add : (l.add (l.deed k e rest t)).verdict? =
    l.verdict?.or (Advertiser.verdict? e t.acts { l.advertiser with mailbox := rest }) := by
  simp only [Life.verdict?, add, deed, List.findSome?_append, List.findSome?_singleton]

theorem connections_add :
    (l.add (l.deed k e rest t)).connections = l.connections + (connects k t.acts).toNat := by
  simp only [connections, add, deed, List.countP_append, List.countP_singleton]
  cases connects k t.acts <;> rfl

end Add

/-- Handling an event, in whatever phase, keeps the record. -/
theorem Ending.handle (hl : l.Ending) (h : Sound l.advertiser) {k : Conditions} {e : Event}
    {rest : List Event} {t : Turn} (hm : l.advertiser.mailbox = e :: rest)
    (hk : l.advertiser.step? l.now k = some t) : (l.add (l.deed k e rest t)).Ending := by
  obtain ⟨hs, o⟩ := outcome_of_step? h hm hk
  have hcon :
      (l.add (l.deed k e rest t)).connections = t.state.connection.isSome.toNat := by
    rw [connections_add, hl.connections]
    exact (o.connection hs).symm
  have hst (ha : l.advertiser.phase ≠ .closed) :
      (accept e { l.advertiser with mailbox := rest }).onExit =
        (l.add (l.deed k e rest t)).starter? := by
    rw [onExit_accept hs ha, starter?_add, ← hl.starter ha]
  -- An advertiser that goes on after an event did so before it.
  have hback (hb : t.state.phase ≠ .closed) : l.advertiser.phase ≠ .closed :=
    fun ha => hb (o.of_closed ha).2
  constructor
  case starter =>
    intro hb
    exact (o.goes_on hs hb).1.trans (hst (hback hb))
  case idle =>
    intro hb
    obtain ⟨hn, hi⟩ := o.of_idle hb
    rw [acts_add, hl.idle hi]
    exact hn
  case going =>
    intro hb
    obtain ⟨hv, hw⟩ := hl.going (hback hb)
    obtain ⟨-, hv', hw'⟩ := o.goes_on hs hb
    rw [verdict?_add, hv, acts_add]
    exact ⟨hv', fun x hx => (List.mem_append.mp hx).elim (hw x) (hw' x)⟩
  case gone =>
    intro hb
    by_cases ha : l.advertiser.phase = .closed
    · obtain ⟨x, code, work, hx, hv, hw, hl'⟩ := hl.gone ha
      have hn := (o.of_closed ha).1
      refine ⟨x, code, work, by rw [starter?_add, hx]; rfl, by rw [verdict?_add, hv]; rfl, ?_, hl'⟩
      rw [acts_add, connections_add, hw, hn]
      simp [connects]
    · obtain ⟨hv, hw⟩ := hl.going ha
      obtain ⟨x, code, work, hx, hv', hw', hlast⟩ := o.closes hs ha hb
      refine ⟨x, code, l.acts ++ work, (hst ha).symm.trans hx, by rw [verdict?_add, hv]; exact hv',
        ?_, fun y hy => (List.mem_append.mp hy).elim (hw y) (hlast y)⟩
      rw [acts_add, hcon, hw']
      simp only [List.append_assoc]
  case canceled =>
    change t.state.canceled = (l.deeds ++ [_]).any _
    rw [o.canceled, List.any_append, ← hl.canceled]
    simp [deed, Bool.or_comm]
  case connections =>
    exact hcon

theorem Step.ending (s : Step l l') (h : Sound l.advertiser) (hl : l.Ending) : l'.Ending := by
  cases s with
  | pass d => exact ⟨hl.starter, hl.idle, hl.going, hl.gone, hl.canceled, hl.connections⟩
  | stir hs =>
    exact {
      starter := fun hn => hs.onExit.trans (hl.starter (hs.phase ▸ hn))
      idle := fun hi => hl.idle (hs.phase ▸ hi)
      going := fun hn => hl.going (hs.phase ▸ hn)
      gone := fun hg => hl.gone (hs.phase ▸ hg)
      canceled := hs.canceled.trans hl.canceled
      connections := hl.connections.trans (congrArg _ hs.isSome_connection.symm) }
  | handle k hm hk => exact hl.handle h hm hk

theorem Reachable.ending (h : Reachable r l) : l.Ending := by
  induction h with
  | new now => exact ⟨fun _ => rfl, fun _ => rfl, fun _ => ⟨rfl, by simp [acts]⟩, by simp, rfl, rfl⟩
  | step h s ih => exact s.ending h.sound ih

theorem Step.rank_le (s : Step l l') (h : Sound l.advertiser) :
    l.advertiser.phase.rank ≤ l'.advertiser.phase.rank := by
  cases s with
  | pass => exact Nat.le_refl _
  | stir hs => exact Nat.le_of_eq (congrArg _ hs.phase.symm)
  | handle k hm hk => exact (outcome_of_step? h hm hk).2.rank_le

theorem Later.rank_le (hl : Later l l') (h : Reachable r l) :
    l.advertiser.phase.rank ≤ l'.advertiser.phase.rank := by
  induction hl with
  | refl => exact Nat.le_refl _
  | step hl s ih => exact Nat.le_trans ih (s.rank_le (h.later hl).sound)

theorem Later.closed (hl : Later l l') (h : Reachable r l) (hc : l.advertiser.phase = .closed) :
    l'.advertiser.phase = .closed ∧ l'.acts = l.acts := by
  induction hl with
  | refl => exact ⟨hc, rfl⟩
  | step hl s ih =>
    obtain ⟨hp, ha⟩ := ih
    cases s with
    | pass => exact ⟨hp, ha⟩
    | stir hs => exact ⟨hs.phase.trans hp, ha⟩
    | handle k hm hk =>
      obtain ⟨hn, hq⟩ := (outcome_of_step? (h.later hl).sound hm hk).2.of_closed hp
      exact ⟨hq, by rw [acts_add, hn, ha, List.append_nil]⟩

/-- Whether a cancellation was handled before any start, and nothing else was done. -/
def Forestalled (l : Life) : Prop :=
  l.advertiser.phase = .idle ∧ l.advertiser.canceled = true ∧ l.acts = [] ∨
    l.advertiser.phase = .closed ∧ ∀ e ∈ l.acts, e.isExit = true

theorem Step.forestalled (s : Step l l') (h : Sound l.advertiser) (hf : l.Forestalled) :
    l'.Forestalled := by
  cases s with
  | pass => exact hf
  | stir hs =>
    exact hf.imp (fun ⟨hi, hx, ha⟩ => ⟨hs.phase.trans hi, hs.canceled.trans hx, ha⟩)
      fun ⟨hx, ha⟩ => ⟨hs.phase.trans hx, ha⟩
  | handle k hm hk =>
    obtain ⟨hs, o⟩ := outcome_of_step? h hm hk
    rw [Forestalled, acts_add]
    rcases hf with ⟨hi, hc, ha⟩ | ⟨hp, ha⟩
    · rw [ha]
      have hcan := o.canceled.trans (by rw [hc, Bool.or_true])
      exact (o.of_canceled hs hi hc).imp (fun ⟨hb, hn⟩ => ⟨hb, hcan, hn⟩) id
    · obtain ⟨hn, hq⟩ := o.of_closed hp
      refine Or.inr ⟨hq, ?_⟩
      rwa [hn, List.append_nil]

theorem Later.forestalled (hl : Later l l') (h : Reachable r l) (hf : l.Forestalled) :
    l'.Forestalled := by
  induction hl with
  | refl => exact hf
  | step hl s ih => exact s.forestalled (h.later hl).sound ih

/-- What was handled has had the outcomes that there are. -/
theorem Reachable.outcome (h : Reachable r l) : ∀ d ∈ l.deeds,
    Sound (facing d.event d.before) ∧
      Outcome d.time d.conditions d.before d.event d.after.state d.after.acts := by
  induction h with
  | new => simp
  | step h s ih =>
    cases s with
    | pass | stir => exact ih
    | handle k hm hk =>
      intro d hd
      rcases List.mem_append.mp hd with hd | hd
      · exact ih d hd
      · obtain rfl := List.mem_singleton.mp hd
        exact outcome_of_step? h.sound hm hk

/-- An advertiser tells of its end in the deed that closes it. -/
theorem Reachable.exits_iff (h : Reachable r l) {d : Deed} (hd : d ∈ l.deeds) :
    d.after.acts.any (·.isExit) = true ↔
      d.before.phase ≠ .closed ∧ d.after.state.phase = .closed := by
  obtain ⟨hs, o⟩ := h.outcome d hd
  constructor
  · intro hx
    obtain ⟨e, he, hx⟩ := List.any_eq_true.mp hx
    refine ⟨fun ha => ?_, Decidable.byContradiction fun hb => ?_⟩
    · rw [(o.of_closed ha).1] at he
      cases he
    · have hl := (o.goes_on hs hb).2.2 e he
      cases e <;> simp [Effect.isExit, Effect.isLast] at hx hl
  · rintro ⟨ha, hb⟩
    obtain ⟨x, code, work, -, -, hw, -⟩ := o.closes hs ha hb
    simp [hw, Effect.isExit]

/-- An advertiser goes through its phases in order. When it closes, and only then, the first to have
started it is told the code of the first event that put an end to it, after the connection, if one
was dialed, has been closed; nothing is done after that. A cancellation that comes before the start
prevents everything else. -/
theorem ends_once (h : Reachable r l) :
    (∀ l', Later l l' → l.advertiser.phase.rank ≤ l'.advertiser.phase.rank) ∧
    (l.advertiser.phase ≠ .closed → l.verdict? = none ∧ ∀ e ∈ l.acts, e.isLast = false) ∧
    (l.advertiser.phase = .closed → ∃ x code work,
      l.starter? = some x ∧ l.verdict? = some code ∧
        l.acts = work ++ List.replicate l.connections (.call .close none) ++ [.exit x code] ∧
        (∀ e ∈ work, e.isLast = false) ∧
        ∀ l', Later l l' → l'.acts = l.acts ∧ l'.advertiser.alarm = none) ∧
    (∀ d ∈ l.deeds, d.after.acts.any (·.isExit) = true ↔
      d.before.phase ≠ .closed ∧ d.after.state.phase = .closed) ∧
    l.connections ≤ 1 ∧
    l.advertiser.canceled = l.deeds.any (·.event.isCancel) ∧
    (l.starter? = none → l.deeds.any (·.event.isCancel) = true →
      ∀ l', Later l l' → ∀ e ∈ l'.acts, e.isExit = true) := by
  have he := h.ending
  refine ⟨fun l' hl => hl.rank_le h, he.going, fun hc => ?_, fun d hd => h.exits_iff hd, ?_,
    he.canceled, fun hs hx l' hl => ?_⟩
  · obtain ⟨x, code, work, hx, hv, hw, hlast⟩ := he.gone hc
    refine ⟨x, code, work, hx, hv, hw, hlast, fun l' hl => ?_⟩
    obtain ⟨hp, ha⟩ := hl.closed h hc
    exact ⟨ha, (h.later hl).sound.alarm_eq_none (Or.inr hp)⟩
  · rw [he.connections]
    exact Bool.toNat_le _
  · have hp : l.advertiser.phase ≠ .closed := fun hc => by
      obtain ⟨x, code, work, hy, -⟩ := he.gone hc
      cases hs.symm.trans hy
    have hc := he.canceled.trans hx
    have hi : l.advertiser.phase = .idle := (h.sound.canceled hc).resolve_right hp
    rcases hl.forestalled h (Or.inl ⟨hi, hc, he.idle hi⟩) with ⟨-, -, ha⟩ | ⟨-, ha⟩
    · simp [ha]
    · exact ha

/-- Of two starters the first is told of a cancellation, after the connection was closed. -/
theorem ends_once_of_two_starts :
    ∃ l : Life, Reachable ⟨{}, [], 200, 5⟩ l ∧ ∃ work,
      l.acts = work ++ [.call .close none] ++ [.exit (.numbered 1) .canceled] ∧
      ∀ e ∈ work, e.isLast = false := by
  let k : Conditions := { dial := .ok { source := ⟨.unspecified, 0⟩ } }
  have asked := ((Reachable.new (p := ⟨{}, [], 200, 5⟩) 0).step (.stir (.start (.numbered 1)))).step
    (.stir (.start (.numbered 2))) |>.step (.stir .cancel)
  have ran := ((asked.step (.handle k rfl rfl)).step (.handle k rfl rfl)).step (.handle k rfl rfl)
  obtain ⟨x, code, work, hx, hv, hw, hl, -⟩ := (ends_once ran).2.2.1 rfl
  have hx' : ExitHandler.numbered 1 = x := Option.some.inj hx
  have hv' : ErrorCode.canceled = code := Option.some.inj hv
  subst hx' hv'
  exact ⟨_, ran, work, hw, hl⟩

end Life

end Advertiser

end RouterAdvert
