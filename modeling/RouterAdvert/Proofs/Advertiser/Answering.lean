import RouterAdvert.Proofs.Advertiser.Ending

/-! Every reason to advertise is answered, and none twice. A reason that comes while nothing is in
flight is answered at once; those that come while an advertisement is in flight are answered
together, by one more as soon as the end of the first has been handled. -/
namespace RouterAdvert.Advertiser

/-- Whether an event is a reason to advertise: the interval has passed, or a valid solicitation has
come in. -/
def triggers (e : Event) (a : Advertiser) : Bool :=
  a.phase = .active && match e with
    | .alarm .advertise false => true
    | .received (.ok data) => a.solicited data
    | _ => false

/-- An active advertiser notes down a reason only while it sends. -/
def Owing (a : Advertiser) : Prop :=
  a.phase = .active → a.sendPending = true → a.sending = true

section Outcomes

variable {now : Nat} {k : Conditions} {a b : Advertiser} {e : Event} {acts : List Effect}

theorem triggers_eq_true : a.triggers e = true ↔ a.phase = .active ∧
    (e = .alarm .advertise false ∨ ∃ data, e = .received (.ok data) ∧ a.solicited data = true) := by
  cases e with
  | start | cancel | sent => simp [triggers]
  | alarm p aborted => cases p <;> cases aborted <;> simp [triggers]
  | received r => cases r <;> simp [triggers]

theorem isSent_of_triggers (h : a.triggers e = true) : e.isSent = false := by
  obtain ⟨-, rfl | ⟨data, rfl, -⟩⟩ := triggers_eq_true.mp h <;> rfl

theorem sendPending_want (k : Conditions) (a : Advertiser) :
    (a.want k).sendPending = (a.sendPending || a.sending) := by
  unfold want
  split
  · rename_i hs
    simp [hs]
  · rename_i hs
    simp [hs, operate]

/-- An advertiser that sends has a connection, and does not dial any more. -/
theorem Dials.sending (hd : a.Dials e) (h : Sound (a.facing e)) : a.sending = false := by
  rcases hd with ⟨-, hi, -⟩ | ⟨-, hc⟩
  · exact (h.unconnected (Or.inl hi)).2.1
  · exact (h.unconnected (Or.inr hc)).2.1

/-- A reason to advertise is answered at once, or noted down. -/
theorem Outcome.of_triggers (o : Outcome now k a e b acts) (ht : a.triggers e = true) :
    acts.countP (·.isSend) = (!a.sending).toNat ∧ b.sending = true ∧
      b.sendPending = (a.sendPending || a.sending) := by
  obtain ⟨hp, he⟩ := triggers_eq_true.mp ht
  cases o with
  | rests hr =>
    have hc : a.phase = .closed := by
      obtain rfl | ⟨data, rfl, -⟩ := he <;> exact hr
    cases hp.symm.trans hc
  | ends hn => obtain rfl | ⟨data, rfl, -⟩ := he <;> exact hn.elim
  | fails hd | unfiltered hd | unjoined hd | opens hd =>
    have hle := hd.rank_le
    rw [hp] at hle
    exact absurd hle (by decide)
  | ticks => exact ⟨sends_wanted k a, sending_want k a, sendPending_want k a⟩
  | answers =>
    refine ⟨?_, sending_want k a, sendPending_want k a⟩
    rw [List.countP_append, sends_wanted]
    rfl
  | ignores _ hs =>
    obtain hx | ⟨data, hx, hs'⟩ := he
    · cases hx
    · cases hx
      cases hs.symm.trans hs'
  | follows | waits => obtain hx | ⟨data, hx, -⟩ := he <;> cases hx

/-- What is no valid solicitation is passed over. -/
theorem Outcome.of_unsolicited {data : Bytes} (o : Outcome now k a (.received (.ok data)) b acts)
    (hs : a.solicited data = false) :
    acts = (if a.phase = .closed then [] else [.call .receive none]) ∧
      b = { a with connection := b.connection, mailbox := b.mailbox } := by
  cases o with
  | rests hr =>
    have hc : a.phase = .closed := hr
    exact ⟨(if_pos hc).symm, rfl⟩
  | ends hn => exact hn.elim
  | fails hd | unfiltered hd | unjoined hd | opens hd =>
    rcases hd with ⟨⟨x, hx⟩, -⟩ | ⟨hx, -⟩ <;> cases hx
  | answers _ hs' => cases hs.symm.trans hs'
  | ignores hp =>
    have hc : a.phase ≠ .closed := by simp [hp]
    exact ⟨(if_neg hc).symm, rfl⟩

/-- While an advertisement is in flight, nothing but its end and reasons for another one make a
difference. -/
theorem Outcome.of_quiet (o : Outcome now k a e b acts) (h : Sound (a.facing e))
    (hs : a.sending = true) (he : e.isSent = false) (ht : a.triggers e = false) :
    acts.countP (·.isSend) = 0 ∧ b.sendPending = a.sendPending := by
  cases o with
  | rests | ignores => exact ⟨rfl, rfl⟩
  | ends => exact ⟨sends_farewell _ _, rfl⟩
  | fails hd | unfiltered hd | unjoined hd | opens hd => cases hs.symm.trans (hd.sending h)
  | ticks hp =>
    have ht' : a.triggers (.alarm .advertise false) = true := by simp [triggers, hp]
    cases ht.symm.trans ht'
  | @answers data hp hd =>
    have ht' : a.triggers (.received (.ok data)) = true := by simp [triggers, hp, hd]
    cases ht.symm.trans ht'
  | follows | waits => cases he

/-- After the end of an advertisement the next one follows if there was a reason. -/
theorem Outcome.of_goes {r : Option ErrorCode} (o : Outcome now k a (.sent r) b acts)
    (hg : a.Goes r) :
    acts.countP (·.isSend) = a.sendPending.toNat ∧ b.sendPending = false := by
  cases o with
  | rests hr => cases hg.1.symm.trans hr
  | ends hn =>
    cases r with
    | none => exact hn.elim
    | some x => cases hn.2.1.symm.trans (hg.2 x rfl)
  | fails hd | unfiltered hd | unjoined hd | opens hd =>
    have hle := hd.rank_le
    rw [hg.1] at hle
    exact absurd hle (by decide)
  | follows _ hp =>
    rw [hp, sendPending_want]
    exact ⟨rfl, rfl⟩
  | waits _ hp =>
    refine ⟨?_, hp⟩
    rw [hp]
    rfl

/-- The end of a send either leaves an advertiser at work or finds or leaves it closed. -/
theorem Outcome.closed_of_sent {r : Option ErrorCode} (o : Outcome now k a (.sent r) b acts)
    (hg : ¬a.Goes r) : b.phase = .closed := by
  cases o with
  | rests hr => exact hr
  | ends | unfiltered | unjoined => rfl
  | fails hd | opens hd =>
    rcases hd with ⟨⟨x, hx⟩, -⟩ | ⟨hx, -⟩ <;> cases hx
  | follows hg' | waits hg' => exact absurd hg' hg

theorem Outcome.owing (o : Outcome now k a e b acts) (ha : a.Owing) : b.Owing := by
  intro hp hn
  cases o with
  | rests hr =>
    have hs : a.sending = true := ha hp hn
    have he : e.isSent = false := by
      cases e with
      | sent => cases hp.symm.trans hr
      | start | cancel | alarm | received => rfl
    change (!e.isSent && a.sending) = true
    simp [he, hs]
  | ends | fails | unfiltered | unjoined => cases hp
  | opens | ticks | answers | follows => exact sending_want k _
  | ignores => exact ha hp hn
  | waits _ hq => cases hq.symm.trans hn

/-- Once an advertisement has been sent, no other one is due. -/
theorem Outcome.sendPending_of_sends (o : Outcome now k a e b acts) (h : Sound (a.facing e))
    (ha : a.Owing) (hs : acts.countP (·.isSend) = 1) :
    b.sending = true ∧ b.sendPending = false := by
  have hbusy : b.sending = true := by
    have hb := o.sending h
    have hle := Bool.toNat_le b.sending
    cases hx : b.sending with
    | true => rfl
    | false =>
      rw [hx, hs] at hb
      have hz : (false : Bool).toNat = 0 := rfl
      omega
  refine ⟨hbusy, ?_⟩
  have hidle (hp : a.phase = .active) (hw : (a.wanted k).countP (·.isSend) = 1) :
      (a.want k).sendPending = false := by
    have hn : a.sending = false := by
      rw [sends_wanted] at hw
      cases hx : a.sending <;> simp_all
    have hq : a.sendPending = false := by
      cases hx : a.sendPending with
      | false => rfl
      | true => cases hn.symm.trans (ha hp hx)
    rw [sendPending_want, hn, hq]
    rfl
  cases o with
  | rests | ignores | fails | waits => cases hs
  | ends => cases (sends_farewell _ _).symm.trans hs
  | unfiltered | unjoined =>
    rw [List.countP_append, sends_farewell] at hs
    cases hs
  | opens hd =>
    obtain ⟨-, -, -, hn, hq⟩ := h.accept_of_dials hd
    rw [sendPending_want]
    change ((a.accept e).sendPending || (a.accept e).sending) = false
    rw [hn, hq]
    rfl
  | ticks hp => exact hidle hp hs
  | answers hp =>
    rw [List.countP_append] at hs
    exact hidle hp hs
  | follows =>
    rw [sendPending_want]
    rfl

/-- Each advertisement, sent or noted down, has a reason of its own, but for the first on a
connection. -/
theorem Outcome.dues (o : Outcome now k a e b acts) (h : Sound (a.facing e)) :
    acts.countP (·.isSend) + b.sendPending.toNat ≤
      (connects k acts).toNat + a.sendPending.toNat + (a.triggers e).toNat := by
  have hwant : (!a.sending).toNat + (a.sendPending || a.sending).toNat ≤
      a.sendPending.toNat + 1 := by
    cases a.sending <;> cases a.sendPending <;> decide
  cases o with
  | rests | fails | ignores =>
    change 0 + a.sendPending.toNat ≤ _
    omega
  | ends =>
    rw [sends_farewell]
    change 0 + a.sendPending.toNat ≤ _
    omega
  | unfiltered | unjoined =>
    rw [List.countP_append, sends_farewell]
    change 0 + a.sendPending.toNat ≤ _
    omega
  | opens hd hk =>
    obtain ⟨-, -, -, hn, hq⟩ := h.accept_of_dials hd
    have hcon : (connects k [.dial, .call .filter none, .call .join none, .call .receive none,
        .call (.send a.profile.advert) k.send]).toNat = 1 := by
      simp [connects, hk, Effect.isDial, Except.isOk, Except.toBool]
    rw [sendPending_want, hcon]
    change 1 + ((a.accept e).sendPending || (a.accept e).sending).toNat ≤ _
    rw [hn, hq]
    change 1 + 0 ≤ _
    omega
  | ticks hp =>
    have ht : a.triggers (.alarm .advertise false) = true := by simp [triggers, hp]
    have hone : (true : Bool).toNat = 1 := rfl
    rw [ht, sends_wanted, sendPending_want]
    omega
  | @answers data hp hd =>
    have ht : a.triggers (.received (.ok data)) = true := by simp [triggers, hp, hd]
    have hone : (true : Bool).toNat = 1 := rfl
    have hb : (a.want k).listen.sendPending = (a.sendPending || a.sending) := sendPending_want k a
    have hs : (a.wanted k ++ [Effect.call .receive none]).countP (·.isSend) =
        (!a.sending).toNat := by
      rw [List.countP_append, sends_wanted]
      rfl
    rw [ht, hs, hb]
    omega
  | follows _ hq =>
    rw [sendPending_want, hq]
    change 1 + 0 ≤ _ + 1 + _
    omega
  | waits =>
    change 0 + a.sendPending.toNat ≤ _
    omega

end Outcomes

theorem Stir.sendPending {now : Nat} {a b : Advertiser} (s : Stir now a b) :
    b.sendPending = a.sendPending := by rw [s.frame]

namespace Deed

/-- Whether an event that was handled was a reason to advertise. -/
def isTrigger (d : Deed) : Bool := d.before.triggers d.event

/-- How many advertisements were sent. -/
def sends (d : Deed) : Nat := d.after.acts.countP (·.isSend)

/-- Whether the end of a send was handled that left the advertiser at work. -/
def GoesOn (d : Deed) : Prop := ∃ r, d.event = .sent r ∧ d.before.Goes r

end Deed

namespace Life

variable {r : Profile} {l l' : Life}

/-- How many reasons to advertise there were. -/
def triggers (l : Life) : Nat := l.deeds.countP (·.isTrigger)

theorem Step.owing (s : Step l l') (h : Sound l.advertiser) (hl : l.advertiser.Owing) :
    l'.advertiser.Owing := by
  cases s with
  | pass => exact hl
  | stir hs =>
    intro hp hn
    rw [become, hs.sending]
    exact hl (hs.phase.symm.trans hp) (hs.sendPending.symm.trans hn)
  | handle k hm hk =>
    obtain ⟨-, o⟩ := outcome_of_step? h hm hk
    exact o.owing hl

theorem Reachable.owing (h : Reachable r l) : l.advertiser.Owing := by
  induction h with
  | new => simp [Owing]
  | step h s ih => exact s.owing h.sound ih

theorem issued_add (d : Deed) (l : Life) : (l.add d).issued = l.issued + d.sends := by
  simp [issued, acts, add, Deed.sends]

theorem triggers_add (d : Deed) (l : Life) :
    (l.add d).triggers = l.triggers + d.isTrigger.toNat := by
  cases h : d.isTrigger <;> simp [triggers, add, h]

theorem Step.due (s : Step l l') (h : Sound l.advertiser)
    (hl : l.issued + l.advertiser.sendPending.toNat ≤ l.connections + l.triggers) :
    l'.issued + l'.advertiser.sendPending.toNat ≤ l'.connections + l'.triggers := by
  cases s with
  | pass => exact hl
  | @stir a hs =>
    have hb : a.sendPending = l.advertiser.sendPending := hs.sendPending
    change l.issued + a.sendPending.toNat ≤ _
    rw [hb]
    exact hl
  | @handle k e rest t hm hk =>
    obtain ⟨hs, o⟩ := outcome_of_step? h hm hk
    have hd : (l.deed k e rest t).sends + t.state.sendPending.toNat ≤
        (connects k t.acts).toNat + l.advertiser.sendPending.toNat +
          (l.deed k e rest t).isTrigger.toNat := o.dues hs
    have hb : (l.add (l.deed k e rest t)).advertiser.sendPending = t.state.sendPending := rfl
    rw [issued_add, triggers_add, connections_add, hb]
    omega

/-- There is an advertisement, sent or due, for each connection and each reason at most. -/
theorem Reachable.due (h : Reachable r l) :
    l.issued + l.advertiser.sendPending.toNat ≤ l.connections + l.triggers := by
  induction h with
  | new => exact Nat.le_refl 0
  | step h s ih => exact s.due h.sound ih

/-- Every deed was done by a life that had come to it. -/
theorem Reachable.cut (h : Reachable r l) {xs ys : List Deed} {d : Deed}
    (hd : l.deeds = xs ++ d :: ys) :
    ∃ l₀, Reachable r l₀ ∧ l₀.deeds = xs ∧ l₀.advertiser = facing d.event d.before ∧
      Step l₀ (l₀.add d) ∧ Later (l₀.add d) l := by
  induction h generalizing ys with
  | new => simp at hd
  | @step l l' h s ih =>
    cases s with
    | pass delay =>
      obtain ⟨l₀, hr, hx, ha, hs, hl⟩ := ih hd
      exact ⟨l₀, hr, hx, ha, hs, hl.step (.pass delay)⟩
    | stir hst =>
      obtain ⟨l₀, hr, hx, ha, hs, hl⟩ := ih hd
      exact ⟨l₀, hr, hx, ha, hs, hl.step (.stir hst)⟩
    | @handle k e rest t hm hk =>
      have hlast : Step l (l.add (l.deed k e rest t)) := .handle k hm hk
      rcases List.eq_nil_or_concat ys with rfl | ⟨ys, x, rfl⟩
      · obtain ⟨hx, hy⟩ := List.append_inj' hd rfl
        obtain rfl := (List.singleton_inj.mp hy).symm
        exact ⟨l, h, hx, eq_facing hm, hlast, .refl⟩
      · have hd : l.deeds ++ [l.deed k e rest t] = (xs ++ d :: ys) ++ [x] := by
          simpa [add] using hd
        obtain ⟨l₀, hr, hx, ha, hs, hl⟩ := ih (List.append_inj' hd rfl).1
        exact ⟨l₀, hr, hx, ha, hs, hl.step hlast⟩

/-- Until the end of an advertisement in flight is handled nothing is sent, and one reason to
advertise is noted down as well as any number of them. -/
theorem Later.meanwhile (hl : Later l l') (h : Reachable r l) (hs : l.advertiser.sending = true) :
    ∃ ys, l'.deeds = l.deeds ++ ys ∧ ((∀ x ∈ ys, x.event.isSent = false) →
      l'.advertiser.sending = true ∧ (∀ x ∈ ys, x.sends = 0) ∧
        l'.advertiser.sendPending = (l.advertiser.sendPending || ys.any (·.isTrigger))) := by
  induction hl with
  | refl => exact ⟨[], by simp, fun _ => ⟨hs, by simp, by simp⟩⟩
  | @step l₁ l₂ hl s ih =>
    obtain ⟨ys, hd, hys⟩ := ih
    cases s with
    | pass => exact ⟨ys, hd, hys⟩
    | stir hst =>
      refine ⟨ys, hd, fun hn => ?_⟩
      obtain ⟨hb, hz, hp⟩ := hys hn
      exact ⟨hst.sending.trans hb, hz, hst.sendPending.trans hp⟩
    | @handle k e rest t hm hk =>
      obtain ⟨hf, o⟩ := outcome_of_step? (h.later hl).sound hm hk
      refine ⟨ys ++ [l₁.deed k e rest t], by simp [add, hd], fun hn => ?_⟩
      have he : e.isSent = false := hn (l₁.deed k e rest t) (by simp)
      obtain ⟨hb, hz, hp⟩ := hys fun x hx => hn x (by simp [hx])
      have hgo : t.acts.countP (·.isSend) = 0 ∧ t.state.sendPending =
          (l₁.advertiser.sendPending || (l₁.deed k e rest t).isTrigger) := by
        cases ht : (l₁.deed k e rest t).isTrigger with
        | true =>
          obtain ⟨hn, -, hq⟩ := o.of_triggers ht
          constructor
          · simpa [hb] using hn
          · simpa [hb] using hq
        | false => simpa using o.of_quiet hf hb he ht
      refine ⟨?_, ?_, ?_⟩
      · change t.state.sending = true
        have hsend := o.sending hf
        rw [hgo.1] at hsend
        simpa [accept, he, hb] using hsend
      · intro x hx
        rcases List.mem_append.mp hx with hx | hx
        · exact hz x hx
        · obtain rfl := List.mem_singleton.mp hx
          exact hgo.1
      · change t.state.sendPending = _
        rw [hgo.2, hp]
        simp [Bool.or_assoc]

/-- What came to pass since a deed that left an advertisement in flight, as long as its end has not
been handled. -/
theorem Reachable.meanwhile (h : Reachable r l) {xs ys : List Deed} {s : Deed}
    (hd : l.deeds = xs ++ s :: ys) (hs : s.after.state.sending = true)
    (hn : ∀ x ∈ ys, x.event.isSent = false) :
    l.advertiser.sending = true ∧ (∀ x ∈ ys, x.sends = 0) ∧
      l.advertiser.sendPending = (s.after.state.sendPending || ys.any (·.isTrigger)) := by
  obtain ⟨l₀, hr₀, hx₀, -, hst, hl⟩ := h.cut hd
  obtain ⟨us, hus, hmean⟩ := hl.meanwhile (hr₀.step hst) hs
  have huy : us = ys := by
    have heq : xs ++ s :: ys = (l₀.deeds ++ [s]) ++ us := hd.symm.trans hus
    rw [hx₀, List.append_assoc, List.singleton_append] at heq
    exact (List.cons.inj (List.append_cancel_left heq)).2.symm
  subst huy
  exact hmean hn

/-- What was noted down while an advertisement was in flight, and nothing else, is sent when the end
of that advertisement is handled. -/
theorem Reachable.next_end (h : Reachable r l) {xs ys zs : List Deed} {s e : Deed}
    (hd : l.deeds = xs ++ s :: (ys ++ e :: zs)) (hs : s.after.state.sending = true)
    (hn : ∀ x ∈ ys, x.event.isSent = false) :
    (∀ x ∈ ys, x.sends = 0) ∧
      (e.GoesOn → e.sends = (s.after.state.sendPending || ys.any (·.isTrigger)).toNat) := by
  have hde : l.deeds = (xs ++ s :: ys) ++ e :: zs := by simpa using hd
  obtain ⟨l₁, hr₁, hx₁, ha₁, -, -⟩ := h.cut hde
  obtain ⟨-, hz, hp⟩ := hr₁.meanwhile hx₁ hs hn
  refine ⟨hz, ?_⟩
  rintro ⟨x, hx, hg⟩
  obtain ⟨-, o⟩ := h.outcome e (by simp [hd])
  rw [hx] at o
  have hsends : e.sends = e.before.sendPending.toNat := (o.of_goes hg).1
  have hb : e.before.sendPending = l₁.advertiser.sendPending := by rw [ha₁]; rfl
  rw [hsends, hb, hp]

/-- A reason to advertise is answered at once, or noted down while an advertisement is in flight. -/
theorem Reachable.of_isTrigger (h : Reachable r l) {xs ys : List Deed} {d : Deed}
    (hd : l.deeds = xs ++ d :: ys) (ht : d.isTrigger = true) :
    d.after.state.sending = true ∧ (d.sends = 1 ∨ d.sends = 0 ∧ d.before.inFlight = 1 ∧
      d.after.state.sendPending = true) := by
  obtain ⟨l₀, hr₀, -, ha₀, -, -⟩ := h.cut hd
  obtain ⟨-, o⟩ := h.outcome d (by simp [hd])
  obtain ⟨hsends, hbusy, hpend⟩ := o.of_triggers ht
  refine ⟨hbusy, ?_⟩
  cases hb : d.before.sending with
  | false =>
    rw [hb] at hsends
    exact Or.inl hsends
  | true =>
    rw [hb] at hsends hpend
    have hflight : (facing d.event d.before).inFlight = d.before.sending.toNat := by
      have hbal := hr₀.balanced.sending
      rw [ha₀] at hbal
      exact hbal
    rw [inFlight_facing, isSent_of_triggers ht, hb] at hflight
    refine Or.inr ⟨hsends, hflight, ?_⟩
    rw [hpend, Bool.or_true]

/-- A reason that was noted down is answered, unless the advertiser is closed or the end of the
advertisement that was in flight has not been handled. -/
theorem Reachable.answered (h : Reachable r l) {xs ys : List Deed} {d : Deed}
    (hd : l.deeds = xs ++ d :: ys) (hs : d.after.state.sending = true)
    (hp : d.after.state.sendPending = true) :
    (∃ x ∈ ys, x.sends = 1) ∨ l.advertiser.phase = .closed ∨
      l.advertiser.sendPending = true ∧ l.advertiser.inFlight = 1 ∧
        ∀ x ∈ ys, x.event.isSent = false := by
  cases hf : ys.find? (·.event.isSent) with
  | none =>
    have hn : ∀ x ∈ ys, x.event.isSent = false := by simpa using hf
    obtain ⟨hbusy, -, hpend⟩ := h.meanwhile hd hs hn
    have hflight := h.balanced.sending
    rw [hbusy] at hflight
    refine Or.inr (Or.inr ⟨?_, hflight, hn⟩)
    rw [hpend, hp, Bool.true_or]
  | some e =>
    obtain ⟨he, zs, ws, rfl, hz⟩ := List.find?_eq_some_iff_append.mp hf
    have hn : ∀ x ∈ zs, x.event.isSent = false := by simpa using hz
    by_cases hg : e.GoesOn
    · refine Or.inl ⟨e, by simp, ?_⟩
      rw [(h.next_end hd hs hn).2 hg, hp, Bool.true_or]
      rfl
    · have hde : l.deeds = (xs ++ d :: zs) ++ e :: ws := by simpa using hd
      obtain ⟨l₁, hr₁, -, -, hst, hl⟩ := h.cut hde
      obtain ⟨-, o⟩ := h.outcome e (by simp [hd])
      have hc : e.after.state.phase = .closed := by
        cases hx : e.event with
        | sent x =>
          rw [hx] at o
          exact o.closed_of_sent fun hgo => hg ⟨x, hx, hgo⟩
        | start | cancel | alarm | received =>
          rw [hx] at he
          cases he
      exact Or.inr (Or.inl (hl.closed (hr₁.step hst) hc).1)

/-- Each reason to advertise is answered at once, or, if an advertisement is in flight, when the end
of that one has been handled and the advertiser goes on; any number of reasons meanwhile are
answered by one advertisement, and none are answered by none. There are no more advertisements than
reasons, but for the first. What is no valid solicitation changes nothing, and the next receive
follows. -/
theorem answers_every_trigger (h : Reachable r l) :
    (∀ xs d ys, l.deeds = xs ++ d :: ys → d.isTrigger = true →
      (d.sends = 1 ∨
        d.sends = 0 ∧ d.before.inFlight = 1 ∧ d.after.state.sendPending = true ∧
          ∀ zs e ws, ys = zs ++ e :: ws → (∀ x ∈ zs, x.event.isSent = false) → e.GoesOn →
            e.sends = 1) ∧
      ((∃ x ∈ d :: ys, x.sends = 1) ∨ l.advertiser.phase = .closed ∨
        l.advertiser.sendPending = true ∧ l.advertiser.inFlight = 1 ∧
          ∀ x ∈ ys, x.event.isSent = false)) ∧
    l.issued ≤ 1 + l.triggers ∧
    (∀ xs s ys e zs, l.deeds = xs ++ s :: (ys ++ e :: zs) → s.sends = 1 →
      (∀ x ∈ ys, x.event.isSent = false) →
      (∀ x ∈ ys, x.sends = 0) ∧
        (e.GoesOn → e.sends = if ys.any (·.isTrigger) then 1 else 0)) ∧
    (∀ d ∈ l.deeds, ∀ data, d.event = .received (.ok data) → d.before.solicited data = false →
      d.after.acts = (if d.before.phase = .closed then [] else [.call .receive none]) ∧
        d.after.state = { d.before with
          connection := d.after.state.connection
          mailbox := d.after.state.mailbox }) := by
  refine ⟨fun xs d ys hd ht => ?_, ?_, fun xs s ys e zs hd hs hn => ?_, fun d hd data hx hs => ?_⟩
  · obtain ⟨hbusy, hnow | ⟨hz, hf, hp⟩⟩ := h.of_isTrigger hd ht
    · exact ⟨Or.inl hnow, Or.inl ⟨d, List.mem_cons_self, hnow⟩⟩
    · constructor
      · refine Or.inr ⟨hz, hf, hp, fun zs e ws hy hn hg => ?_⟩
        subst hy
        rw [(h.next_end hd hbusy hn).2 hg, hp, Bool.true_or]
        rfl
      · rcases h.answered hd hbusy hp with ⟨x, hx, hone⟩ | hrest
        · exact Or.inl ⟨x, List.mem_cons_of_mem d hx, hone⟩
        · exact Or.inr hrest
  · have hdue := h.due
    have hcon : l.connections ≤ 1 := by
      rw [h.ending.connections]
      exact Bool.toNat_le _
    omega
  · obtain ⟨l₀, hr₀, -, ha₀, -, -⟩ := h.cut hd
    obtain ⟨hf, o⟩ := h.outcome s (by simp [hd])
    have hown : s.before.Owing := by
      have hown₀ := hr₀.owing
      rw [ha₀] at hown₀
      exact hown₀
    obtain ⟨hbusy, hq⟩ := o.sendPending_of_sends hf hown hs
    obtain ⟨hz, hgo⟩ := h.next_end hd hbusy hn
    refine ⟨hz, fun hg => ?_⟩
    rw [hgo hg, hq, Bool.false_or]
    cases ys.any (·.isTrigger) <;> rfl
  · obtain ⟨-, o⟩ := h.outcome d hd
    rw [hx] at o
    exact o.of_unsolicited hs

/-- Two solicitations that come in while the first advertisement is held back are answered by one
more, when it is released. -/
theorem answers_two_at_release :
    ∃ l : Life, Reachable ⟨{}, [], 200, 5⟩ l ∧ ∃ s ys e, l.deeds = [s] ++ ys ++ [e] ∧
      s.sends = 1 ∧ ys.countP (·.isTrigger) = 2 ∧ (∀ x ∈ ys, x.sends = 0) ∧ e.sends = 1 := by
  let k : Conditions := { dial := .ok { source := ⟨.unspecified, 0⟩, holdSends := true } }
  let data : Bytes := [133, 0, 0, 0, 0, 0, 0, 0]
  have valid (unspecified : Bool) : Ndp.Solicitation.check data unspecified = .ok := by
    cases unspecified <;> decide +kernel
  have handled (a : Advertiser) (now : Nat) (hp : a.phase = .active) :
      let sender := (a.connection.map (·.sender)).getD .unspecified
      Turn.handle now k (.received (.ok data)) { state := a } =
        ((Turn.note (.solicited a.profile.link.name sender) { state := a }).sendAdvert
          k).receive := by
    simp [Turn.handle, Turn.received, Turn.solicit, Turn.name, hp, valid]
  have isTrigger (a : Advertiser) (hp : a.phase = .active) :
      a.triggers (.received (.ok data)) = true := by
    simp [Advertiser.triggers, hp, solicited, valid]
  have opened := ((Reachable.new (p := ⟨{}, [], 200, 5⟩) 0).step
    (.stir (.start .deregister))).step (.handle k rfl rfl)
  have asked := (opened.step (.stir (.arrive (x := .ok ⟨data, .unspecified⟩) rfl))).step
    (.stir (.arrive (x := .ok ⟨data, .unspecified⟩) rfl))
  have noted := (asked.step (.handle k rfl (congrArg some (handled _ _ rfl)))).step
    (.handle k rfl (congrArg some (handled _ _ rfl)))
  have released := (noted.step (.stir (.release (e := none) rfl))).step (.handle k rfl rfl)
  obtain ⟨-, -, hone, -⟩ := answers_every_trigger released
  obtain ⟨hz, hgo⟩ := hone [] _ [_, _] _ [] rfl rfl
    (List.forall_mem_cons.mpr ⟨rfl, List.forall_mem_singleton.mpr rfl⟩)
  refine ⟨_, released, _, [_, _], _, rfl, rfl, ?_, hz, ?_⟩
  · exact List.countP_eq_length.mpr (List.forall_mem_cons.mpr
      ⟨isTrigger _ rfl, List.forall_mem_singleton.mpr (isTrigger _ rfl)⟩)
  · refine (hgo ⟨none, rfl, rfl, by simp⟩).trans (if_pos ?_)
    exact List.any_eq_true.mpr ⟨_, List.mem_cons_self, isTrigger _ rfl⟩

end Life

end RouterAdvert.Advertiser
