import RouterAdvert.Proofs.Advertiser.Life

/-! Operations on the connection that are not over: the connection still holds them, or their end
waits in the mailbox. Sends and receives are counted in the same way: what was begun is over or
pending, whatever happens and in whatever order. -/
namespace RouterAdvert.Advertiser

/-- The effects of a kind among completed operations. -/
def endsIn (ends : Event → Bool) (done : List Completion) : Nat :=
  (done.map Event.ofCompletion).countP ends

/-- A kind of operation: which acts begin one, which events tell of the end of one, and how many of
them a connection holds. A call begins as many as it adds to those held or completed. -/
structure Operation where
  begins : ConnectionCall → Bool
  ends : Event → Bool
  held : Connection → Nat
  ends_start (h : ExitHandler) : ends (.start h) = false
  ends_cancel : ends .cancel = false
  ends_alarm (p : Purpose) (aborted : Bool) : ends (.alarm p aborted) = false
  begins_filter : begins .filter = false
  begins_join : begins .join = false
  begins_close : begins .close = false
  held_connect (d : Endpoint) : held d.connect = 0
  held_receive (room : Nat) (c : Connection) :
    held (c.receive room).1 + endsIn ends (c.receive room).2 = held c + (begins .receive).toNat
  held_send (fault : Option ErrorCode) (data : Bytes) (c : Connection) :
    held (c.send fault).1 + endsIn ends (c.send fault).2 = held c + (begins (.send data)).toNat
  held_arrive (x : Arrival) (c : Connection) :
    held (c.arrive x).1 + endsIn ends (c.arrive x).2 = held c
  held_release (e : Option ErrorCode) (c : Connection) :
    held ((c.release? e).getD (c, [])).1 + endsIn ends ((c.release? e).getD (c, [])).2 = held c
  held_close (c : Connection) : held c.close.1 + endsIn ends c.close.2 = held c

namespace Effect

/-- Whether an act is a call of some kind. -/
def calls (kind : ConnectionCall → Bool) : Effect → Bool
  | call c _ => kind c
  | _ => false

end Effect

namespace Operation

variable (op : Operation) {a : Advertiser} {e : Event}

/-- The operations of a kind that are not over. -/
def pending (a : Advertiser) : Nat := a.mailbox.countP op.ends + a.connection.elim 0 op.held

/-- How many operations of a kind were begun by some acts. -/
def begun (acts : List Effect) : Nat := acts.countP (·.calls op.begins)

@[simp] theorem begun_nil : op.begun [] = 0 := rfl

@[simp] theorem begun_append (acts more : List Effect) :
    op.begun (acts ++ more) = op.begun acts + op.begun more := List.countP_append

@[simp] theorem begun_call (c : ConnectionCall) (fault : Option ErrorCode) (acts : List Effect) :
    op.begun (.call c fault :: acts) = (op.begins c).toNat + op.begun acts := by
  cases h : op.begins c <;> simp [begun, Effect.calls, h, Nat.add_comm]

@[simp] theorem begun_dial (acts : List Effect) : op.begun (.dial :: acts) = op.begun acts := rfl

@[simp] theorem begun_armed (acts : List Effect) : op.begun (.armed :: acts) = op.begun acts := rfl

theorem begun_farewell (code : ErrorCode) (a : Advertiser) : op.begun (a.farewell code) = 0 := by
  cases hc : a.connection <;> cases hx : a.onExit <;>
    simp [farewell, hc, hx, begun, Effect.calls, op.begins_close]

theorem pending_facing (e : Event) (a : Advertiser) :
    op.pending (a.facing e) = op.pending a + (op.ends e).toNat := by
  have hc : (a.facing e).mailbox.countP op.ends = a.mailbox.countP op.ends + (op.ends e).toNat := by
    cases h : op.ends e <;> simp [facing, h]
  have hk : (a.facing e).connection = a.connection := rfl
  rw [pending, pending, hc, hk]
  omega

/-- Events that tell of no end may be added. -/
theorem pending_append {es : List Event} (h : ∀ e ∈ es, op.ends e = false) :
    op.pending { a with mailbox := a.mailbox ++ es } = op.pending a := by
  have hz : es.countP op.ends = 0 := List.countP_eq_zero.mpr fun e he => by simp [h e he]
  simp [pending, hz]

theorem pending_operate {f : Connection → Connection × List Completion} {n : Nat}
    (hc : a.connection.isSome)
    (h : ∀ c, op.held (f c).1 + endsIn op.ends (f c).2 = op.held c + n) :
    op.pending (a.operate f) = op.pending a + n := by
  obtain ⟨c, hc⟩ := Option.isSome_iff_exists.mp hc
  have hn := h c
  simp only [endsIn] at hn
  rw [operate_of_some hc]
  simp only [pending, hc, Option.elim_some, List.countP_append]
  omega

theorem pending_listen (hc : a.connection.isSome) :
    op.pending a.listen = op.pending a + (op.begins .receive).toNat :=
  op.pending_operate hc (op.held_receive receiveRoom)

theorem pending_want (hc : a.connection.isSome) (k : Conditions) :
    op.pending (a.want k) = op.pending a + op.begun (a.wanted k) := by
  unfold want wanted
  split
  · rfl
  · have ho := op.pending_operate (a := { a with sending := true }) hc
      (op.held_send k.send a.profile.advert)
    rw [ho, begun_call, begun_nil, Nat.add_zero]
    rfl

theorem ends_abortedAlarm : ∀ e ∈ a.abortedAlarm, op.ends e = false := by
  intro e he
  obtain ⟨x, -, rfl⟩ := List.mem_map.mp he
  exact op.ends_alarm x.purpose true

/-- Nothing is lost at the end: what was pending is reported as canceled. -/
theorem pending_ended (a : Advertiser) : op.pending a.ended = op.pending a := by
  have hz : a.abortedAlarm.countP op.ends = 0 :=
    List.countP_eq_zero.mpr fun e he => by simp [op.ends_abortedAlarm e he]
  cases hc : a.connection with
  | none => simp [pending, ended, abortedCalls, hc, hz]
  | some c =>
    have h := op.held_close c
    simp only [endsIn] at h
    simp only [pending, ended, abortedCalls, hc, Option.toList_some, List.flatMap_singleton,
      Option.map_some, Option.elim_some, List.countP_append, hz]
    omega

theorem pending_dialed (h : a.connection = none) (d : Endpoint) :
    op.pending (a.dialed d) = op.pending a := by
  simp [pending, dialed, h, op.held_connect]

variable {now : Nat} {k : Conditions} {b : Advertiser} {acts : List Effect}

/-- What becomes pending with an event is what was begun. -/
theorem pending_outcome (o : Outcome now k a e b acts) (h : Sound (a.facing e)) :
    op.pending b = op.pending a + op.begun acts := by
  cases o with
  | rests => rfl
  | ends =>
    rw [pending_ended, begun_farewell]
    rfl
  | fails => rfl
  | unfiltered hd =>
    have hc : (a.accept e).connection = none := (h.accept_of_dials hd).2.2.1
    rw [pending_ended, op.pending_dialed hc, begun_append, begun_farewell]
    simp only [begun_dial, begun_call, begun_nil, op.begins_filter]
    rfl
  | unjoined hd =>
    have hc : (a.accept e).connection = none := (h.accept_of_dials hd).2.2.1
    rw [pending_ended, op.pending_dialed hc, begun_append, begun_farewell]
    simp only [begun_dial, begun_call, begun_nil, op.begins_filter, op.begins_join]
    rfl
  | @opens _ d hd =>
    obtain ⟨-, -, hc, hs, -⟩ := h.accept_of_dials hd
    have ha : op.pending { (a.accept e).dialed d with phase := .active } = op.pending a :=
      op.pending_dialed hc d
    have hw : (({ (a.accept e).dialed d with phase := .active } : Advertiser).listen).wanted k =
        [.call (.send a.profile.advert) k.send] :=
      if_neg (by simpa [listen, operate, dialed] using hs)
    rw [op.pending_want rfl, op.pending_listen rfl, ha, hw]
    simp only [begun_dial, begun_call, begun_nil, op.begins_filter, op.begins_join,
      Bool.toNat_false]
    omega
  | ticks hp => exact op.pending_want (h.connected_of_facing hp) k
  | answers hp =>
    have hc : a.connection.isSome := h.connected_of_facing hp
    rw [op.pending_listen (by rwa [isSome_connection_want]), op.pending_want hc, begun_append,
      begun_call, begun_nil]
    omega
  | ignores hp =>
    rw [op.pending_listen (h.connected_of_facing hp), begun_call, begun_nil]
    rfl
  | follows hg =>
    have hc : a.connection.isSome := h.connected_of_facing hg.1
    exact op.pending_want (a := { a with sending := false, sendPending := false }) hc k
  | waits => exact op.pending_append op.ends_abortedAlarm

/-- Nothing that happens around an advertiser begins an operation or loses the end of one. -/
theorem pending_stir (s : Stir now a b) : op.pending b = op.pending a := by
  cases s with
  | start h => exact op.pending_append (by simp [op.ends_start])
  | cancel => exact op.pending_append (by simp [op.ends_cancel])
  | ring hx =>
    rw [ring_eq hx]
    exact op.pending_append (a := { a with alarm := none }) (by simp [op.ends_alarm])
  | arrive ha =>
    obtain ⟨hc, rfl⟩ := operate_of_arrive ha
    exact op.pending_operate hc (n := 0) (op.held_arrive _)
  | release ha =>
    obtain ⟨hc, rfl⟩ := operate_of_release ha
    exact op.pending_operate hc (n := 0) (op.held_release _)

variable {p : Profile} {l l' : Life}

theorem begun_step (s : Life.Step l l') (h : Sound l.advertiser)
    (hb : op.begun l.acts = l.deeds.countP (op.ends ·.event) + op.pending l.advertiser) :
    op.begun l'.acts = l'.deeds.countP (op.ends ·.event) + op.pending l'.advertiser := by
  cases s with
  | pass d => exact hb
  | stir hs => exact hb.trans (congrArg _ (op.pending_stir hs).symm)
  | @handle k e rest t hm hk =>
    obtain ⟨hs, o⟩ := Life.outcome_of_step? h hm hk
    have hd : (l.add (l.deed k e rest t)).deeds.countP (op.ends ·.event) =
        l.deeds.countP (op.ends ·.event) + (op.ends e).toNat := by
      cases he : op.ends e <;> simp [Life.add, Life.deed, List.countP_append, he]
    have hp : op.pending (l.add (l.deed k e rest t)).advertiser =
        op.pending { l.advertiser with mailbox := rest } + op.begun t.acts :=
      op.pending_outcome o hs
    have hf : op.pending l.advertiser =
        op.pending { l.advertiser with mailbox := rest } + (op.ends e).toNat := by
      rw [← pending_facing, ← eq_facing hm]
    rw [Life.acts_add, begun_append, hd, hp, hb, hf]
    omega

/-- Whatever was begun is over or pending. -/
theorem begun_eq (h : Life.Reachable p l) :
    op.begun l.acts = l.deeds.countP (op.ends ·.event) + op.pending l.advertiser := by
  induction h with
  | new now => rfl
  | step h s ih => exact op.begun_step s h.sound ih

end Operation

end RouterAdvert.Advertiser
