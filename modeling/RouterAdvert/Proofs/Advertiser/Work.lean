import RouterAdvert.Proofs.Advertiser.Ending
import RouterAdvert.Proofs.Loop

/-! The work of an advertiser comes to an end. Whatever an event leads to weighs less than the event
itself, and a closed advertiser has nothing pending on its connection. -/
namespace RouterAdvert

namespace Connection

/-- A closed connection, on which nothing is pending any more. -/
structure IsShut (c : Connection) : Prop where
  closed : c.isOpen = false
  waiting : c.waiting = []
  held : c.held = 0

theorem isShut_close (c : Connection) : c.close.1.IsShut := ⟨rfl, rfl, rfl⟩

/-- Nothing begins or ends on a connection that is shut. -/
theorem IsShut.arrive {c : Connection} (h : c.IsShut) (x : Arrival) : c.arrive x = (c, []) := by
  simp [Connection.arrive, h.waiting, h.closed]

theorem IsShut.release {c : Connection} (h : c.IsShut) (e : Option ErrorCode) :
    c.release? e = none := if_pos h.held

end Connection

namespace Advertiser

theorem one_le_weight (e : Event) : 1 ≤ e.weight := by
  cases e with
  | start | cancel | sent => simp [Event.weight]
  | alarm p aborted => cases aborted <;> simp [Event.weight]
  | received r => cases r <;> simp [Event.weight]

/-- The completions of some calls. -/
def endings (done : List Completion) : Nat :=
  total Event.weight (done.map Event.ofCompletion)

theorem weight_deliver (room : Nat) (x : Arrival) (c : Connection) :
    connectionWeight (c.deliver room x).1 = connectionWeight c ∧
      endings [(c.deliver room x).2] ≤ 5 := by
  cases x with
  | error => exact ⟨rfl, (Nat.le_add_left 1 4 : 1 ≤ 5)⟩
  | ok d => exact ⟨rfl, Nat.le_refl 5⟩

theorem weight_receive (room : Nat) (c : Connection) :
    connectionWeight (c.receive room).1 + endings (c.receive room).2 ≤ connectionWeight c + 1 := by
  unfold Connection.receive
  split
  · exact Nat.le_refl _
  · split
    · simp only [connectionWeight, List.length_append, List.length_singleton, endings,
        List.map_nil, total_nil]
      omega
    · rename_i x rest hx
      obtain ⟨hc, he⟩ := weight_deliver room x { c with inbox := rest }
      simp only [hc]
      simp only [connectionWeight, hx, List.length_cons]
      omega

theorem weight_send (fault : Option ErrorCode) (c : Connection) :
    connectionWeight (c.send fault).1 + endings (c.send fault).2 ≤ connectionWeight c + 2 := by
  unfold Connection.send
  split
  · exact Nat.le_refl _
  · split
    · simp only [connectionWeight, endings, List.map_nil, total_nil]
      omega
    · exact Nat.le_refl _

theorem weight_close (c : Connection) :
    connectionWeight c.close.1 + endings c.close.2 ≤ connectionWeight c := by
  have hr : total Event.weight ((c.waiting.map fun _ =>
      Completion.received (.error .canceled)).map Event.ofCompletion) = c.waiting.length := by
    rw [total_of_forall (n := 1) (by simp [Event.ofCompletion, Event.weight])]
    simp
  have hs : total Event.weight ((List.replicate c.held (Completion.sent (some .canceled))).map
      Event.ofCompletion) = 2 * c.held := by
    rw [total_of_forall (n := 2) (by simp [Event.ofCompletion, Event.weight])]
    simp [Nat.mul_comm]
  simp only [Connection.close, endings, List.map_append, total_append, hr, hs, connectionWeight,
    List.length_nil]
  omega

section Outcomes

variable {now n : Nat} {k : Conditions} {a b : Advertiser} {e : Event} {acts : List Effect}

theorem work_eq (a : Advertiser) :
    a.work = total Event.weight a.mailbox + a.alarm.toList.length + a.sendPending.toNat +
      a.connection.elim 0 connectionWeight := by
  cases h : a.connection <;> simp [work, total, h]

theorem work_facing (e : Event) (a : Advertiser) : (a.facing e).work = a.work + e.weight := by
  simp only [work_eq, facing, total_cons]
  omega

theorem work_operate {f : Connection → Connection × List Completion}
    (h : ∀ c, connectionWeight (f c).1 + endings (f c).2 ≤ connectionWeight c + n)
    (a : Advertiser) : (a.operate f).work ≤ a.work + n := by
  cases hc : a.connection with
  | none =>
    rw [operate_of_none hc]
    exact Nat.le_add_right _ _
  | some c =>
    have hn := h c
    simp only [endings] at hn
    rw [operate_of_some hc]
    simp only [work_eq, hc, Option.elim_some, total_append]
    omega

theorem work_listen (a : Advertiser) : a.listen.work ≤ a.work + 1 :=
  work_operate (weight_receive receiveRoom) a

theorem work_want (k : Conditions) (a : Advertiser) : (a.want k).work ≤ a.work + 2 := by
  unfold want
  split
  · simp only [work_eq, Bool.toNat_true]
    omega
  · exact work_operate (weight_send k.send) { a with sending := true }

theorem total_abortedAlarm (a : Advertiser) :
    total Event.weight a.abortedAlarm = a.alarm.toList.length := by
  cases h : a.alarm <;> simp [abortedAlarm, h, Event.weight]

/-- All that was pending is only reported. -/
theorem work_ended (a : Advertiser) : a.ended.work ≤ a.work := by
  have ha := total_abortedAlarm a
  cases hc : a.connection with
  | none =>
    simp only [work_eq, ended, abortedCalls, hc, Option.toList_none, List.flatMap_nil,
      Option.map_none, Option.elim_none, total_append, total_nil, List.length_nil]
    omega
  | some c =>
    have hclose := weight_close c
    simp only [endings] at hclose
    simp only [work_eq, ended, abortedCalls, hc, Option.toList_some, List.flatMap_singleton,
      Option.map_some, Option.elim_some, total_append, Option.toList_none, List.length_nil]
    omega

theorem work_accept (e : Event) (a : Advertiser) : (a.accept e).work = a.work := rfl

theorem work_dialed (h : a.connection = none) (d : Endpoint) : (a.dialed d).work = a.work := by
  simp [work_eq, dialed, h, connectionWeight, Endpoint.connect]

/-- What makes an advertiser dial weighs enough for all that can follow. -/
theorem Dials.weight (h : a.Dials e) : e.weight = 5 := by
  rcases h with ⟨⟨x, rfl⟩, -⟩ | ⟨rfl, -⟩ <;> rfl

/-- An event leads to less than what it weighs. -/
theorem Outcome.work_lt (o : Outcome now k a e b acts) (h : Sound (a.facing e)) :
    b.work < a.work + e.weight := by
  have hone := one_le_weight e
  cases o with
  | rests =>
    rw [work_accept]
    omega
  | ends =>
    have hle := work_ended (a.accept e)
    rw [work_accept] at hle
    omega
  | fails hd =>
    have hw := hd.weight
    have hz : a.alarm.toList.length = 0 := by
      rw [h.alarm_of_dials hd]
      rfl
    simp only [work_eq, accept, Option.toList_some, List.length_singleton]
    omega
  | @unfiltered _ d _ hd =>
    have hle := work_ended ((a.accept e).dialed d)
    rw [work_dialed (h.accept_of_dials hd).2.2.1, work_accept] at hle
    omega
  | @unjoined _ d _ hd =>
    have hle := work_ended ((a.accept e).dialed d)
    rw [work_dialed (h.accept_of_dials hd).2.2.1, work_accept] at hle
    omega
  | @opens _ d hd =>
    have hw := hd.weight
    have hd' : ({ (a.accept e).dialed d with phase := .active } : Advertiser).work = a.work :=
      work_dialed (h.accept_of_dials hd).2.2.1 d
    have hl := work_listen { (a.accept e).dialed d with phase := .active }
    have hle := work_want k { (a.accept e).dialed d with phase := .active }.listen
    omega
  | ticks =>
    have hle := work_want k a
    have hw : (Event.alarm .advertise false).weight = 5 := rfl
    omega
  | @answers data =>
    have hle := work_want k a
    have hl := work_listen (a.want k)
    have hw : (Event.received (.ok data)).weight = 5 := rfl
    omega
  | @ignores data =>
    have hl := work_listen a
    have hw : (Event.received (.ok data)).weight = 5 := rfl
    omega
  | @follows r _ hp =>
    have hle := work_want k { a with sending := false, sendPending := false }
    have hw : (Event.sent r).weight = 2 := rfl
    have hs : ({ a with sending := false, sendPending := false } : Advertiser).work + 1 =
        a.work := by
      simp only [work_eq, hp, Bool.toNat_false, Bool.toNat_true]
      omega
    omega
  | @waits r =>
    have hw : (Event.sent r).weight = 2 := rfl
    have ha := total_abortedAlarm a
    simp only [work_eq, total_append, Option.toList_some, List.length_singleton]
    omega

/-- Whether nothing is pending on the connection of an advertiser if it is closed. -/
def Shut (a : Advertiser) : Prop :=
  a.phase = .closed → ∀ c, a.connection = some c → c.IsShut

theorem shut_ended (a : Advertiser) : a.ended.Shut := by
  intro _ c hc
  have hx : a.connection.map (fun d => d.close.1) = some c := hc
  obtain ⟨x, -, rfl⟩ := Option.map_eq_some_iff.mp hx
  exact x.isShut_close

theorem Outcome.shut (o : Outcome now k a e b acts) (h : a.Shut) : b.Shut := by
  intro hb c hc
  cases o with
  | rests => exact h hb c hc
  | ends | unfiltered | unjoined => exact shut_ended _ hb c hc
  | fails => cases hb
  | opens =>
    rw [phase_want] at hb
    cases hb
  | ticks hp =>
    rw [phase_want] at hb
    cases hb.symm.trans hp
  | answers hp =>
    have hq : (a.want k).listen.phase = a.phase := phase_want k a
    cases hb.symm.trans (hq.trans hp)
  | ignores hp => cases hb.symm.trans hp
  | follows hg =>
    rw [phase_want] at hb
    cases hb.symm.trans hg.1
  | waits hg => cases hb.symm.trans hg.1

theorem Stir.shut (s : Stir now a b) (h : a.Shut) : b.Shut := by
  intro hb c hc
  have ha : a.phase = .closed := s.phase.symm.trans hb
  cases s with
  | start | cancel => exact h ha c hc
  | ring hx =>
    rw [ring_eq hx] at hc
    exact h ha c hc
  | @arrive x _ hr =>
    obtain ⟨hsome, rfl⟩ := operate_of_arrive hr
    obtain ⟨d, hd⟩ := Option.isSome_iff_exists.mp hsome
    have hshut : d.IsShut := h ha d hd
    rw [operate_of_some hd, hshut.arrive x] at hc
    obtain rfl := Option.some.inj hc
    exact hshut
  | @release x _ hr =>
    obtain ⟨hsome, rfl⟩ := operate_of_release hr
    obtain ⟨d, hd⟩ := Option.isSome_iff_exists.mp hsome
    have hshut : d.IsShut := h ha d hd
    rw [operate_of_some hd, hshut.release x] at hc
    obtain rfl := Option.some.inj hc
    exact hshut

end Outcomes

namespace Life

variable {r : Profile} {l l' : Life}

theorem Step.shut (s : Step l l') (h : Sound l.advertiser) (hl : l.advertiser.Shut) :
    l'.advertiser.Shut := by
  cases s with
  | pass => exact hl
  | stir hs => exact hs.shut hl
  | handle k hm hk => exact (outcome_of_step? h hm hk).2.shut hl

/-- A closed advertiser has no send and no receive pending. -/
theorem Reachable.shut (h : Reachable r l) : l.advertiser.Shut := by
  induction h with
  | new =>
    intro hp
    cases hp
  | step h s ih => exact s.shut h.sound ih

end Life

end Advertiser

end RouterAdvert
