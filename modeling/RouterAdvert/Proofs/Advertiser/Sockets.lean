import RouterAdvert.Proofs.Advertiser.Ending
import RouterAdvert.Proofs.Kernel

/-! The socket of an advertiser. It holds one exactly while it is active, and whatever it does in a
turn, the kernel accounts for that socket before and after: a dial that fails gives none, and the
end gives it back before the starter is told. -/
namespace RouterAdvert

namespace Connection

/-- Whether an operation leaves the socket of a connection as it is. -/
def Keeps (f : Connection → Connection × List Completion) : Prop :=
  ∀ c, (f c).1.isOpen = c.isOpen ∧ (f c).1.number = c.number

theorem keeps_deliver (room : Nat) (x : Arrival) (c : Connection) :
    (c.deliver room x).1.isOpen = c.isOpen ∧ (c.deliver room x).1.number = c.number := by
  cases x <;> exact ⟨rfl, rfl⟩

theorem keeps_receive (room : Nat) : Keeps (receive room) := by
  intro c
  unfold receive
  split
  · exact ⟨rfl, rfl⟩
  · split
    · exact ⟨rfl, rfl⟩
    · exact keeps_deliver ..

theorem keeps_arrive (x : Arrival) : Keeps (arrive x) := by
  intro c
  unfold arrive
  split
  · split <;> exact ⟨rfl, rfl⟩
  · exact keeps_deliver ..

theorem keeps_send (fault : Option ErrorCode) : Keeps (send fault) := by
  intro c
  unfold send
  split
  · exact ⟨rfl, rfl⟩
  · split <;> exact ⟨rfl, rfl⟩

theorem keeps_release (e : Option ErrorCode) : Keeps fun c => (c.release? e).getD (c, []) := by
  intro c
  dsimp only [release?]
  split <;> exact ⟨rfl, rfl⟩

end Connection

namespace Advertiser

/-- The socket that an advertiser holds: that of its connection, unless it has been closed. -/
def socket? (a : Advertiser) : Option Nat :=
  a.connection.bind fun c => if c.isOpen then some c.number else none

/-- Whether an advertiser holds a socket just while it is active. -/
def Holds (a : Advertiser) : Prop := a.socket?.isSome ↔ a.phase = .active

section Sockets

variable {a b : Advertiser} {now : Nat} {w : Conditions} {e : Event} {acts : List Effect}

theorem socket?_of_none (h : a.connection = none) : a.socket? = none := by
  rw [socket?, h, Option.bind_none]

theorem socket?_of_some {c : Connection} (h : a.connection = some c) (ho : c.isOpen = true) :
    a.socket? = some c.number := by
  rw [socket?, h, Option.bind_some, if_pos ho]

theorem socket?_operate {f : Connection → Connection × List Completion} (h : Connection.Keeps f)
    (a : Advertiser) : (a.operate f).socket? = a.socket? := by
  cases hc : a.connection with
  | none => rw [operate_of_none hc]
  | some c =>
    obtain ⟨ho, hn⟩ := h c
    simp only [socket?, operate_of_some hc, hc, Option.bind_some, ho, hn]

theorem socket?_listen (a : Advertiser) : a.listen.socket? = a.socket? :=
  socket?_operate (Connection.keeps_receive _) a

theorem socket?_want (w : Conditions) (a : Advertiser) : (a.want w).socket? = a.socket? := by
  unfold want
  split
  · rfl
  · exact socket?_operate (Connection.keeps_send _) _

theorem socket?_ended (a : Advertiser) : a.ended.socket? = none := by
  cases hc : a.connection <;> simp [socket?, ended, hc, Connection.close]

theorem Stir.socket? (s : Stir now a b) : b.socket? = a.socket? := by
  cases s with
  | start | cancel => rfl
  | ring hx =>
    rw [ring_eq hx]
    rfl
  | arrive ha =>
    rw [(operate_of_arrive ha).2]
    exact socket?_operate (Connection.keeps_arrive _) a
  | release ha =>
    rw [(operate_of_release ha).2]
    exact socket?_operate (Connection.keeps_release _) a

theorem Stir.holds (s : Stir now a b) (h : a.Holds) : b.Holds := by
  rw [Holds, s.socket?, s.phase]
  exact h

/-- Until it is closed, an advertiser has no connection but an open one. -/
theorem Holds.isOpen (h : a.Holds) (hs : Sound (a.facing e)) (hp : a.phase ≠ .closed)
    {c : Connection} (hc : a.connection = some c) : c.isOpen = true := by
  cases ha : a.phase with
  | idle => cases hc.symm.trans (hs.unconnected (Or.inl ha)).1
  | connecting => cases hc.symm.trans (hs.unconnected (Or.inr ha)).1
  | closed => exact absurd ha hp
  | active =>
    have hx := h.mpr ha
    rw [Advertiser.socket?, hc, Option.bind_some] at hx
    cases ho : c.isOpen with
    | true => rfl
    | false => simp [ho] at hx

theorem Outcome.holds (o : Outcome now w a e b acts) (h : Sound (a.facing e)) (ha : a.Holds) :
    b.Holds := by
  unfold Holds
  cases o with
  | rests => exact ha
  | ends | unfiltered | unjoined =>
    rw [socket?_ended]
    simp [ended]
  | fails hd =>
    rw [socket?_of_none (by exact (h.accept_of_dials hd).2.2.1)]
    simp
  | opens =>
    rw [socket?_want, socket?_listen, phase_want]
    exact iff_of_true rfl rfl
  | ticks =>
    rw [socket?_want, phase_want]
    exact ha
  | answers =>
    rw [socket?_listen, socket?_want]
    have hp : (a.want w).listen.phase = a.phase := phase_want w a
    rw [hp]
    exact ha
  | ignores =>
    rw [socket?_listen]
    exact ha
  | follows =>
    rw [socket?_want, phase_want]
    exact ha
  | waits => exact ha

end Sockets

end Advertiser

namespace Kernel

open Advertiser

/-- What a kernel answers to the calls of an advertiser on link `l`. Sends complete when they are
made, or at any later time. -/
def answers (l : Link) (holdSends : Bool) (k : Kernel) : Conditions :=
  let w := Medium.conditions l k
  { w with dial := w.dial.map fun d => { d with holdSends := holdSends } }

/-- The kernel after an act of advertiser `a`. -/
def follow (a : Advertiser) (k : Kernel) : Effect → Kernel
  | .dial => k.afterDial a.profile.link
  | .call c _ => a.connection.elim k fun x => k.afterCall x c
  | .note _ | .armed | .exit _ _ => k

theorem perform_snd (stamp : Stamp) (a : Advertiser) (e : Effect) (s : Journal × Kernel) :
    (e.perform stamp a s).2 = s.2.follow a e := by
  cases e with
  | note | armed | exit | dial => rfl
  | call c fault =>
    simp only [Effect.perform, follow]
    cases a.connection <;> rfl

theorem performAll_snd (stamp : Stamp) (a : Advertiser) (es : List Effect) (s : Journal × Kernel) :
    (es.foldl (fun js e => e.perform stamp a js) s).2 = es.foldl (follow a) s.2 := by
  induction es generalizing s with
  | nil => rfl
  | cons e es ih => rw [List.foldl_cons, ih, perform_snd, List.foldl_cons]

/-- Messages do not matter. -/
theorem foldl_follow_acts (a : Advertiser) (es : List Effect) (k : Kernel) :
    (es.filter fun e => !e.isNote).foldl (follow a) k = es.foldl (follow a) k := by
  induction es generalizing k with
  | nil => rfl
  | cons e es ih => cases e <;> exact ih _

/-- Whether an act has nothing to do with which sockets are open. -/
def isAside : Effect → Bool
  | .dial | .call .close _ => false
  | _ => true

theorem foldl_follow_aside {acts : List Effect} (h : ∀ x ∈ acts, isAside x = true) (a : Advertiser)
    (k : Kernel) : SameSockets k (acts.foldl (follow a) k) := by
  induction acts generalizing k with
  | nil => exact ⟨rfl, rfl⟩
  | cons x acts ih =>
    obtain ⟨hx, hr⟩ := List.forall_mem_cons.mp h
    have hs : SameSockets k (k.follow a x) := by
      cases x with
      | dial => cases hx
      | note | armed | exit => exact ⟨rfl, rfl⟩
      | call c fault =>
        simp only [follow]
        cases a.connection with
        | none => exact ⟨rfl, rfl⟩
        | some y => exact sameSockets_afterCall fun hc => by simp [hc, isAside] at hx
    obtain ⟨ho, hn⟩ := ih hr (k.follow a x)
    exact ⟨ho.trans hs.1, hn.trans hs.2⟩

variable {k : Kernel} {l : Link} {holds : Bool} {others : List Nat}

theorem dial_answers (l : Link) (holds : Bool) (k : Kernel) :
    (k.answers l holds).dial =
      (k.dialing l).outcome.map fun d => { d with holdSends := holds } := rfl

theorem ready_of_dial {d : Endpoint} (h : (k.answers l holds).dial = .ok d) :
    d.number = k.nextIcmp ∧ ∃ a, k.Ready l a := by
  rw [dial_answers] at h
  cases hd : (k.dialing l).outcome with
  | error e =>
    rw [hd] at h
    cases h
  | ok x =>
    rw [hd] at h
    obtain ⟨a, ha, rfl⟩ := dialing_eq_ok_iff.mp hd
    obtain rfl := Except.ok.inj h
    exact ⟨rfl, a, ha⟩

theorem not_ready_of_dial {e : ErrorCode} (h : (k.answers l holds).dial = .error e)
    (a : Address) : ¬k.Ready l a := by
  intro ha
  rw [dial_answers, dialing_of_ready ha] at h
  cases h

/-- The medium itself never holds sends. -/
theorem answers_false (l : Link) (k : Kernel) : k.answers l false = Medium.conditions l k := by
  have hmap : (k.dialing l).outcome.map (fun d => { d with holdSends := false }) =
      (k.dialing l).outcome := by
    cases hd : (k.dialing l).outcome with
    | error e => rfl
    | ok d =>
      obtain ⟨a, -, rfl⟩ := dialing_eq_ok_iff.mp hd
      rfl
  exact congrArg (fun x => { Medium.conditions l k with dial := x }) hmap

namespace Accounts

theorem aside (h : k.Accounts others) (a : Advertiser) (acts : List Effect)
    (hi : ∀ x ∈ acts, isAside x = true) : (acts.foldl (follow a) k).Accounts others :=
  h.same (foldl_follow_aside hi a k)

theorem dialed {d : Endpoint} (h : k.Accounts others) (hd : (k.answers l holds).dial = .ok d) :
    (k.afterDial l).Accounts (d.number :: others) := by
  obtain ⟨hn, a, ha⟩ := ready_of_dial hd
  rw [hn]
  exact h.dial_of_ready ha

/-- At its end an advertiser gives back its socket. -/
theorem farewell {a : Advertiser} (h : k.Accounts (a.socket?.toList ++ others))
    (ho : ∀ c, a.connection = some c → c.isOpen = true) (code : ErrorCode) :
    ((a.farewell code).foldl (follow a.ended) k).Accounts others := by
  have hexit : ∀ x ∈ a.onExit.toList.map (Effect.exit · code), isAside x = true := by
    simp [isAside]
  unfold Advertiser.farewell
  rw [List.foldl_append]
  cases hc : a.connection with
  | none =>
    rw [socket?_of_none hc] at h
    exact h.aside _ _ hexit
  | some c =>
    rw [socket?_of_some hc (ho c hc)] at h
    have hf : k.follow a.ended (.call .close none) = k.afterCall c.close.1 .close := by
      simp [follow, ended, hc]
    have hclose : (k.afterCall c.close.1 .close).Accounts others := h.close (c := c.close.1)
    rw [← hf] at hclose
    exact hclose.aside _ _ hexit

end Accounts

end Kernel

namespace Advertiser

open Kernel

variable {a b : Advertiser} {now : Nat} {e : Event} {acts : List Effect} {k : Kernel}
  {holds : Bool} {others : List Nat}

theorem isAside_wanted (w : Conditions) (a : Advertiser) :
    ∀ x ∈ a.wanted w, isAside x = true := by
  unfold wanted
  split <;> simp [isAside]

/-- Whatever comes of an event, the socket of the advertiser is accounted for, beside those of
others. -/
theorem Outcome.accounts (o : Outcome now (k.answers a.profile.link holds) a e b acts)
    (h : Sound (a.facing e)) (ha : a.Holds) (hk : k.Accounts (a.socket?.toList ++ others)) :
    (acts.foldl (follow b) k).Accounts (b.socket?.toList ++ others) := by
  -- Before a dial there is no connection.
  have hnone (hd : a.Dials e) : k.Accounts others := by
    rwa [socket?_of_none (by exact (h.accept_of_dials hd).2.2.1)] at hk
  have hwanted := isAside_wanted (k.answers a.profile.link holds) a
  have hdial : k.follow b .dial = k.afterDial a.profile.link := by rw [follow, o.profile]
  cases o with
  | rests => exact hk
  | @ends _ code he =>
    rw [socket?_ended]
    refine Accounts.farewell (a := a.accept e) hk (fun c hc => ?_) code
    have hc : a.connection = some c := hc
    refine ha.isOpen h ?_ hc
    rcases Ends.phase he with ⟨-, hp⟩ | hp | hp <;> simp [hp]
  | fails hd hf =>
    rw [socket?_of_none (by exact (h.accept_of_dials hd).2.2.1)]
    exact (hnone hd).dial_of_not_ready (not_ready_of_dial hf)
  | @unfiltered _ d code hd hc =>
    rw [socket?_ended, List.foldl_append]
    refine Accounts.farewell (a := (a.accept e).dialed d) ?_ (fun c hx => ?_) code
    · exact ((hnone hd).dialed hc).aside _ [.call .filter (some code)] (by simp [isAside])
    · obtain rfl := Option.some.inj hx
      rfl
  | @unjoined _ d code hd hc =>
    rw [socket?_ended, List.foldl_append]
    refine Accounts.farewell (a := (a.accept e).dialed d) ?_ (fun c hx => ?_) code
    · exact ((hnone hd).dialed hc).aside _ [.call .filter none, .call .join (some code)]
        (by simp [isAside])
    · obtain rfl := Option.some.inj hx
      rfl
  | @opens _ d hd hc =>
    rw [socket?_want, socket?_listen, List.foldl_cons, hdial]
    exact ((hnone hd).dialed hc).aside _ _ (by simp [isAside])
  | ticks =>
    rw [socket?_want]
    exact hk.aside _ _ hwanted
  | answers =>
    rw [socket?_listen, socket?_want]
    exact hk.aside _ _ (List.forall_mem_append.mpr ⟨hwanted, by simp [isAside]⟩)
  | ignores =>
    rw [socket?_listen]
    exact hk.aside _ _ (by simp [isAside])
  | follows =>
    rw [socket?_want]
    exact hk.aside _ _ (by simp [isAside])
  | waits => exact hk

/-- The last thing that an advertiser does is to tell its starter. -/
theorem Outcome.exits_last {w : Conditions} (o : Outcome now w a e b acts) (h : Sound (a.facing e))
    {done later : List Effect} {x : ExitHandler} {code : ErrorCode}
    (hx : acts = done ++ .exit x code :: later) : later = [] ∧ b.phase = .closed := by
  have hmem : Effect.exit x code ∈ acts := by simp [hx]
  have hb : b.phase = .closed := Decidable.byContradiction fun hb =>
    Bool.false_ne_true ((o.goes_on h hb).2.2 _ hmem).symm
  have ha : a.phase ≠ .closed := fun ha => by simp [(o.of_closed ha).1] at hmem
  obtain ⟨y, c, work, -, -, hacts, hwork⟩ := o.closes h ha hb
  refine ⟨?_, hb⟩
  rcases List.eq_nil_or_concat later with hl | ⟨rest, z, hl⟩
  · exact hl
  · -- An earlier exit would be among the work, or be the closing of the connection.
    have heq := hx.symm.trans hacts
    rw [hl, List.concat_eq_append, ← List.cons_append, ← List.append_assoc] at heq
    have hin : Effect.exit x code ∈ work ++ List.replicate b.connection.isSome.toNat
        (.call .close none) := by
      rw [← (List.append_inj' heq rfl).1]
      simp
    rcases List.mem_append.mp hin with hin | hin
    · cases hwork _ hin
    · cases List.eq_of_mem_replicate hin

/-- Whether a connection comes of the next event, but is of no use. -/
structure FailsToActivate (w : Conditions) (a : Advertiser) (code : ErrorCode) : Prop where
  dials : ∃ e rest, a.mailbox = e :: rest ∧ a.Dials e
  connects : ∃ d, w.dial = .ok d
  refused : w.filter = some code ∨ w.filter = none ∧ w.join = some code

theorem Dials.not_rests (h : a.Dials e) : ¬a.Rests e := by
  rcases h with ⟨⟨x, rfl⟩, hi, -⟩ | ⟨rfl, hc⟩
  · exact fun hr => hr hi
  · exact fun hr => by cases hc.symm.trans hr

theorem Dials.not_ends (h : a.Dials e) (code : ErrorCode) : ¬a.Ends e code := by
  rcases h with ⟨⟨x, rfl⟩, -, hc⟩ | ⟨rfl, -⟩
  · exact fun he => by cases hc.symm.trans he.2.1
  · exact id

/-- An advertiser that cannot use its connection closes it, and then tells its starter. -/
theorem Outcome.of_refused {w : Conditions} {code : ErrorCode} (o : Outcome now w a e b acts)
    (h : Sound (a.facing e)) (hd : a.Dials e) (hc : ∃ d, w.dial = .ok d)
    (hr : w.filter = some code ∨ w.filter = none ∧ w.join = some code) :
    ∃ done x, acts = done ++ [.exit x code] ∧ .call .close none ∈ done := by
  obtain ⟨x, hx⟩ := Option.isSome_iff_exists.mp (h.accept_of_dials hd).1
  obtain ⟨d, hc⟩ := hc
  have hactive {p : Prop} (hp : a.phase = .active) : p :=
    absurd hd.rank_le (by rw [hp]; decide)
  cases o with
  | rests hs => exact absurd hs hd.not_rests
  | ends he => exact absurd he (hd.not_ends _)
  | fails _ hk => cases hk.symm.trans hc
  | @unfiltered _ d code' _ _ hf =>
    obtain rfl : code' = code := by simpa [hf] using hr
    refine ⟨[.dial, .call .filter (some code'), .call .close none], x, ?_, by simp⟩
    simp [farewell, dialed, hx]
  | @unjoined _ d code' _ _ hf hj =>
    obtain rfl : code' = code := by simpa [hf, hj] using hr
    refine ⟨[.dial, .call .filter none, .call .join (some code'), .call .close none], x, ?_,
      by simp⟩
    simp [farewell, dialed, hx]
  | opens _ _ hf hj => simp [hf, hj] at hr
  | ticks hp | answers hp | ignores hp => exact hactive hp
  | follows hg | waits hg => exact hactive hg.1

section Turns

variable {t : Turn}

theorem outcome_of_turn {w : Conditions} (hs : Sound a) (h : a.step? now w = some t) :
    ∃ e rest, a.mailbox = e :: rest ∧ Sound (facing e { a with mailbox := rest }) ∧
      Outcome now w { a with mailbox := rest } e t.state t.acts := by
  cases hm : a.mailbox with
  | nil => simp [step?, hm] at h
  | cons e rest => exact ⟨e, rest, rfl, Life.outcome_of_step? hs hm h⟩

/-- Between two turns the socket of the advertiser is accounted for. -/
theorem accounts_of_turn (hs : Sound a) (ha : a.Holds)
    (hk : k.Accounts (a.socket?.toList ++ others))
    (h : a.step? now (k.answers a.profile.link holds) = some t) :
    Sound t.state ∧ t.state.Holds ∧
      (t.effects.foldl (follow t.state) k).Accounts (t.state.socket?.toList ++ others) := by
  obtain ⟨e, rest, -, hf, o⟩ := outcome_of_turn hs h
  have ha' : Holds { a with mailbox := rest } := ha
  refine ⟨hf.of_outcome o, o.holds hf ha', ?_⟩
  rw [← foldl_follow_acts]
  exact o.accounts hf ha' hk

/-- When the starter is told, nothing is left but the sockets of others. -/
theorem accounts_of_exit (hs : Sound a) (ha : a.Holds)
    (hk : k.Accounts (a.socket?.toList ++ others))
    (h : a.step? now (k.answers a.profile.link holds) = some t) {done later : List Effect}
    {x : ExitHandler} {code : ErrorCode} (hx : t.effects = done ++ .exit x code :: later) :
    (done.foldl (follow t.state) k).Accounts others := by
  obtain ⟨-, hholds, hacc⟩ := accounts_of_turn hs ha hk h
  obtain ⟨e, rest, -, hf, o⟩ := outcome_of_turn hs h
  have hacts : t.acts = (done.filter fun y => !y.isNote) ++
      .exit x code :: later.filter fun y => !y.isNote := by
    simp [Turn.acts, hx, Effect.isNote]
  obtain ⟨hl, hb⟩ := o.exits_last hf hacts
  have hsame : (t.effects.foldl (follow t.state) k) = done.foldl (follow t.state) k := by
    rw [hx, List.foldl_append, List.foldl_cons, ← foldl_follow_acts _ later, hl]
    rfl
  have hnone : t.state.socket? = none := by
    cases hsock : t.state.socket? with
    | none => rfl
    | some n => cases hb.symm.trans (hholds.mp (by rw [hsock]; rfl))
  rwa [hsame, hnone] at hacc

theorem exit_of_refused {w : Conditions} {code : ErrorCode} (hs : Sound a)
    (h : a.step? now w = some t) (hr : a.FailsToActivate w code) :
    ∃ done x later, t.effects = done ++ .exit x code :: later ∧ .call .close none ∈ done := by
  obtain ⟨e, rest, hm, hf, o⟩ := outcome_of_turn hs h
  obtain ⟨⟨e', rest', hm', hd⟩, hc, href⟩ := hr
  obtain ⟨rfl, rfl⟩ := List.cons.inj (hm.symm.trans hm')
  obtain ⟨work, x, hacts, hclose⟩ := o.of_refused hf hd hc href
  obtain ⟨done, tail, heff, hdone, htail⟩ := List.filter_eq_append_iff.mp hacts
  obtain ⟨notes, later, rfl, hnotes, -, -⟩ := List.filter_eq_cons_iff.mp htail
  refine ⟨done ++ notes, x, later, by rw [heff, List.append_assoc], ?_⟩
  rw [← hdone] at hclose
  exact List.mem_append_left _ (List.mem_filter.mp hclose).1

end Turns

end Advertiser

end RouterAdvert
