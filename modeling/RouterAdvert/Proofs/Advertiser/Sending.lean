import RouterAdvert.Proofs.Advertiser.Waiting

/-! What an advertiser sends. Whatever happens, it is the advertisement that was made for it. -/
namespace RouterAdvert.Advertiser

/-- The datagram that is sent, if one is. -/
def Effect.datagram? : Effect → Option Bytes
  | call (.send data) _ => some data
  | _ => none

/-- The datagrams that are sent, in order. -/
def datagrams (acts : List Effect) : List Bytes := acts.filterMap (·.datagram?)

theorem datagrams_append (acts more : List Effect) :
    datagrams (acts ++ more) = datagrams acts ++ datagrams more := List.filterMap_append

section Outcomes

variable {now : Nat} {k : Conditions} {a b : Advertiser} {e : Event} {acts : List Effect}

theorem datagrams_farewell (code : ErrorCode) (a : Advertiser) :
    datagrams (a.farewell code) = [] := by
  cases hc : a.connection <;> cases hx : a.onExit <;>
    simp [datagrams, farewell, hc, hx, Effect.datagram?]

theorem datagrams_wanted (k : Conditions) (a : Advertiser) :
    ∀ data ∈ datagrams (a.wanted k), data = a.profile.advert := by
  unfold wanted
  split <;> simp [datagrams, Effect.datagram?]

/-- Nothing is sent but the advertisement. -/
theorem Outcome.sends_advert (o : Outcome now k a e b acts) :
    ∀ data ∈ datagrams acts, data = a.profile.advert := by
  cases o with
  | rests => simp [datagrams]
  | ends => simp [datagrams_farewell]
  | fails | waits | ignores | opens | follows => simp [datagrams, Effect.datagram?]
  | unfiltered | unjoined =>
    rw [datagrams_append, datagrams_farewell]
    simp [datagrams, Effect.datagram?]
  | ticks => exact datagrams_wanted k a
  | answers =>
    rw [datagrams_append]
    simpa [datagrams, Effect.datagram?] using datagrams_wanted k a

end Outcomes

namespace Life

variable {p : Profile} {l l' : Life}

theorem Step.sends_advert (s : Step l l') (h : Sound l.advertiser)
    (hl : ∀ data ∈ datagrams l.acts, data = l.advertiser.profile.advert) :
    ∀ data ∈ datagrams l'.acts, data = l.advertiser.profile.advert := by
  cases s with
  | pass | stir => exact hl
  | handle k hm hk =>
    rw [acts_add, datagrams_append]
    exact fun data hd => (List.mem_append.mp hd).elim (hl data)
      ((outcome_of_step? h hm hk).2.sends_advert data)

/-- However an advertiser lives, all that it sends is its advertisement. -/
theorem Reachable.sends_advert (h : Reachable p l) :
    ∀ data ∈ datagrams l.acts, data = p.advert := by
  induction h with
  | new => simp [acts, datagrams]
  | step h s ih =>
    rw [← h.profile] at ih ⊢
    exact s.sends_advert h.sound ih

end Life

end RouterAdvert.Advertiser
