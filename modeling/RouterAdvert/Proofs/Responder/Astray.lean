import RouterAdvert.Proofs.Responder.Watched

/-! What leaves a responder adrift. Whatever else is handled ends the program at most; only the walk
over a datagram may not come back, and that only if the datagram ends in a message without its
padding. -/
namespace RouterAdvert.Responder

open Netlink

variable {σ : Type}

theorem halt_modifyTap (id : TapId) (f : Advertiser → Advertiser) (r : Responder σ) :
    (r.modifyTap id f).halt = r.halt := (modifyTap_watch id f r).2

theorem halt_close (i : Int32) (r : Responder σ) : (r.close i).halt = r.halt := by
  unfold close
  split
  · rfl
  · exact halt_modifyTap ..

theorem halt_install (now : Nat) (i : Int32) (t : Tap) (r : Responder σ) :
    (r.install now i t).halt = r.halt := by
  rw [Orderly.install_eq, halt_modifyTap]
  cases r.registry.get? i with
  | none => rfl
  | some p => exact halt_modifyTap p .cancel _

theorem halt_receiveLinks (r : Responder σ) : r.receiveLinks.halt = r.halt := by
  unfold receiveLinks
  split <;> rfl

variable {r r' : Responder σ}

def Adrift (r : Responder σ) : Prop := r.halt = some .adrift

theorem adrift_of_halt (h : Adrift r') (hr : r'.halt = r.halt) : Adrift r := hr.symm.trans h

variable [Host σ] {now : Nat}

theorem halt_build (now : Nat) (i : Int32) (r : Responder σ) :
    (r.build now i).1.halt = r.halt := by
  dsimp only [build]
  split
  · rfl
  · split
    · rfl
    · rfl
    · split
      · rfl
      · dsimp only [noteFindings]
        split <;> split <;> rfl

theorem adrift_of_add {i : Int32} (h : Adrift (r.add now i).1) : Adrift r := by
  have hbuild := halt_build now i r
  rw [add_eq] at h
  split at h <;> rename_i hx <;> rw [hx] at hbuild
  · exact adrift_of_halt h ((halt_install ..).trans hbuild)
  · cases h
  · exact adrift_of_halt h hbuild
  · exact adrift_of_halt h hbuild

theorem adrift_of_processLink {m : Message} (h : Adrift (r.processLink now m)) : Adrift r := by
  dsimp only [processLink, Factory.processLink] at h
  split at h
  · exact h
  · split at h
    · exact h
    · split at h
      · exact h
      · split at h
        · exact adrift_of_halt h (halt_close _ (r.note _ _))
        · split at h
          · exact h
          · exact adrift_of_add (r := r.note _ _) h

theorem adrift_of_processMessage {m : Message} (h : Adrift (r.processMessage now m)) :
    Adrift r := by
  dsimp only [processMessage, Factory.processMessage] at h
  split at h
  · exact adrift_of_processLink h
  · split at h
    · split at h <;> exact h
    · split at h <;> exact h

theorem adrift_of_processAll {ms : List Message} (h : Adrift (r.processAll now ms)) :
    Adrift r := by
  unfold processAll Factory.processAll at h
  induction ms generalizing r with
  | nil => exact h
  | cons m ms ih =>
    have hfirst := ih h
    dsimp only at hfirst
    split at hfirst
    · exact hfirst
    · exact adrift_of_processMessage hfirst

theorem adrift_of_requestLinks (h : Adrift (r.requestLinks now)) : Adrift r := by
  dsimp only [requestLinks] at h
  split at h
  · cases h
  · split at h
    · cases h
    · split at h <;> exact h

/-- The walk over a datagram comes back, unless it ends in a message without its padding. -/
theorem adrift_of_processBuffer {buffer : Bytes} {n : Nat}
    (hb : buffer.length = Query.bufferSize) (hn : n ≤ Query.bufferSize)
    (h : Adrift (r.processBuffer now buffer n)) :
    Adrift r ∨ Message.EndsUnpadded (buffer.take n) := by
  by_cases hp : Message.EndsUnpadded (buffer.take n)
  · exact Or.inr hp
  refine Or.inl ?_
  have hlength : (buffer.take n).length = n := by
    rw [List.length_take, hb, Nat.min_eq_left hn]
  have hlimit : (buffer.take n).length < roundLimit := by
    rw [hlength]
    exact Nat.lt_of_le_of_lt hn (by decide)
  obtain ⟨-, hstops⟩ := Message.walk_append hlimit hp (buffer.drop n)
  rw [List.take_append_drop, hlength] at hstops
  have hback : r.processBuffer now buffer n = r.processAll now (Message.inBuffer buffer n) :=
    if_pos (Or.inr hstops)
  rw [hback] at h
  exact adrift_of_processAll h

/-- It is the watch's turn to handle a datagram that ends in a message without its padding. -/
def MeetsUnpadded (r : Responder σ) : Prop :=
  ∃ n events rest, r.schedule = .watch :: rest ∧ r.watch.mailbox = .received (.ok n) :: events ∧
    Message.EndsUnpadded (r.watch.buffer.take n)

theorem adrift_of_handleWatch {e : LinkWatch.Event} (hb : r.watch.buffer.length = Query.bufferSize)
    (he : ∀ n, e = .received (.ok n) → n ≤ Query.bufferSize)
    (h : Adrift (r.handleWatch now e)) :
    Adrift r ∨ ∃ n, e = .received (.ok n) ∧ Message.EndsUnpadded (r.watch.buffer.take n) := by
  have hask {q : Responder σ} (h : Adrift (q.requestLinks now).receiveLinks) : Adrift q :=
    adrift_of_requestLinks (adrift_of_halt h (halt_receiveLinks _))
  cases e with
  | begin => exact Or.inl (hask h)
  | shutdown => exact Or.inl (adrift_of_halt h (cancelAll_watch r.registry.values _).2)
  | received x =>
    dsimp only [handleWatch, linksReceived] at h
    split at h
    · exact Or.inl h
    · split at h
      · split at h
        · exact Or.inl (hask (q := r.note _ _) h)
        · cases h
      · rename_i n
        have hdone := adrift_of_halt h (halt_receiveLinks _)
        refine (adrift_of_processBuffer hb (he n rfl) hdone).imp_right fun hp => ⟨n, rfl, hp⟩

theorem meetsUnpadded_of_step? (ho : Orderly r) (hw : Watched r) (hr : r.step? now = some r')
    (h : Adrift r') : MeetsUnpadded r := by
  obtain ⟨hh, rest, ⟨hs, rfl⟩ | ⟨id, hs, rfl⟩⟩ := step?_cases hr
  · obtain ⟨e, events, hm, he, -, hq, -⟩ := exists_watchTurn ho hw now hs
    have hfits (n : Nat) (hn : e = .received (.ok n)) : n ≤ Query.bufferSize :=
      hw.fits n (hm ▸ hn ▸ List.mem_cons_self)
    rw [he] at h
    rcases adrift_of_handleWatch hq.buffer hfits h with hx | ⟨n, rfl, hp⟩
    · cases hh.symm.trans hx
    · exact ⟨n, events, rest, hs, hm, hp⟩
  · cases hh.symm.trans (adrift_of_halt h (stepTap_spec ho now hs).2.2.2.1)

/-- A run that is not adrift at first is so in the end only if it has met such a datagram. -/
theorem exists_meetsUnpadded (n : Nat) (ha : Responder.Attained now r) (hw : Watched r)
    (hh : ¬Adrift r) (h : Adrift (Reactor.steps now n r)) :
    ∃ k, MeetsUnpadded (Reactor.steps now k r) := by
  induction n generalizing r with
  | zero => exact absurd h hh
  | succ n ih =>
    cases hr : r.step? now with
    | none =>
      rw [Reactor.steps_of_step?_eq_none hr] at h
      exact absurd h hh
    | some r' =>
      have hsteps (k : Nat) : Reactor.steps now (k + 1) r = Reactor.steps now k r' := by
        simp only [Reactor.steps]
        rw [show Reactor.step? now r = some r' from hr]
      by_cases hadrift : Adrift r'
      · exact ⟨0, meetsUnpadded_of_step? ha.orderly hw hr hadrift⟩
      · rw [hsteps] at h
        obtain ⟨k, hk⟩ := ih (ha.step? hr) (hw.step? ha.orderly hr).1 hadrift h
        exact ⟨k + 1, (hsteps k).symm ▸ hk⟩

end RouterAdvert.Responder
