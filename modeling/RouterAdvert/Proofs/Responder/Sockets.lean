import RouterAdvert.Proofs.Crew
import RouterAdvert.Proofs.Daemon

/-! The sockets of the program. Its taps are a crew on its kernel: the watch only makes new taps and
cancels old ones, and a turn of a tap is a turn of its advertiser. So the open sockets are those of
the active taps, whenever the program is looked at. -/
namespace RouterAdvert

namespace Responder

open Advertiser

variable {σ : Type}

/-- The advertisers of all taps, on kernel `k`. -/
def crew (k : Kernel) (r : Responder σ) : Crew :=
  { now := 0, kernel := k, members := r.taps.values.map (·.advertiser) }

/-- The responder is in order, and kernel `k` accounts for the sockets of its taps. -/
structure Manned (k : Kernel) (r : Responder σ) : Prop where
  orderly : Orderly r
  crew : (r.crew k).Invariant

namespace Manned

variable {k : Kernel} {r r' : Responder σ} {now : Nat}

theorem crew_of_taps (h : (r.crew k).Invariant) (ht : r'.taps = r.taps) :
    (r'.crew k).Invariant := by
  rwa [Responder.crew, ht]

theorem aside (h : Manned k r) (ha : Aside r r') : Manned k r' :=
  ⟨h.orderly.aside ha, crew_of_taps h.crew ha.taps⟩

/-- What happens to one tap happens to one member. -/
theorem crew_modifyTap (now : Nat) {id : TapId} {f : Advertiser → Advertiser}
    (h : (r.crew k).Invariant)
    (hf : ∀ t, r.taps.get? id = some t →
      f t.advertiser = t.advertiser ∨ Stir now t.advertiser (f t.advertiser)) :
    ((r.modifyTap id f).crew k).Invariant := by
  cases ht : r.taps.get? id with
  | none => simpa [modifyTap, ht] using h
  | some t =>
    rw [modifyTap_of_some ht]
    obtain ⟨before, after, hv, hi⟩ := Table.values_insert_of_some ht
    have hm : (r.crew k).members =
        before.map (·.advertiser) ++ t.advertiser :: after.map (·.advertiser) := by
      simp [Responder.crew, hv]
    have hm' : (r.setTap id { t with advertiser := f t.advertiser }).crew k = { r.crew k with
        members := before.map (·.advertiser) ++ f t.advertiser :: after.map (·.advertiser) } := by
      simp [Responder.crew, setTap, enroll, hi]
    rw [hm']
    rcases hf t ht with he | hs
    · rwa [he, ← hm]
    · exact h.stir hm hs

theorem crew_cancelAll (h : (r.crew k).Invariant) (ids : List TapId) :
    ((Orderly.cancelAll ids r).crew k).Invariant := by
  induction ids generalizing r with
  | nil => exact h
  | cons id ids ih => exact ih (crew_modifyTap 0 h fun _ _ => Or.inr .cancel)

theorem close (h : Manned k r) (i : Int32) : Manned k (r.close i) := by
  refine ⟨h.orderly.close i, ?_⟩
  cases hi : r.registry.get? i with
  | none => simpa [Responder.close, hi] using h.crew
  | some id =>
    rw [Orderly.close_of_some hi]
    refine crew_cancelAll ?_ [id]
    exact crew_of_taps h.crew rfl

theorem closeAll (h : Manned k r) : Manned k r.closeAll := by
  refine ⟨h.orderly.closeAll, crew_cancelAll ?_ r.registry.values⟩
  exact crew_of_taps h.crew rfl

/-- A new tap is a new member; the one before it is canceled. -/
theorem install (h : Manned k r) (now : Nat) (i : Int32) {t : Tap} {p : Profile}
    (hp : t.advertiser = { profile := p }) : Manned k (r.install now i t) := by
  refine ⟨h.orderly.install now i hp, ?_⟩
  have hput : (({ r with registry := r.registry.insert i (r.freshId i) }.setTap (r.freshId i)
      t).crew k).Invariant := by
    have hj := h.crew.join p
    have hv := Table.values_insert_of_none (h.orderly.tended.freshId i) t
    rw [Responder.crew, setTap, enroll, hv, List.map_append, List.map_singleton, hp]
    exact hj
  rw [Orderly.install_eq]
  refine crew_modifyTap now ?_ fun _ _ => Or.inr (.start _)
  cases r.registry.get? i with
  | none => exact hput
  | some q => exact crew_modifyTap now (crew_of_taps hput rfl) fun _ _ => Or.inr .cancel

variable [Host σ]

theorem add (h : Manned k r) (now : Nat) (i : Int32) : Manned k (r.add now i).1 := by
  rcases r.add_spec now i with ⟨q, t, p, ha, hp, he, -⟩ | ⟨ha, -⟩
  · rw [he]
    exact (h.aside ha).install now i hp
  · exact h.aside ha

theorem kept (now : Nat) : Kept now (Manned (σ := σ) k) :=
  ⟨aside, fun h i => h.add now i, close, closeAll⟩

end Manned

section Watch

variable {r r' : Responder Kernel}

/-- Whether the sockets of taps are the same. -/
def Spares (r r' : Responder Kernel) : Prop := r.host.SameSockets r'.host

theorem Spares.trans {r'' : Responder Kernel} (h : Spares r r') (h' : Spares r' r'') :
    Spares r r'' := ⟨h'.1.trans h.1, h'.2.trans h.2⟩

theorem Spares.of_eq (h : r'.host = r.host) : Spares r r' := by
  rw [Spares, h]
  exact ⟨rfl, rfl⟩

theorem spares_build (now : Nat) (i : Int32) (r : Responder Kernel) :
    Spares r (r.build now i).1 := by
  unfold build
  dsimp only
  split
  · exact ⟨rfl, rfl⟩
  · split
    · exact ⟨rfl, rfl⟩
    · exact ⟨rfl, rfl⟩
    · split
      · exact ⟨rfl, rfl⟩
      · dsimp only [noteFindings]
        split <;> split <;> exact ⟨rfl, rfl⟩

theorem spares_install (now : Nat) (i : Int32) (t : Tap) (r : Responder Kernel) :
    Spares r (r.install now i t) := by
  refine Spares.of_eq ?_
  rw [Orderly.install_eq, host_modifyTap]
  cases r.registry.get? i with
  | none => rfl
  | some p => exact host_modifyTap p .cancel _

theorem spares_add (now : Nat) (i : Int32) (r : Responder Kernel) :
    Spares r (r.add now i).1 := by
  have hb := spares_build now i r
  rw [add_eq]
  split <;> rename_i heq <;> rw [heq] at hb
  · exact hb.trans (spares_install now i _ _)
  · exact hb
  · exact hb
  · exact hb

theorem spares_cancelAll (ids : List TapId) (r : Responder Kernel) :
    Spares r (Orderly.cancelAll ids r) := by
  induction ids generalizing r with
  | nil => exact ⟨rfl, rfl⟩
  | cons id ids ih => exact (Spares.of_eq (host_modifyTap id .cancel r)).trans (ih _)

theorem spares_close (i : Int32) (r : Responder Kernel) : Spares r (r.close i) := by
  unfold close
  split
  · exact ⟨rfl, rfl⟩
  · exact Spares.of_eq (host_modifyTap _ .cancel _)

theorem spares_processLink (now : Nat) (m : Netlink.Message) (r : Responder Kernel) :
    Spares r (r.processLink now m) := by
  dsimp only [processLink, Factory.processLink]
  split
  · exact ⟨rfl, rfl⟩
  · split
    · exact ⟨rfl, rfl⟩
    · split
      · exact ⟨rfl, rfl⟩
      · split
        · exact Spares.trans (Spares.of_eq rfl) (spares_close _ (r.note _ _))
        · split
          · exact ⟨rfl, rfl⟩
          · exact Spares.trans (Spares.of_eq rfl) (spares_add now _ (r.note _ _))

theorem spares_processMessage (now : Nat) (m : Netlink.Message) (r : Responder Kernel) :
    Spares r (r.processMessage now m) := by
  dsimp only [processMessage, Factory.processMessage]
  split
  · exact spares_processLink now m r
  · split
    · split <;> exact ⟨rfl, rfl⟩
    · split <;> exact ⟨rfl, rfl⟩

theorem spares_processAll (now : Nat) (ms : List Netlink.Message) (r : Responder Kernel) :
    Spares r (r.processAll now ms) := by
  unfold processAll Factory.processAll
  induction ms generalizing r with
  | nil => exact ⟨rfl, rfl⟩
  | cons m ms ih =>
    rw [List.foldl_cons]
    refine Spares.trans ?_ (ih _)
    split
    · exact ⟨rfl, rfl⟩
    · exact spares_processMessage now m r

theorem spares_processBuffer (now : Nat) (buffer : Bytes) (count : Nat) (r : Responder Kernel) :
    Spares r (r.processBuffer now buffer count) := by
  refine (spares_processAll now (Netlink.Message.inBuffer buffer count) r).trans (.of_eq ?_)
  unfold processBuffer Factory.processBuffer comeBack
  dsimp only
  split <;> rfl

theorem spares_handleWatch (now : Nat) (e : LinkWatch.Event) (r : Responder Kernel) :
    Spares r (r.handleWatch now e) := by
  cases e with
  | begin => exact Spares.of_eq ((host_receiveLinks _).trans (host_requestLinks now r))
  | shutdown =>
    refine Spares.trans ?_ (spares_cancelAll r.registry.values _)
    exact ⟨rfl, rfl⟩
  | received x =>
    dsimp only [handleWatch, linksReceived]
    split
    · exact ⟨rfl, rfl⟩
    · split
      · split
        · exact Spares.of_eq ((host_receiveLinks _).trans (host_requestLinks now _))
        · exact ⟨rfl, rfl⟩
      · exact (spares_processBuffer now _ _ r).trans (Spares.of_eq (host_receiveLinks _))

theorem spares_stepWatch (now : Nat) (r : Responder Kernel) : Spares r (r.stepWatch now) := by
  unfold stepWatch
  split
  · exact ⟨rfl, rfl⟩
  · exact spares_handleWatch now _ _

end Watch

theorem host_deregister (now : Nat) (id : TapId) (name : Bytes) (code : ErrorCode)
    (r : Responder Kernel) : (r.deregister now id name code).host = r.host := by
  dsimp only [deregister]
  split <;> split <;> rfl

theorem host_perform (now : Nat) (id : TapId) (a : Advertiser) (r : Responder Kernel) (e : Effect) :
    (perform now id a r e).host = r.host.follow a e := by
  have hp := Kernel.perform_snd ⟨now, some id⟩ a e (r.journal, r.host)
  cases e with
  | note | dial | call | armed => exact hp
  | exit x code =>
    cases x with
    | numbered | announce => exact hp
    | deregister => exact (host_deregister now id _ code _).trans hp

theorem host_performAll (now : Nat) (id : TapId) (a : Advertiser) (es : List Effect)
    (r : Responder Kernel) :
    (es.foldl (perform now id a) r).host = es.foldl (Kernel.follow a) r.host := by
  induction es generalizing r with
  | nil => rfl
  | cons e es ih => rw [List.foldl_cons, ih, host_perform, List.foldl_cons]

/-- The responder is in order, and its own kernel accounts for the sockets of its taps. -/
def Accounted (r : Responder Kernel) : Prop := Manned r.host r

namespace Accounted

variable {r r' : Responder Kernel} {now : Nat}

theorem of_spares (h : Manned r.host r') (hs : Spares r r') : Accounted r' :=
  ⟨h.orderly, h.crew.change hs⟩

theorem aside (h : Accounted r) (ha : Aside r r') (hs : Spares r r') : Accounted r' :=
  of_spares (Manned.aside h ha) hs

theorem stir (now : Nat) (h : Accounted r) (id : TapId) {f : Advertiser → Advertiser}
    (hf : ∀ t, r.taps.get? id = some t →
      f t.advertiser = t.advertiser ∨ Stir now t.advertiser (f t.advertiser)) :
    Accounted (r.modifyTap id f) := by
  refine of_spares ⟨h.orderly.stir hf, Manned.crew_modifyTap now h.crew hf⟩ ?_
  exact Spares.of_eq (host_modifyTap id f r)

theorem turn (h : Accounted r) {id : TapId} {rest : List Actor}
    (hs : r.schedule = .tap id :: rest) :
    Accounted ({ r with schedule := rest }.stepTap now id) := by
  obtain ⟨t, u, ht, hk⟩ := h.orderly.tended.exists_turn now hs
  refine ⟨h.orderly.turn hs ht hk, ?_⟩
  obtain ⟨before, after, hv, hi⟩ := Table.values_insert_of_some ht
  have hm : (r.crew r.host).members =
      before.map (·.advertiser) ++ t.advertiser :: after.map (·.advertiser) := by
    simp [crew, hv]
  obtain ⟨hsound, hholds, hacc⟩ := h.crew.of_split hm
  have hk' := hk
  rw [Tap.link, ← Kernel.answers_false] at hk'
  obtain ⟨hsound', hholds', hacc'⟩ := accounts_of_turn hsound hholds hacc hk'
  have hnext := h.crew.replace hm hsound' hholds' hacc' {}
  rw [stepTap_eq (r := { r with schedule := rest }) ht hk]
  have htaps := (performAll_spec now id u.state u.effects
    ({ r with schedule := rest }.setTap id { t with advertiser := u.state })).1
  rw [crew, host_performAll, htaps]
  simpa [crew, setTap, enroll, hi] using hnext

/-- The watch takes its turn, or a tap does. -/
theorem step? (h : Accounted r) (hr : r.step? now = some r') : Accounted r' := by
  obtain ⟨-, rest, ⟨hs, rfl⟩ | ⟨id, hs, rfl⟩⟩ := step?_cases hr
  · refine of_spares ((Manned.kept now).watchTurn h hs) ?_
    exact (Spares.of_eq rfl).trans (spares_stepWatch now { r with schedule := rest })
  · exact h.turn hs

theorem runFor (h : Accounted r) (duration now : Nat) :
    Accounted (Reactor.runFor duration now r) :=
  Reactor.runUntil_induction (fun _ _ _ h hr => h.step? hr)
    (fun t _ h => ring_induction (fun _ id _ h hf => h.stir t id hf) h (Nat.le_refl t)) _ _ _ h

end Accounted

end Responder

namespace Daemon

open Responder

variable {d : Daemon}

/-- What is done to the watch and the journal alone. -/
theorem accounted_setWatch {r : Responder Kernel} (h : Accounted r) (w : LinkWatch) :
    Accounted (r.setWatch w) := h.aside (aside_setWatch w r) (Spares.of_eq rfl)

theorem accounted_happen (h : Accounted d.responder) (x : Happening) :
    Accounted (d.happen x).responder := by
  have hset (k : Kernel) (hk : d.kernel.SameSockets k) :
      Accounted (d.setKernel k).responder := h.aside ⟨rfl, rfl, fun _ => rfl⟩ hk
  cases x with
  | link l quiet =>
    dsimp only [Daemon.happen]
    split
    · exact hset _ ⟨rfl, rfl⟩
    · exact accounted_setWatch (hset (d.kernel.addLink l) ⟨rfl, rfl⟩) _
  | unlink i =>
    dsimp only [Daemon.happen]
    split
    · exact h
    · exact accounted_setWatch
        (hset { d.kernel with links := d.kernel.links.erase i } ⟨rfl, rfl⟩) _
  | announcement x => exact accounted_setWatch h _
  | address | clearAddresses | route | clearRoutes | fault => exact hset _ ⟨rfl, rfl⟩
  | arrival i x =>
    dsimp only [Daemon.happen]
    split
    · exact h
    · refine h.stir d.now _ fun t _ => ?_
      cases ha : t.advertiser.arrive? x with
      | none => exact Or.inl rfl
      | some a => exact Or.inr (.arrive ha)
  | signal n =>
    dsimp only [Daemon.happen]
    split
    · have hn : Accounted (d.responder.note ⟨d.now, none⟩ (.signaled n)) :=
        h.aside (aside_note _ _ _) (Spares.of_eq rfl)
      exact accounted_setWatch hn _
    · exact h

theorem accounted_conclude (h : Accounted d.responder) : Accounted d.conclude.responder := by
  unfold Daemon.conclude
  split
  · exact h.aside ⟨rfl, rfl, fun _ => rfl⟩ (Spares.of_eq rfl)
  · exact h

theorem accounted_observe (h : Accounted d.responder) (horizon : Nat)
    (xs : List (Nat × Happening)) : Accounted (d.observe horizon xs).responder := by
  induction xs generalizing d with
  | nil => exact h.runFor _ _
  | cons x xs ih =>
    unfold Daemon.observe
    split
    · exact h
    · split
      · exact h.runFor _ _
      · dsimp only
        split
        · exact h.runFor _ _
        · exact ih (accounted_conclude ((accounted_happen (h.runFor _ _) x.2).runFor _ _))

theorem accounted_start (s : Settings) (p : Pattern) {k : Kernel} (hk : k.openIcmp = []) :
    Accounted (start s p k).responder := by
  have hnone (j : Journal) :
      Accounted { host := k, timing := s.timing, selects := p.search, journal := j } := by
    refine ⟨⟨⟨by simp, fun _ => rfl, by simp [Table.keys, Table.empty]⟩, by simp⟩, ?_⟩
    exact (Crew.Reachable.new 0 hk).invariant
  unfold start
  dsimp only
  generalize (if s.verbose = true then _ else _ : Journal) = j
  have hw := (hnone j).aside (aside_startWatch 0 _) (Spares.of_eq (host_startWatch 0 _))
  split <;> rename_i r heq
  · rw [heq] at hw
    exact hw.aside ⟨rfl, rfl, fun _ => rfl⟩ (Spares.of_eq rfl)
  · rw [heq] at hw
    exact hw.aside ⟨rfl, rfl, fun _ => rfl⟩ (Spares.of_eq rfl)

/-- Whenever the program is looked at, exactly its active taps have a socket each, and no other
socket of this kind is open. -/
theorem sockets_observe (s : Settings) (p : Pattern) {k : Kernel} (hk : k.openIcmp = [])
    (horizon : Nat) (xs : List (Nat × Happening)) :
    let r := ((start s p k).observe horizon xs).responder
    (∀ t ∈ r.taps.values, t.advertiser.socket?.isSome ↔ t.phase = .active) ∧
      r.host.openIcmp.Nodup ∧
      r.host.openIcmp.Perm (r.taps.values.filterMap (·.advertiser.socket?)) := by
  intro r
  have h : Accounted r := accounted_observe (accounted_start s p hk) horizon xs
  refine ⟨fun t ht => ?_, h.crew.accounts.distinct, ?_⟩
  · exact (h.crew.members t.advertiser (List.mem_map_of_mem ht)).2
  · have hs := h.crew.accounts.sockets
    rwa [crew, Crew.sockets, List.filterMap_map] at hs

end Daemon

end RouterAdvert
