import RouterAdvert.Proofs.Responder.Frame

/-! What the watch can do to the taps and to the registry: it serves interfaces and closes them, and
all the rest leaves both alone. Whatever is kept by these is kept by every turn of the watch. -/
namespace RouterAdvert.Responder

variable {σ : Type}

theorem aside_note (stamp : Stamp) (n : Notice) (r : Responder σ) : Aside r (r.note stamp n) :=
  ⟨rfl, rfl, fun _ => rfl⟩

theorem aside_giveUp (stamp : Stamp) (n : Notice) (r : Responder σ) : Aside r (r.giveUp stamp n) :=
  ⟨rfl, rfl, fun _ => rfl⟩

theorem aside_receiveLinks (r : Responder σ) : Aside r r.receiveLinks := by
  unfold receiveLinks
  split
  · exact ⟨rfl, rfl, fun _ => rfl⟩
  · exact aside_setWatch _ r

/-- Nothing is added to why the program has ended. -/
theorem comeBack_of_halt {r : Responder σ} (h : r.halt.isSome) (e : Netlink.Message.Ending) :
    r.comeBack e = r := if_pos (Or.inl h)

theorem aside_comeBack (e : Netlink.Message.Ending) (r : Responder σ) :
    Aside r (r.comeBack e) := by
  unfold comeBack
  split <;> exact ⟨rfl, rfl, fun _ => rfl⟩

variable [Host σ]

theorem aside_startWatch (now : Nat) (r : Responder σ) : Aside r (r.startWatch now).1 := by
  dsimp only [startWatch]
  split
  · exact ⟨rfl, rfl, fun _ => rfl⟩
  · split
    · exact ⟨rfl, rfl, fun _ => rfl⟩
    · refine Aside.trans ?_ (aside_setWatch _ _)
      exact ⟨rfl, rfl, fun _ => rfl⟩

theorem aside_requestLinks (now : Nat) (r : Responder σ) : Aside r (r.requestLinks now) := by
  dsimp only [requestLinks]
  split
  · exact ⟨rfl, rfl, fun _ => rfl⟩
  · split
    · exact ⟨rfl, rfl, fun _ => rfl⟩
    · split
      · exact ⟨rfl, rfl, fun _ => rfl⟩
      · refine Aside.trans ?_ (aside_setWatch _ _)
        exact ⟨rfl, rfl, fun _ => rfl⟩

/-- A property that is kept by everything that the watch can do at some time. -/
structure Kept (now : Nat) (P : Responder σ → Prop) : Prop where
  aside {r r' : Responder σ} (h : P r) (ha : Aside r r') : P r'
  add {r : Responder σ} (h : P r) (i : Int32) : P (r.add now i).1
  close {r : Responder σ} (h : P r) (i : Int32) : P (r.close i)
  closeAll {r : Responder σ} (h : P r) : P r.closeAll

namespace Kept

variable {now : Nat} {P : Responder σ → Prop} {r : Responder σ}

theorem processLink (kept : Kept now P) (h : P r) (m : Netlink.Message) :
    P (r.processLink now m) := by
  have hn (n : Notice) : P (r.note ⟨now, none⟩ n) := kept.aside h (aside_note _ n r)
  dsimp only [Responder.processLink, Factory.processLink]
  split
  · exact h
  · split
    · exact h
    · split
      · exact hn _
      · split
        · exact kept.close (hn _) _
        · split
          · exact h
          · exact kept.add (hn _) _

theorem processMessage (kept : Kept now P) (h : P r) (m : Netlink.Message) :
    P (r.processMessage now m) := by
  have hn (n : Notice) : P (r.note ⟨now, none⟩ n) := kept.aside h (aside_note _ n r)
  dsimp only [Responder.processMessage, Factory.processMessage]
  split
  · exact kept.processLink h m
  · split
    · split
      · exact h
      · exact hn _
    · split
      · exact hn _
      · exact h

theorem processAll (kept : Kept now P) (h : P r) (ms : List Netlink.Message) :
    P (r.processAll now ms) := by
  unfold Responder.processAll Factory.processAll
  induction ms generalizing r with
  | nil => exact h
  | cons m ms ih =>
    refine ih ?_
    dsimp only
    split
    · exact h
    · exact kept.processMessage h m

theorem processBuffer (kept : Kept now P) (h : P r) (buffer : Bytes) (count : Nat) :
    P (r.processBuffer now buffer count) :=
  kept.aside (kept.processAll h _) (aside_comeBack _ _)

theorem linksReceived (kept : Kept now P) (h : P r) (x : Except ErrorCode Nat) :
    P (r.linksReceived now x) := by
  dsimp only [Responder.linksReceived]
  split
  · exact h
  · split
    · split
      · refine kept.aside h (Aside.trans ?_ (aside_receiveLinks _))
        exact (aside_note _ _ r).trans (aside_requestLinks now _)
      · exact kept.aside h (aside_giveUp _ _ r)
    · exact kept.aside (kept.processBuffer h _ _) (aside_receiveLinks _)

theorem stopWatch (kept : Kept now P) (h : P r) : P (r.stopWatch now) := by
  refine kept.closeAll (kept.aside h ((aside_setWatch r.watch.close r).trans ?_))
  exact ⟨rfl, rfl, fun _ => rfl⟩

theorem handleWatch (kept : Kept now P) (h : P r) (e : LinkWatch.Event) :
    P (r.handleWatch now e) := by
  cases e with
  | begin => exact kept.aside h ((aside_requestLinks now r).trans (aside_receiveLinks _))
  | received x => exact kept.linksReceived h x
  | shutdown => exact kept.stopWatch h

theorem stepWatch (kept : Kept now P) (h : P r) : P (r.stepWatch now) := by
  unfold Responder.stepWatch
  split
  · exact h
  · refine kept.handleWatch (kept.aside h ?_) _
    exact ⟨rfl, rfl, fun _ => rfl⟩

/-- The watch takes its turn. -/
theorem watchTurn (kept : Kept now P) (h : P r) {rest : List Actor}
    (hs : r.schedule = .watch :: rest) : P ({ r with schedule := rest }.stepWatch now) := by
  refine kept.stepWatch (kept.aside h ⟨rfl, rfl, fun id => ?_⟩)
  rw [count_of_schedule hs]
  simp

end Kept

end RouterAdvert.Responder
