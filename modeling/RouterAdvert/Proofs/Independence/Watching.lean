import RouterAdvert.Proofs.Independence.Registry
import RouterAdvert.Proofs.Responder.Announcements
import RouterAdvert.Proofs.Responder.Stability

/-! The watch acts alike on responders that are alike for an interface. It can find another
interface in service in one of them only, and then serves it in the other one only. -/
namespace RouterAdvert.Responder

open Netlink

variable {σ : Type}

namespace Alike

variable {same : σ → σ → Prop} {i : Int32} {r r' : Responder σ}

theorem record (h : Alike same i r r') (stamp : Stamp) (e : Entry) :
    Alike same i (r.record stamp e) (r'.record stamp e) :=
  { h with journal := h.journal.record stamp rfl }

theorem giveUp (h : Alike same i r r') (stamp : Stamp) (n : Notice) :
    Alike same i (r.giveUp stamp n) (r'.giveUp stamp n) :=
  { h with
    halt := rfl
    journal := by
      change Journal.Alike i (r.journal.write stamp .crit n.text)
        (r'.journal.write stamp .crit n.text)
      unfold Journal.write
      rw [h.journal.toSystem]
      exact h.journal.record stamp rfl }

theorem receiveLinks (h : Alike same i r r') : Alike same i r.receiveLinks r'.receiveLinks := by
  unfold Responder.receiveLinks
  rw [← h.halt]
  split
  · exact h
  · exact h.setWatch (by rw [h.watch])

theorem shutdown (h : Alike same i r r') : Alike same i r.shutdown r'.shutdown :=
  h.setWatch (by rw [h.watch])

theorem arrive (h : Alike same i r r') (x : Except ErrorCode Bytes) :
    Alike same i (r.arrive x) (r'.arrive x) :=
  h.setWatch (by rw [h.watch])

theorem comeBack (h : Alike same i r r') (e : Message.Ending) :
    Alike same i (r.comeBack e) (r'.comeBack e) := by
  unfold Responder.comeBack
  rw [← h.halt]
  split
  · exact h
  · exact { h with halt := rfl }

variable [Host σ]

theorem requestLinks (S : Steady same) (h : Alike same i r r') (now : Nat) :
    Alike same i (r.requestLinks now) (r'.requestLinks now) := by
  have hask : Alike same i
      { r with watch := { r.watch with sequence := r.watch.sequence + 1 } }
      { r' with watch := { r.watch with sequence := r.watch.sequence + 1 } } :=
    { h with watch := rfl }
  dsimp only [Responder.requestLinks]
  rw [← h.watch, ← S.watchErrno h.host]
  split
  · exact hask.giveUp _ _
  · have hsent := hask.record ⟨now, none⟩ (watchUse (.send (Netlink.Request.links.encode
      r.watch.sequence)) (Host.watchErrno .send r.host))
    split
    · exact hsent.giveUp _ _
    · have hd : Host.announceAll r.watch.sequence r.host =
          Host.announceAll r.watch.sequence r'.host := S.announceAll h.host _
      dsimp only [Responder.record]
      rw [← hd]
      split
      · exact hsent
      · exact hsent.setWatch rfl

theorem startWatch (S : Steady same) (h : Alike same i r r') (now : Nat) :
    Alike same i (r.startWatch now).1 (r'.startWatch now).1 := by
  dsimp only [Responder.startWatch]
  rw [← S.watchErrno h.host]
  have hopened := h.record ⟨now, none⟩ (watchUse (.open 0) (Host.watchErrno .open r.host))
  split
  · exact hopened.note _ _
  · have hopen : Alike same i
        { r.record ⟨now, none⟩ (watchUse (.open 0) (Host.watchErrno .open r.host)) with
          watch := { r.watch with isOpen := true } }
        { r'.record ⟨now, none⟩ (watchUse (.open 0) (Host.watchErrno .open r.host)) with
          watch := { r'.watch with isOpen := true } } :=
      { hopened with watch := by rw [h.watch] }
    have hbound := hopen.record ⟨now, none⟩
      (watchUse (.bindGroups LinkWatch.linkGroup) (Host.watchErrno .bind r.host))
    dsimp only [Responder.record] at hbound ⊢
    rw [← S.watchErrno h.host]
    split
    · exact hbound.note _ _
    · exact hbound.setWatch (by rw [h.watch])

/-- A message about a link. Served in one of them only is at most another interface. -/
theorem processLink (S : Steady same) (h : Alike same i r r') (ho : Orderly r) (ho' : Orderly r')
    {now : Nat} {m : Message} (hn : (r.processLink now m).halt ≠ some .failed)
    (hn' : (r'.processLink now m).halt ≠ some .failed) :
    Alike same i (r.processLink now m) (r'.processLink now m) := by
  unfold Responder.processLink Factory.processLink at hn hn' ⊢
  cases hd : LinkMessage.decode? m with
  | none => exact h
  | some l =>
    simp only [hd, ← h.selects] at hn hn' ⊢
    have hnoted (n : Notice) := h.note ⟨now, none⟩ n
    have haside (q : Responder σ) (hq : Orderly q) (n : Notice) :
        Orderly (q.note ⟨now, none⟩ n) := hq.aside (aside_note _ n q)
    split
    · exact h
    · rename_i hname
      split
      · exact hnoted _
      · rename_i hs
        split
        · exact (hnoted _).close S (haside r ho _) (haside r' ho' _) l.index
        · rename_i hm
          rw [if_neg hname, if_neg hs, if_neg hm] at hn hn'
          by_cases hl : l.index = i
          · have hc : r.check l.index = r'.check l.index := by
              rw [check, check, Table.contains, Table.contains, hl, h.registry]
            rw [← hc]
            split
            · exact h
            · exact (hnoted _).add S (haside r ho _) (haside r' ho' _) now l.index
          · by_cases hc : r.check l.index = true <;> by_cases hc' : r'.check l.index = true
            · rwa [if_pos hc, if_pos hc']
            · rw [if_neg hc'] at hn' ⊢
              rw [if_pos hc]
              exact (((h.symm S).note_aside now _).add_left S (haside r' ho' _) hl hn').symm S
            · rw [if_neg hc] at hn ⊢
              rw [if_pos hc']
              exact (h.note_aside now _).add_left S (haside r ho _) hl hn
            · rw [if_neg hc, if_neg hc']
              exact (hnoted _).add S (haside r ho _) (haside r' ho' _) now l.index

theorem processMessage (S : Steady same) (h : Alike same i r r') (ho : Orderly r)
    (ho' : Orderly r') {now : Nat} {m : Message}
    (hn : (r.processMessage now m).halt ≠ some .failed)
    (hn' : (r'.processMessage now m).halt ≠ some .failed) :
    Alike same i (r.processMessage now m) (r'.processMessage now m) := by
  unfold Responder.processMessage Factory.processMessage at hn hn' ⊢
  split
  · rename_i hm
    rw [if_pos hm] at hn hn'
    exact h.processLink S ho ho' hn hn'
  · split
    · split
      · exact h
      · exact h.note _ _
    · split
      · exact h.note _ _
      · exact h

/-- The messages of a datagram. When the program has ended, the rest is passed over. -/
theorem processAll (S : Steady same) (h : Alike same i r r') (ho : Orderly r) (ho' : Orderly r')
    {now : Nat} {ms : List Message} (hn : (r.processAll now ms).halt ≠ some .failed)
    (hn' : (r'.processAll now ms).halt ≠ some .failed) :
    Alike same i (r.processAll now ms) (r'.processAll now ms) := by
  induction ms generalizing r r' with
  | nil => exact h
  | cons m ms ih =>
    by_cases hh : r.halt.isSome
    · have hh' : r'.halt.isSome := h.halt ▸ hh
      rwa [processAll_of_halt hh, processAll_of_halt hh']
    · have hh' : ¬r'.halt.isSome := h.halt ▸ hh
      have hgo (q : Responder σ) (hq : ¬q.halt.isSome) :
          q.processAll now (m :: ms) = (q.processMessage now m).processAll now ms := by
        rw [Responder.processAll, Factory.processAll, List.foldl_cons, if_neg hq]
        rfl
      -- Had this message ended the program, so would all of them.
      have hgoes (q : Responder σ) (hq : (q.processAll now ms).halt ≠ some .failed) :
          q.halt ≠ some .failed := by
        intro hf
        rw [processAll_of_halt (by rw [hf]; rfl)] at hq
        exact hq hf
      rw [hgo r hh] at hn ⊢
      rw [hgo r' hh'] at hn' ⊢
      exact ih (h.processMessage S ho ho' (hgoes _ hn) (hgoes _ hn'))
        ((kept_orderly now).processMessage ho m) ((kept_orderly now).processMessage ho' m) hn hn'

theorem processBuffer (S : Steady same) (h : Alike same i r r') (ho : Orderly r)
    (ho' : Orderly r') {now : Nat} {buffer : Bytes} {count : Nat}
    (hn : (r.processBuffer now buffer count).halt ≠ some .failed)
    (hn' : (r'.processBuffer now buffer count).halt ≠ some .failed) :
    Alike same i (r.processBuffer now buffer count) (r'.processBuffer now buffer count) := by
  have hall (q : Responder σ) (e : Message.Ending) (hq : (q.comeBack e).halt ≠ some .failed) :
      q.halt ≠ some .failed := by
    intro hf
    rw [comeBack_of_halt (by rw [hf]; rfl)] at hq
    exact hq hf
  exact (h.processAll S ho ho' (hall _ _ hn) (hall _ _ hn')).comeBack _

theorem linksReceived (S : Steady same) (h : Alike same i r r') (ho : Orderly r)
    (ho' : Orderly r') {now : Nat} {x : Except ErrorCode Nat}
    (hn : (r.linksReceived now x).halt ≠ some .failed)
    (hn' : (r'.linksReceived now x).halt ≠ some .failed) :
    Alike same i (r.linksReceived now x) (r'.linksReceived now x) := by
  have hreceive (q : Responder σ) : q.receiveLinks.halt = q.halt := by
    unfold Responder.receiveLinks
    split <;> rfl
  unfold Responder.linksReceived at hn hn' ⊢
  rw [← h.watch] at hn' ⊢
  split
  · exact h
  · rename_i hs
    rw [if_neg hs] at hn hn'
    cases x with
    | error e =>
      dsimp only
      split
      · exact ((h.note _ _).requestLinks S now).receiveLinks
      · exact h.giveUp _ _
    | ok n =>
      dsimp only at hn hn' ⊢
      rw [hreceive] at hn hn'
      exact (h.processBuffer S ho ho' hn hn').receiveLinks

theorem stopWatch (S : Steady same) (h : Alike same i r r') (ho : Orderly r) (ho' : Orderly r')
    (now : Nat) : Alike same i (r.stopWatch now) (r'.stopWatch now) := by
  have hclosed : Alike same i (r.setWatch r.watch.close) (r'.setWatch r'.watch.close) :=
    h.setWatch (by rw [h.watch])
  have hstopped : Alike same i
      { r.setWatch r.watch.close with watch := { r.watch.close with stopped := true } }
      { r'.setWatch r'.watch.close with watch := { r'.watch.close with stopped := true } } :=
    { hclosed with watch := by rw [h.watch] }
  have haside (q : Responder σ) : Aside q
      (Responder.record ⟨now, none⟩ (watchUse .close 0)
        { q.setWatch q.watch.close with watch := { q.watch.close with stopped := true } }) :=
    (aside_setWatch q.watch.close q).trans ⟨rfl, rfl, fun _ => rfl⟩
  exact (hstopped.record ⟨now, none⟩ (watchUse .close 0)).closeAll S (ho.aside (haside r))
    (ho'.aside (haside r'))

theorem handleWatch (S : Steady same) (h : Alike same i r r') (ho : Orderly r) (ho' : Orderly r')
    {now : Nat} {e : LinkWatch.Event} (hn : (r.handleWatch now e).halt ≠ some .failed)
    (hn' : (r'.handleWatch now e).halt ≠ some .failed) :
    Alike same i (r.handleWatch now e) (r'.handleWatch now e) := by
  cases e with
  | begin => exact (h.requestLinks S now).receiveLinks
  | received x => exact h.linksReceived S ho ho' hn hn'
  | shutdown => exact h.stopWatch S ho ho' now

/-- A turn of the watch. -/
theorem stepWatch (S : Steady same) (h : Alike same i r r') (ho : Orderly r) (ho' : Orderly r')
    {now : Nat} (hn : (r.stepWatch now).halt ≠ some .failed)
    (hn' : (r'.stepWatch now).halt ≠ some .failed) :
    Alike same i (r.stepWatch now) (r'.stepWatch now) := by
  unfold Responder.stepWatch at hn hn' ⊢
  rw [← h.watch] at hn' ⊢
  cases hm : r.watch.mailbox with
  | nil => exact h
  | cons e rest =>
    simp only [hm] at hn hn' ⊢
    have haside (q : Responder σ) (w : LinkWatch) : Aside q { q with watch := w } :=
      ⟨rfl, rfl, fun _ => rfl⟩
    have htaken : Alike same i { r with watch := { r.watch with mailbox := rest } }
        { r' with watch := { r.watch with mailbox := rest } } := { h with watch := rfl }
    exact htaken.handleWatch S (ho.aside (haside r _)) (ho'.aside (haside r' _)) hn hn'

end Alike

end RouterAdvert.Responder
