import RouterAdvert.Proofs.Advertiser.Numbering
import RouterAdvert.Proofs.Responder.Tended

/-! Responders that are alike as far as one interface is concerned: its taps, its entry in the
registry, their turns and alarms in the order in which they come, and what was recorded about them,
all up to the numbers of connections, which count the dials of all taps together. What happens to a
tap happens alike to both; what happens to the tap of another interface changes nothing. -/
namespace RouterAdvert

def Tap.unnumbered (t : Tap) : Tap := { t with advertiser := t.advertiser.unnumbered }

theorem Tap.unnumbered_with {t t' : Tap} (h : t.unnumbered = t'.unnumbered) {a a' : Advertiser}
    (ha : a.unnumbered = a'.unnumbered) :
    ({ t with advertiser := a } : Tap).unnumbered =
      ({ t' with advertiser := a' } : Tap).unnumbered := by
  change ({ t.unnumbered with advertiser := a.unnumbered } : Tap) =
    { t'.unnumbered with advertiser := a'.unnumbered }
  rw [h, ha]

def Entry.unnumbered : Entry → Entry
  | .dial i number => .dial i (number.map fun _ => 0)
  | .call _ c => .call 0 c
  | e => e

/-- Whether something is about a tap of this interface. -/
def Stamp.concerns (i : Int32) (s : Stamp) : Bool := s.tap.any (·.index = i)

theorem concerns_none (i : Int32) (now : Nat) : Stamp.concerns i ⟨now, none⟩ = false := rfl

theorem concerns_some (i : Int32) (now : Nat) (id : TapId) :
    Stamp.concerns i ⟨now, some id⟩ = decide (id.index = i) := rfl

/-- Whether a turn can touch a tap of this interface: it is such a tap's own, or that of the watch,
which serves and closes interfaces. -/
def Actor.concerns (i : Int32) : Actor → Bool
  | .watch => true
  | .tap id => id.index = i

namespace Journal

/-- What was recorded about the taps of an interface, newest first. -/
def concerning (i : Int32) (j : Journal) : List (Stamp × Entry) :=
  (j.rows.filter (·.1.concerns i)).map fun row => (row.1, row.2.unnumbered)

/-- Journals that tell the same about the taps of an interface, and will go on to do so. -/
structure Alike (i : Int32) (j j' : Journal) : Prop where
  threshold : j.threshold = j'.threshold
  toSystem : j.toSystem = j'.toSystem
  rows : j.concerning i = j'.concerning i

namespace Alike

variable {i : Int32} {j j' j'' : Journal} {stamp : Stamp}

theorem symm (h : Alike i j j') : Alike i j' j := ⟨h.threshold.symm, h.toSystem.symm, h.rows.symm⟩

theorem trans (h : Alike i j j') (h' : Alike i j' j'') : Alike i j j'' :=
  ⟨h.threshold.trans h'.threshold, h.toSystem.trans h'.toSystem, h.rows.trans h'.rows⟩

theorem record (h : Alike i j j') (stamp : Stamp) {e e' : Entry}
    (he : e.unnumbered = e'.unnumbered) : Alike i (j.record stamp e) (j'.record stamp e') where
  threshold := h.threshold
  toSystem := h.toSystem
  rows := by
    have hr := h.rows
    unfold concerning at hr ⊢
    cases hs : stamp.concerns i <;> simp [Journal.record, hs, hr, he]

theorem record_left (h : Alike i j j') (hs : stamp.concerns i = false) (e : Entry) :
    Alike i (j.record stamp e) j' where
  threshold := h.threshold
  toSystem := h.toSystem
  rows := by
    have hr := h.rows
    unfold concerning at hr ⊢
    simpa [Journal.record, hs] using hr

theorem recordAll (h : Alike i j j') (stamp : Stamp) {es es' : List Entry}
    (he : es.map (·.unnumbered) = es'.map (·.unnumbered)) :
    Alike i (j.recordAll stamp es) (j'.recordAll stamp es') := by
  unfold Journal.recordAll
  induction es generalizing j j' es' with
  | nil =>
    obtain rfl : es' = [] := List.map_eq_nil_iff.mp he.symm
    exact h
  | cons e es ih =>
    cases es' with
    | nil => cases he
    | cons e' es' =>
      obtain ⟨hx, hxs⟩ := List.cons.inj he
      exact ih (h.record stamp hx) hxs

theorem recordAll_left (h : Alike i j j') (hs : stamp.concerns i = false) (es : List Entry) :
    Alike i (j.recordAll stamp es) j' := by
  unfold Journal.recordAll
  induction es generalizing j with
  | nil => exact h
  | cons e es ih => exact ih (h.record_left hs e)

theorem note (h : Alike i j j') (stamp : Stamp) (n : Notice) :
    Alike i (j.note stamp n) (j'.note stamp n) := by
  have he : j.isEnabled n.severity = j'.isEnabled n.severity := by
    rw [isEnabled, isEnabled, h.threshold]
  unfold Journal.note say write
  rw [he, h.toSystem]
  split
  · exact h.record stamp rfl
  · exact h

theorem note_left (h : Alike i j j') (hs : stamp.concerns i = false) (n : Notice) :
    Alike i (j.note stamp n) j' := by
  unfold Journal.note say
  split
  · exact h.record_left hs _
  · exact h

end Alike

end Journal

/-- Hosts that answer alike, up to the numbers of connections, whatever else they have been asked
and however many dials and calls were made before. -/
structure Steady {σ : Type} [Host σ] (same : σ → σ → Prop) : Prop where
  symm {s s' : σ} (h : same s s') : same s' s
  trans {s s' s'' : σ} (h : same s s') (h' : same s' s'') : same s s''
  lookUp {s s' : σ} (h : same s s') (i : Int32) : same (Host.lookUp i s).after s'
  listRoutes {s s' : σ} (h : same s s') : same (Host.listRoutes s).after s'
  dial {s s' : σ} (h : same s s') (l : Link) : same (Medium.dial l s).2 s'
  call {s s' : σ} (h : same s s') (c : Connection) (x : ConnectionCall)
    (fault : Option ErrorCode) : same (Medium.call c x fault s).2 s'
  link {s s' : σ} (h : same s s') (i : Int32) :
    (Host.lookUp i s).answer = (Host.lookUp i s').answer
  routes {s s' : σ} (h : same s s') : (Host.listRoutes s).answer = (Host.listRoutes s').answer
  conditions {s s' : σ} (h : same s s') (l : Link) :
    (Medium.conditions l s).unnumbered = (Medium.conditions l s').unnumbered
  dialed {s s' : σ} (h : same s s') (l : Link) :
    (Medium.dial l s).1.map (·.unnumbered) = (Medium.dial l s').1.map (·.unnumbered)
  called {s s' : σ} (h : same s s') {c c' : Connection} (hc : c.unnumbered = c'.unnumbered)
    (x : ConnectionCall) (fault : Option ErrorCode) :
    (Medium.call c x fault s).1.map (·.unnumbered) =
      (Medium.call c' x fault s').1.map (·.unnumbered)
  watchErrno {s s' : σ} (h : same s s') (x : WatchCall) :
    Host.watchErrno x s = Host.watchErrno x s'
  announceAll {s s' : σ} (h : same s s') (n : UInt32) :
    Host.announceAll n s = Host.announceAll n s'

namespace Responder

variable {σ : Type}

/-- Responders for which everything that concerns the taps of an interface is the same. -/
structure Alike (same : σ → σ → Prop) (i : Int32) (r r' : Responder σ) : Prop where
  host : same r.host r'.host
  timing : r.timing = r'.timing
  selects : r.selects = r'.selects
  journal : r.journal.Alike i r'.journal
  taps : ∀ id, id.index = i →
    (r.taps.get? id).map (·.unnumbered) = (r'.taps.get? id).map (·.unnumbered)
  fresh : r.freshId i = r'.freshId i
  registry : r.registry.get? i = r'.registry.get? i
  watch : r.watch = r'.watch
  schedule : r.schedule.filter (·.concerns i) = r'.schedule.filter (·.concerns i)
  armed : r.armed.filter (·.index = i) = r'.armed.filter (·.index = i)
  halt : r.halt = r'.halt

namespace Alike

variable {same : σ → σ → Prop} {i : Int32} {r r' r'' : Responder σ} {id : TapId} {stamp : Stamp}

theorem note (h : Alike same i r r') (stamp : Stamp) (n : Notice) :
    Alike same i (r.note stamp n) (r'.note stamp n) :=
  { h with journal := h.journal.note stamp n }

theorem note_left (h : Alike same i r r') (hs : stamp.concerns i = false) (n : Notice) :
    Alike same i (r.note stamp n) r' :=
  { h with journal := h.journal.note_left hs n }

/-- What is noted about no tap concerns none. -/
theorem note_aside (h : Alike same i r r') (now : Nat) (n : Notice) :
    Alike same i (r.note ⟨now, none⟩ n) r' := h.note_left (concerns_none i now) n

theorem observe_left {α : Type} (h : Alike same i r r') (hs : stamp.concerns i = false)
    {x : Report σ α} (hx : same x.after r'.host) : Alike same i (r.observe stamp x) r' :=
  { h with host := hx, journal := h.journal.recordAll_left hs _ }

theorem count_filter_concerns {i : Int32} {a : Actor} (ha : a.concerns i = true)
    (schedule : List Actor) : (schedule.filter (·.concerns i)).count a = schedule.count a :=
  List.count_filter ha

theorem enroll (h : Alike same i r r') {a : Actor} (ha : a.concerns i = true) (n : Nat) :
    Alike same i (r.enroll a n) (r'.enroll a n) where
  host := h.host
  timing := h.timing
  selects := h.selects
  journal := h.journal
  taps := h.taps
  fresh := h.fresh
  registry := h.registry
  watch := h.watch
  armed := h.armed
  halt := h.halt
  schedule := by
    have hc : r.schedule.count a = r'.schedule.count a := by
      rw [← count_filter_concerns ha, h.schedule, count_filter_concerns ha]
    simp only [Responder.enroll, List.filter_append, h.schedule, hc]

theorem enroll_left (h : Alike same i r r') {a : Actor} (ha : a.concerns i = false) (n : Nat) :
    Alike same i (r.enroll a n) r' :=
  { h with
    schedule := by
      have hn : (List.replicate (n - r.schedule.count a) a).filter (·.concerns i) = [] :=
        List.filter_replicate_of_neg (by simp [ha])
      rw [Responder.enroll, List.filter_append, hn, List.append_nil]
      exact h.schedule }

theorem setWatch (h : Alike same i r r') {w w' : LinkWatch} (hw : w = w') :
    Alike same i (r.setWatch w) (r'.setWatch w') := by
  subst hw
  have hq : Alike same i { r with watch := w } { r' with watch := w } := { h with watch := rfl }
  exact hq.enroll rfl _

theorem unnumbered_get? (h : Alike same i r r') (hid : id.index = i) {t : Tap}
    (ht : r.taps.get? id = some t) :
    ∃ t', r'.taps.get? id = some t' ∧ t.unnumbered = t'.unnumbered := by
  have hu := h.taps id hid
  rw [ht, Option.map_some] at hu
  obtain ⟨t', ht', he⟩ := Option.map_eq_some_iff.mp hu.symm
  exact ⟨t', ht', he.symm⟩

theorem get?_eq_none (h : Alike same i r r') (hid : id.index = i) (ht : r.taps.get? id = none) :
    r'.taps.get? id = none := by
  have hu := h.taps id hid
  rw [ht] at hu
  exact Option.map_eq_none_iff.mp hu.symm

end Alike

/-- The names of one interface when a tap of any is put back or added. -/
theorem keys_insert (taps : Table TapId Tap) (id : TapId) (t : Tap) (i : Int32) :
    (taps.insert id t).keys.filter (·.index = i) =
      taps.keys.filter (·.index = i) ++
        if id.index = i ∧ taps.get? id = none then [id] else [] := by
  cases h : taps.get? id with
  | none =>
    rw [Table.keys_insert_of_none h, List.filter_append]
    by_cases hi : id.index = i <;> simp [hi]
  | some x => simp [Table.keys_insert_of_some (Option.isSome_of_eq_some h)]

namespace Alike

variable {same : σ → σ → Prop} {i : Int32} {r r' : Responder σ} {id : TapId} {t t' : Tap}

theorem insert (h : Alike same i r r') (hid : id.index = i) (ht : t.unnumbered = t'.unnumbered) :
    Alike same i { r with taps := r.taps.insert id t } { r' with taps := r'.taps.insert id t' } :=
  { h with
    taps := fun x hx => by
      by_cases hxid : x = id
      · subst hxid
        simp [ht]
      · simpa [hxid] using h.taps x hx
    fresh := by
      have hlen : (r.taps.keys.filter (·.index = i)).length =
          (r'.taps.keys.filter (·.index = i)).length := congrArg TapId.generation h.fresh
      have hnone : r.taps.get? id = none ↔ r'.taps.get? id = none := by
        rw [← Option.map_eq_none_iff, h.taps id hid, Option.map_eq_none_iff]
      simp only [freshId, keys_insert, List.length_append, hlen, hnone] }

theorem insert_left (h : Alike same i r r') (hid : id.index ≠ i) (t : Tap) :
    Alike same i { r with taps := r.taps.insert id t } r' :=
  { h with
    taps := fun x hx => by
      have hxid : x ≠ id := fun he => hid (he ▸ hx)
      simpa [hxid] using h.taps x hx
    fresh := by
      have hf := h.fresh
      simp only [freshId, keys_insert, hid, false_and, if_false, List.append_nil] at hf ⊢
      exact hf }

theorem setTap (h : Alike same i r r') (hid : id.index = i) (ht : t.unnumbered = t'.unnumbered) :
    Alike same i (r.setTap id t) (r'.setTap id t') := by
  have hm : t.advertiser.mailbox = t'.advertiser.mailbox :=
    congrArg (fun t => t.advertiser.mailbox) ht
  unfold Responder.setTap
  rw [hm]
  exact (h.insert hid ht).enroll (by simpa [Actor.concerns] using hid) _

theorem setTap_left (h : Alike same i r r') (hid : id.index ≠ i) (t : Tap) :
    Alike same i (r.setTap id t) r' :=
  (h.insert_left hid t).enroll_left (by simpa [Actor.concerns] using hid) _

/-- A change to an advertiser that does not look at the number of its connection. -/
def Blind (f : Advertiser → Advertiser) : Prop := ∀ a, f a.unnumbered = (f a).unnumbered

theorem modifyTap (h : Alike same i r r') (hid : id.index = i) {f : Advertiser → Advertiser}
    (hf : Blind f) : Alike same i (r.modifyTap id f) (r'.modifyTap id f) := by
  cases ht : r.taps.get? id with
  | none => simpa [Responder.modifyTap, ht, h.get?_eq_none hid ht] using h
  | some t =>
    obtain ⟨t', ht', hu⟩ := h.unnumbered_get? hid ht
    have ha : t.advertiser.unnumbered = t'.advertiser.unnumbered := congrArg Tap.advertiser hu
    rw [modifyTap_of_some ht, modifyTap_of_some ht']
    exact h.setTap hid (Tap.unnumbered_with hu (by rw [← hf, ← hf, ha]))

theorem modifyTap_left (h : Alike same i r r') (hid : id.index ≠ i)
    (f : Advertiser → Advertiser) : Alike same i (r.modifyTap id f) r' := by
  cases ht : r.taps.get? id with
  | none => simpa [Responder.modifyTap, ht] using h
  | some t =>
    rw [modifyTap_of_some ht]
    exact h.setTap_left hid _

end Alike

end Responder

end RouterAdvert
