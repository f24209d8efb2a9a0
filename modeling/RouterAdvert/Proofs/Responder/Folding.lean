import RouterAdvert.Proofs.Netlink.Answers
import RouterAdvert.Proofs.Netlink.Replies
import RouterAdvert.Proofs.Responder.Announcements
import RouterAdvert.Proofs.Responder.Astray
import RouterAdvert.Proofs.Route

/-! Datagrams taken apart. What the watch makes of whole messages one behind the other is what it
makes of each of them in turn, so that it does not matter how they are packed. This does not depend
on where taps come from. -/
namespace RouterAdvert

namespace Netlink.Message

/-- A whole message with its padding up to the next start. An error message has room for its error
number. -/
structure Padded (b : Bytes) : Prop where
  header : headerSize ≤ (mk b).length
  size : b.length = (mk b).stride.toNat
  errno : (mk b).type = error → headerSize + 4 ≤ (mk b).length

instance (b : Bytes) : Decidable (Padded b) :=
  decidable_of_iff (_ ∧ _ ∧ _) ⟨fun h => ⟨h.1, h.2.1, h.2.2⟩, fun h => ⟨h.header, h.size, h.errno⟩⟩

namespace Padded

variable {b : Bytes}

theorem stride_ne_zero (h : Padded b) : (Message.mk b).stride ≠ 0 := by
  intro hz
  have hsize := h.size
  rw [hz] at hsize
  have hnil : b = [] := List.eq_nil_of_length_eq_zero hsize
  have hh := h.header
  rw [hnil] at hh
  exact absurd hh (by decide)

theorem length_le (h : Padded b) : (Message.mk b).length ≤ b.length := by
  rw [h.size]
  exact length_le_stride h.stride_ne_zero

theorem le_length (h : Padded b) : headerSize ≤ b.length := Nat.le_trans h.header h.length_le

theorem length_append (h : Padded b) (rest : Bytes) :
    (Message.mk (b ++ rest)).length = (Message.mk b).length :=
  Message.length_append b rest h.le_length

theorem begins (h : Padded b) : Begins b := ⟨h.le_length, h.header, h.length_le⟩

theorem begins_append (h : Padded b) (rest : Bytes) : Begins (b ++ rest) := by
  unfold Begins
  rw [h.length_append, List.length_append]
  exact ⟨Nat.le_add_right_of_le h.le_length, h.header, Nat.le_add_right_of_le h.length_le⟩

/-- Nothing behind a padded message matters to it. -/
theorem append (h : Padded b) (rest : Bytes) :
    headerSize ≤ (Message.mk (b ++ rest)).length ∧
      ((Message.mk (b ++ rest)).type = error →
        headerSize + 4 ≤ (Message.mk (b ++ rest)).length) := by
  have hh : headerSize ≤ (Message.mk (b ++ rest)).length := by
    rw [h.length_append]
    exact h.header
  have ht : (Message.mk (b ++ rest)).type = (Message.mk b).type := by
    rw [← type_alone hh, alone_append h.begins, type_alone h.header]
  rw [ht, h.length_append]
  exact ⟨h.header, h.errno⟩

/-- The walk goes on right behind a padded message, whatever is behind the datagram. -/
theorem walk_append (h : Padded b) {rest : Bytes}
    (hd : (b ++ rest).length < UInt64.size) (behind : Bytes) :
    walk (b ++ rest ++ behind) (b ++ rest).length.toUInt64 =
      (walk (rest ++ behind) rest.length.toUInt64).visit (Message.mk (b ++ rest ++ behind)) := by
  have hstride : (Message.mk (b ++ rest)).stride = (Message.mk b).stride :=
    stride_append b rest h.le_length
  have hbehind : behindFirst (b ++ rest) = rest := by
    rw [behindFirst, hstride, ← h.size, List.drop_left]
  have hwalk := walk_of_padded (h.begins_append rest) (by rw [hstride]; exact h.stride_ne_zero)
    (by rw [hstride, ← h.size, List.length_append]; exact Nat.le_add_right _ _) hd behind
  rwa [hbehind] at hwalk

end Padded

end Netlink.Message

namespace Netlink.LinkMessage

/-- Whether a message is of another kind, too short, unnamed, or about a link that is not
selected. -/
def Passed (selects : Bytes → Bool) (m : Message) : Prop :=
  m.type ≠ Message.newLink ∧ m.type ≠ Message.delLink ∨
    m.length < Message.headerSize + fixedSize ∨
      ∃ l, decode? m = some l ∧ (l.name = [] ∨ selects l.name = false)

theorem passed_iff {selects : Bytes → Bool} {m : Message} :
    Passed selects m ↔ ∀ l, ¬Counts selects m l := by
  constructor
  · rintro (⟨hn, hd⟩ | hshort | ⟨x, hx, hname⟩) l ⟨hl, hne, hsel⟩
    · exact (type_of_decode? hl).elim hn hd
    · rw [decode?, if_neg fun hm => Nat.not_lt.mpr hm.2 hshort] at hl
      cases hl
    · obtain rfl := Option.some.inj (hx.symm.trans hl)
      rcases hname with hname | hname
      · exact hne hname
      · rw [hsel] at hname
        cases hname
  · intro h
    by_cases ht : m.type = Message.newLink ∨ m.type = Message.delLink
    · by_cases hshort : m.length < Message.headerSize + fixedSize
      · exact Or.inr (Or.inl hshort)
      · have hm : (decode? m).isSome := by
          rw [decode?, if_pos ⟨ht, Nat.not_lt.mp hshort⟩]
          rfl
        obtain ⟨l, hl⟩ := Option.isSome_iff_exists.mp hm
        refine Or.inr (Or.inr ⟨l, hl, ?_⟩)
        by_cases hne : l.name = []
        · exact Or.inl hne
        · exact Or.inr (Bool.eq_false_iff.mpr fun hs => h l ⟨hl, hne, hs⟩)
    · exact Or.inl (not_or.mp ht)

end Netlink.LinkMessage

namespace Responder

open Netlink LinkMessage

variable {σ : Type}

/-- What is done to the service of one interface: the tap that serves it from now on, and what it
makes of each tap. Other interfaces are served as before, what was in the schedule keeps its place,
and nothing else happens. -/
structure Alters (i : Int32) (serving : Option TapId) (change : TapId → Option Tap → Option Tap)
    (r r' : Responder σ) : Prop where
  registry (j : Int32) : r'.get? j = if j = i then serving else r.get? j
  taps (id : TapId) : r'.taps.get? id = change id (r.taps.get? id)
  schedule : r.schedule <+: r'.schedule
  rest : r' = { r with registry := r'.registry, taps := r'.taps, schedule := r'.schedule }

/-- Of the taps, one is told to come to its end. -/
def canceling (previous : Option TapId) (id : TapId) (t : Option Tap) : Option Tap :=
  if previous = some id then t.map fun t => { t with advertiser := t.advertiser.cancel } else t

/-- To the taps, one is added and told to begin. -/
def starting (p : TapId) (t : Tap) (id : TapId) (u : Option Tap) : Option Tap :=
  if id = p then some { t with advertiser := t.advertiser.start .deregister } else u

theorem get?_modifyTap_eq (id x : TapId) (f : Advertiser → Advertiser) (r : Responder σ) :
    (r.modifyTap id f).taps.get? x =
      if x = id then (r.taps.get? x).map fun t => { t with advertiser := f t.advertiser }
      else r.taps.get? x := by
  split
  · rename_i hx
    rw [hx, get?_modifyTap_self]
  · rename_i hx
    unfold modifyTap
    split
    · rfl
    · exact Table.get?_insert_of_ne _ hx _

theorem schedule_modifyTap (id : TapId) (f : Advertiser → Advertiser) (r : Responder σ) :
    r.schedule <+: (r.modifyTap id f).schedule := by
  unfold modifyTap
  split
  · exact List.prefix_refl _
  · exact List.prefix_append ..

theorem modifyTap_eq (id : TapId) (f : Advertiser → Advertiser) (r : Responder σ) :
    r.modifyTap id f =
      { r with
        taps := (r.modifyTap id f).taps, schedule := (r.modifyTap id f).schedule } := by
  unfold modifyTap
  split <;> rfl

/-- Closing an interface cancels the tap in service, if there is one. -/
theorem alters_close (i : Int32) (r : Responder σ) :
    Alters i none (canceling (r.get? i)) r (r.close i) := by
  cases hi : r.registry.get? i with
  | none =>
    have hclose : r.close i = r := by simp [Responder.close, hi]
    rw [hclose]
    refine ⟨fun j => ?_, fun id => ?_, List.prefix_refl _, rfl⟩
    · split
      · rename_i hj
        rw [hj]
        exact hi
      · rfl
    · rw [get?, hi, canceling, if_neg (Option.some_ne_none id).symm]
  | some p =>
    let q : Responder σ := { r with registry := r.registry.erase i }
    have hclose : r.close i = q.modifyTap p .cancel := by simp [Responder.close, hi, q]
    rw [hclose]
    refine ⟨fun j => ?_, fun id => ?_, schedule_modifyTap p .cancel q, ?_⟩
    · rw [get?, registry_modifyTap]
      split
      · rename_i hj
        rw [hj]
        exact Table.get?_erase_self ..
      · rename_i hj
        exact Table.get?_erase_of_ne _ hj
    · rw [get?_modifyTap_eq, get?, hi, canceling]
      simp only [Option.some_inj, eq_comm]
      rfl
    · rw [registry_modifyTap]
      exact modifyTap_eq p .cancel q

/-- A tap for an interface that nobody serves is put into service and started. -/
theorem alters_install {i : Int32} {r : Responder σ} (h : r.check i = false) (now : Nat) (t : Tap) :
    Alters i (some (r.freshId i)) (starting (r.freshId i) t) r (r.install now i t) := by
  have hi : r.registry.get? i = none := by simpa [check, Table.contains] using h
  let q : Responder σ :=
    { r with registry := r.registry.insert i (r.freshId i) }.setTap (r.freshId i) t
  have hinstall : r.install now i t = q.modifyTap (r.freshId i) (.start .deregister) := by
    simp only [install, hi, q]
  rw [hinstall]
  refine ⟨fun j => ?_, fun id => ?_, ?_, ?_⟩
  · rw [get?, registry_modifyTap]
    split
    · rename_i hj
      rw [hj]
      exact Table.get?_insert_self ..
    · rename_i hj
      exact Table.get?_insert_of_ne _ hj _
  · rw [get?_modifyTap_eq, starting]
    split
    · rename_i hid
      rw [hid]
      exact congrArg (Option.map _) (Table.get?_insert_self ..)
    · rename_i hid
      exact Table.get?_insert_of_ne _ hid _
  · have hq : r.schedule <+: q.schedule := List.prefix_append ..
    exact hq.trans (schedule_modifyTap _ _ q)
  · rw [registry_modifyTap]
    exact modifyTap_eq (r.freshId i) (.start .deregister) q

namespace Factory

variable (f : Factory σ) {now : Nat} {r : Responder σ}

theorem processMessage_alone {m : Message} (hh : Message.headerSize ≤ m.length)
    (he : m.type = Message.error → Message.headerSize + 4 ≤ m.length) :
    f.processMessage now m.alone r = f.processMessage now m r := by
  have hlink : f.processLink now m.alone r = f.processLink now m r := by
    unfold processLink
    rw [Message.link_alone hh, Message.type_alone hh]
  unfold processMessage
  rw [Message.type_alone hh, hlink]
  by_cases ht : m.type = Message.error
  · rw [Message.errno_alone (he ht)]
  · simp only [if_neg ht]

theorem processMessage_append {b : Bytes} (h : Message.Padded b) (rest : Bytes) :
    f.processMessage now ⟨b ++ rest⟩ r = f.processMessage now ⟨b⟩ r := by
  obtain ⟨hh, he⟩ := h.append rest
  rw [← f.processMessage_alone hh he, Message.alone_append h.begins,
    f.processMessage_alone h.header h.errno]

/-- A padded message at the front of a datagram is handled first, and the rest of the datagram as a
datagram of its own. -/
theorem processBuffer_append {b rest : Bytes} (h : Message.Padded b)
    (hd : (b ++ rest).length < UInt64.size) (behind : Bytes) :
    f.processBuffer now (b ++ rest ++ behind) (b ++ rest).length r =
      f.processBuffer now (rest ++ behind) rest.length (f.processAll now [⟨b⟩] r) := by
  unfold processBuffer
  rw [h.walk_append hd behind]
  simp only [Message.Walk.visit, processAll, List.foldl_cons, List.foldl_nil]
  rw [List.append_assoc, f.processMessage_append h]

/-- A datagram can be cut behind padded messages. -/
theorem processBuffer_flatten_append {blocks : List Bytes} (h : ∀ b ∈ blocks, Message.Padded b)
    {d : Bytes} (hd : (blocks.flatten ++ d).length < UInt64.size) (behind : Bytes) :
    f.processBuffer now (blocks.flatten ++ d ++ behind) (blocks.flatten ++ d).length r =
      f.processBuffer now (d ++ behind) d.length (f.processAll now (blocks.map .mk) r) := by
  induction blocks generalizing r with
  | nil => rfl
  | cons b blocks ih =>
    obtain ⟨hb, hrest⟩ := List.forall_mem_cons.mp h
    rw [List.flatten_cons, List.append_assoc b] at hd ⊢
    have hd' : (blocks.flatten ++ d).length < UInt64.size := by
      rw [List.length_append] at hd
      omega
    rw [f.processBuffer_append hb hd, ih hrest hd', processAll, processAll, processAll,
      List.map_cons, List.foldl_cons, List.foldl_cons, List.foldl_nil]

/-- From padded messages the walk comes back, whatever is behind them. -/
theorem processBuffer_flatten {blocks : List Bytes} (h : ∀ b ∈ blocks, Message.Padded b)
    (hd : blocks.flatten.length < UInt64.size) (behind : Bytes) :
    f.processBuffer now (blocks.flatten ++ behind) blocks.flatten.length r =
      f.processAll now (blocks.map .mk) r := by
  have hcut : f.processBuffer now (blocks.flatten ++ [] ++ behind) (blocks.flatten ++ []).length r =
      f.processBuffer now ([] ++ behind) ([] : Bytes).length
        (f.processAll now (blocks.map .mk) r) :=
    f.processBuffer_flatten_append h (by rwa [List.append_nil]) behind
  rw [List.append_nil] at hcut
  rw [hcut, processBuffer, Message.walk_of_not_begins (by decide) (by decide)]
  exact if_pos (Or.inr rfl)

theorem processMessage_of_counts {m : Message} {l : Link} (hl : Counts r.selects m l) :
    f.processMessage now m r =
      if m.type = Message.delLink then
        (r.note ⟨now, none⟩ (.linkRemoved l.name l.index)).close l.index
      else if r.check l.index then r
      else (f.add now l.index (r.note ⟨now, none⟩ (.linkAppeared l.name l.index))).1 := by
  obtain ⟨hd, hn, hs⟩ := hl
  unfold processMessage
  rw [if_pos (type_of_decode? hd)]
  simp only [processLink, hd, hn, hs, if_false, Bool.not_true, Bool.false_eq_true]

theorem processMessage_of_not_counts (now : Nat) {m : Message} (hl : ∀ l, ¬Counts r.selects m l) :
    ∃ j, f.processMessage now m r = { r with journal := j } := by
  unfold processMessage
  dsimp only
  split
  · unfold processLink
    dsimp only
    split
    · exact ⟨r.journal, rfl⟩
    · rename_i l hd
      split
      · exact ⟨r.journal, rfl⟩
      · rename_i hn
        split
        · exact ⟨_, rfl⟩
        · rename_i hs
          exact absurd ⟨hd, hn, by simpa using hs⟩ (hl l)
  · split
    · split
      · exact ⟨r.journal, rfl⟩
      · exact ⟨_, rfl⟩
    · split
      · exact ⟨_, rfl⟩
      · exact ⟨r.journal, rfl⟩

/-- Whether the program goes on after every attempt to make a tap. -/
structure Answers : Prop where
  isSome (now : Nat) (i : Int32) (r : Responder σ) : (f now i r).2.isSome
  halt (now : Nat) (i : Int32) (r : Responder σ) : (f now i r).1.halt = r.halt

variable {f}

namespace Answers

variable (h : f.Answers)

include h

theorem halt_add (now : Nat) (i : Int32) (r : Responder σ) : (f.add now i r).1.halt = r.halt := by
  have hs := h.isSome now i r
  have hh := h.halt now i r
  unfold add
  split <;> rename_i hx <;> rw [hx] at hs hh
  · exact (halt_install ..).trans hh
  · exact hh
  · cases hs

theorem halt_processMessage (now : Nat) (m : Message) (r : Responder σ) :
    (f.processMessage now m r).halt = r.halt := by
  by_cases hm : ∃ l, Counts r.selects m l
  · obtain ⟨l, hl⟩ := hm
    rw [f.processMessage_of_counts hl]
    split
    · exact halt_close ..
    · split
      · rfl
      · exact h.halt_add ..
  · obtain ⟨j, hj⟩ := f.processMessage_of_not_counts now (not_exists.mp hm)
    rw [hj]

theorem processAll_eq_foldl (hr : r.halt = none) (ms : List Message) :
    f.processAll now ms r = ms.foldl (fun r m => f.processMessage now m r) r := by
  unfold processAll
  induction ms generalizing r with
  | nil => rfl
  | cons m ms ih =>
    rw [List.foldl_cons, List.foldl_cons, hr, if_neg (by simp)]
    exact ih ((h.halt_processMessage now m r).trans hr)

end Answers

/-- The factory of the program always answers if no route that is listed is impossible. -/
theorem answers_ofHost [Host σ]
    (h : ∀ (s : σ) routes, (Host.listRoutes s).answer = .ok routes → ∀ x ∈ routes, x.length ≤ 128) :
    (ofHost : Factory σ).Answers where
  halt := halt_build
  isSome now i r := by
    have hbuild : (r.build now i).2 ≠ .error .impossibleRoute := by
      dsimp only [build]
      split
      · simp
      · split
        · rename_i hnone
          exact absurd hnone (Option.isSome_iff_ne_none.mp (RouteSet.isSome_inspect _ (h _) {}))
        · simp
        · split <;> simp
    unfold ofHost
    dsimp only
    split
    · rfl
    · rfl
    · rename_i hx
      exact absurd hx hbuild

/-- A kernel lists no impossible routes. -/
theorem answers_kernel : (ofHost : Factory Kernel).Answers :=
  answers_ofHost fun k _ h =>
    Query.length_le_of_routes ((k.answer_listRoutes).trans (congrArg some h))

/-- What an attempt to serve an interface comes to, after what the factory has done: without a tap
nothing but a line in the log, with one for an interface that nobody serves that this tap serves it.
-/
structure Serves (now : Nat) (i : Int32) (x : Responder σ × Option (Except ErrorCode Tap))
    (r : Responder σ) : Prop where
  tap (t : Tap) : x.2 = some (.ok t) → x.1.check i = false →
    Alters i (some (x.1.freshId i)) (starting (x.1.freshId i) t) x.1 r
  refused (e : ErrorCode) : x.2 = some (.error e) → ∃ n, r = x.1.note ⟨now, none⟩ n
  failed : x.2 = none → r = { x.1 with halt := some .failed }

theorem serves_add (now : Nat) (i : Int32) (r : Responder σ) :
    Serves now i (f now i r) (f.add now i r).1 := by
  unfold add
  cases f now i r with
  | mk q x =>
    refine ⟨fun t ht hi => ?_, fun e he => ?_, fun hn => ?_⟩
    · obtain rfl : x = _ := ht
      exact alters_install hi now t
    · obtain rfl : x = _ := he
      exact ⟨_, rfl⟩
    · obtain rfl : x = _ := hn
      rfl

/-- A datagram can be cut behind any padded message without changing what comes of it, whatever is
left behind it in the buffer; so it does what its messages do one after the other, if the factory
always answers. An announcement of a link that is selected and not served yet makes one attempt to
serve it, any other announcement of a selected link does nothing at all, a removal closes the
interface, and other messages at most leave a line in the log. -/
theorem process_folds (f : Factory σ) (now : Nat) :
    (∀ (blocks : List Bytes) (d behind before : Bytes) (r : Responder σ),
      (∀ b ∈ blocks, Message.Padded b) →
      (blocks.flatten ++ d).length < UInt64.size →
        f.processBuffer now (blocks.flatten ++ d ++ behind) (blocks.flatten ++ d).length r =
          f.processBuffer now (d ++ behind) d.length
            (f.processBuffer now (blocks.flatten ++ before) blocks.flatten.length r)) ∧
    (f.Answers → ∀ r : Responder σ, r.halt = none →
      (∀ buffer count, f.processBuffer now buffer count r =
        ((Message.inBuffer buffer count).foldl (fun r m => f.processMessage now m r) r).comeBack
          (Message.walk buffer count.toUInt64).ending) ∧
      ∀ (blocks : List Bytes) (behind : Bytes), (∀ b ∈ blocks, Message.Padded b) →
        blocks.flatten.length < UInt64.size →
          f.processBuffer now (blocks.flatten ++ behind) blocks.flatten.length r =
            blocks.foldl (fun r b => f.processMessage now ⟨b⟩ r) r) ∧
    (∀ (r : Responder σ) m l, Counts r.selects m l →
      (m.type = Message.newLink → r.check l.index = false →
        f.processMessage now m r =
            (f.add now l.index (r.note ⟨now, none⟩ (.linkAppeared l.name l.index))).1 ∧
          Serves now l.index (f now l.index (r.note ⟨now, none⟩ (.linkAppeared l.name l.index)))
            (f.processMessage now m r)) ∧
      (m.type = Message.newLink → r.check l.index = true → f.processMessage now m r = r) ∧
      (m.type = Message.delLink →
        Alters l.index none (canceling (r.get? l.index))
          (r.note ⟨now, none⟩ (.linkRemoved l.name l.index)) (f.processMessage now m r))) ∧
    ∀ (r : Responder σ) m, Passed r.selects m →
      ∃ j, f.processMessage now m r = { r with journal := j } := by
  have hkinds : Message.newLink ≠ Message.delLink := by decide
  refine ⟨fun blocks d behind before r hb hd => ?_, fun hf r hr => ⟨fun buffer count => ?_,
    fun blocks behind hb hd => ?_⟩, fun r m l hl => ⟨fun hm hc => ?_, fun hm hc => ?_,
    fun hm => ?_⟩, fun r m hm => f.processMessage_of_not_counts now (passed_iff.mp hm)⟩
  · have hfront : blocks.flatten.length < UInt64.size := by
      rw [List.length_append] at hd
      omega
    rw [f.processBuffer_flatten_append hb hd, f.processBuffer_flatten hb hfront]
  · exact congrArg (comeBack _) (hf.processAll_eq_foldl hr _)
  · rw [f.processBuffer_flatten hb hd, hf.processAll_eq_foldl hr, List.foldl_map]
  · have hadd : f.processMessage now m r =
        (f.add now l.index (r.note ⟨now, none⟩ (.linkAppeared l.name l.index))).1 := by
      rw [f.processMessage_of_counts hl, if_neg (hm ▸ hkinds), hc, if_neg Bool.false_ne_true]
    rw [hadd]
    exact ⟨rfl, f.serves_add ..⟩
  · rw [f.processMessage_of_counts hl, if_neg (hm ▸ hkinds), hc, if_pos rfl]
  · rw [f.processMessage_of_counts hl, if_pos hm]
    exact alters_close l.index (r.note ⟨now, none⟩ (.linkRemoved l.name l.index))

/-- A responder for the interfaces of a kernel whose names begin with "tap". -/
def watching : Responder Kernel where
  host := { Kernel.addLink { index := 5, name := "tap5" } {} with
    routes := [{ length := 128, interface := 5, table := 254 }] }
  timing := {}
  selects := fun name => (Pattern.compile? "^tap").any (·.search name)

/-- The link appears, another one appears that is not selected, and the link is announced again. -/
def appearing : List Bytes :=
  [(linkMessage Message.newLink 5 "tap5").tail, (linkMessage Message.newLink 2 "eth0").tail,
    (linkMessage Message.newLink 5 "tap5").tail]

/-- In front of the removal of the link, with a part of an older message behind it. -/
theorem process_of_appearing :
    (∀ b ∈ appearing, Message.Padded b) ∧
      watching.processBuffer 0
          (appearing.flatten ++ (linkMessage Message.delLink 5 "tap5").tail ++ [16, 0, 0, 0])
          (appearing.flatten ++ (linkMessage Message.delLink 5 "tap5").tail).length =
        (appearing.foldl (fun r b => r.processMessage 0 ⟨b⟩) watching).processBuffer 0
          ((linkMessage Message.delLink 5 "tap5").tail ++ [16, 0, 0, 0])
          (linkMessage Message.delLink 5 "tap5").tail.length ∧
      (watching.processMessage 0 (linkMessage Message.newLink 5 "tap5")).get? 5 = some ⟨5, 0⟩ ∧
      ∃ j, watching.processMessage 0 (linkMessage Message.newLink 2 "eth0") =
        { watching with journal := j } := by
  have hpadded : ∀ b ∈ appearing, Message.Padded b := by decide +kernel
  have htap : Counts watching.selects (linkMessage Message.newLink 5 "tap5")
      { index := 5, name := "tap5" } := ⟨by decide +kernel, by decide, by decide +kernel⟩
  have heth : Passed watching.selects (linkMessage Message.newLink 2 "eth0") :=
    Or.inr (Or.inr ⟨{ index := 2, name := "eth0" }, by decide +kernel, Or.inr (by decide +kernel)⟩)
  obtain ⟨hcut, hfold, hcounts, hpassed⟩ := process_folds (ofHost : Factory Kernel) 0
  obtain ⟨-, hblocks⟩ := hfold answers_kernel watching rfl
  obtain ⟨hserve, -, -⟩ := hcounts watching _ _ htap
  have htwo := hcut appearing (linkMessage Message.delLink 5 "tap5").tail [16, 0, 0, 0] [] watching
    hpadded (by decide +kernel)
  rw [hblocks appearing [] hpadded (by decide +kernel)] at htwo
  obtain ⟨-, hserves⟩ := hserve (by decide +kernel) rfl
  -- The kernel is asked once: the attempt is evaluated as a whole.
  have hattempt : let x := ofHost 0 5 (watching.note ⟨0, none⟩ (.linkAppeared "tap5" 5))
      (x.2.map (·.toBool), x.1.check 5, x.1.freshId 5) = (some true, false, ⟨5, 0⟩) := by
    decide +kernel
  obtain ⟨hmade, hcheck, hid⟩ := by simpa only [Prod.mk.injEq] using hattempt
  obtain ⟨x, hx, hok⟩ := Option.map_eq_some_iff.mp hmade
  cases x with
  | error e => cases hok
  | ok t =>
    have hserved := (hserves.tap t hx hcheck).registry 5
    rw [if_pos rfl, hid] at hserved
    exact ⟨hpadded, htwo, hserved, hpassed watching _ heth⟩

end Factory

end Responder

end RouterAdvert
