import RouterAdvert.Proofs.Netlink.Walk
import RouterAdvert.Proofs.Responder.Folding

/-! What a datagram can make the responder do depends on its own octets, as long as it consists of
whole messages. Then the watch and the questions see the same messages, whatever was in the buffer
before. A datagram whose last message lacks its padding, or an error message without its error
number, is read together with what an earlier datagram left behind it. -/
namespace RouterAdvert

namespace Netlink

namespace Message

/-- Whether a datagram consists of whole messages: none lacks its padding, and no error lacks its
number. -/
structure Whole (d : Bytes) : Prop where
  padded : ¬EndsUnpadded d
  numbered : ∀ m ∈ ofDatagram d, m.type = error → 4 ≤ m.payload.length

/-- Error messages have room for their numbers, wherever the datagram lies. -/
theorem Whole.room {d : Bytes} (h : Whole d) {ms : List Message} (hms : ms.map alone = ofDatagram d)
    (hh : ∀ m ∈ ms, headerSize ≤ m.length) {m : Message} (hm : m ∈ ms) (he : m.type = error) :
    headerSize + 4 ≤ m.length := by
  have hpayload := h.numbered m.alone (hms ▸ List.mem_map_of_mem hm)
    ((type_alone (hh m hm)).trans he)
  rw [payload_alone (hh m hm)] at hpayload
  exact le_length_of_payload (by decide) hpayload

/-- What is read of a message lies inside it: its header and what it says of a link or a route
always do, its error number exactly if there is room for it. -/
structure ReadInside (m : Message) : Prop where
  type : m.alone.type = m.type
  sequence : m.alone.sequence = m.sequence
  link : LinkMessage.decode? m.alone = LinkMessage.decode? m
  route : RouteMessage.decode? m.alone = RouteMessage.decode? m
  errno : m.length ≤ m.tail.length →
    ((∀ m' : Message, m'.alone = m.alone → m'.errno = m.errno) ↔ headerSize + 4 ≤ m.length)

theorem readInside {m : Message} (h : headerSize ≤ m.length) : m.ReadInside where
  type := type_alone h
  sequence := sequence_alone h
  link := link_alone h
  route := route_alone h
  errno := errno_inside_iff h

end Message

namespace Query

open Message

theorem overlay_eq {buffer d : Bytes} (hb : buffer.length = bufferSize) :
    overlay buffer d = d.take bufferSize ++ buffer.drop d.length := by
  rw [overlay, hb]

end Query

end Netlink

namespace Responder

open Netlink Message

variable {σ : Type} [Host σ]

theorem processAll_alone (now : Nat) {ms : List Message}
    (hh : ∀ m ∈ ms, headerSize ≤ m.length)
    (he : ∀ m ∈ ms, m.type = error → headerSize + 4 ≤ m.length) (r : Responder σ) :
    r.processAll now (ms.map alone) = r.processAll now ms := by
  unfold processAll Factory.processAll
  induction ms generalizing r with
  | nil => rfl
  | cons m ms ih =>
    obtain ⟨hm, hrest⟩ := List.forall_mem_cons.mp hh
    obtain ⟨hem, herest⟩ := List.forall_mem_cons.mp he
    rw [List.map_cons, List.foldl_cons, List.foldl_cons, Factory.processMessage_alone _ hm hem]
    exact ih hrest herest _

/-- The walk over a datagram in a buffer, by which the watch and the questions go, comes first to
the messages inside what was received, one behind the other, and to others only if the last one
lacks its padding; exactly then the count of what remains grows somewhere, and only then the walk
may not come back. All that is read of a message lies inside it, but for the error number of one
that has no room for it. So what comes of a datagram of whole messages does not depend on what was
in the buffer before. -/
theorem walk_confined (buffer : Vector UInt8 Query.bufferSize) (d : Bytes) :
    let received := d.take Query.bufferSize
    let held := Query.overlay buffer.toList d
    let walk := visits 0 held received.length.toUInt64
    walk.map (·.message) = inBuffer held (min d.length Query.bufferSize) ∧
    (∃ first behind, WalksFirst received walk first behind) ∧
    ((∀ v ∈ walk, v.next ≤ v.remaining) ↔ ¬EndsUnpadded received) ∧
    (¬EndsUnpadded received →
      (Message.walk held received.length.toUInt64).ending = .stopped) ∧
    (∀ v ∈ walk, v.message.ReadInside) ∧
    (Whole received →
      (∀ (now : Nat) (r : Responder σ),
        r.processBuffer now held received.length = r.processAll now (ofDatagram received)) ∧
      (∀ dump s v,
        Query.handle dump s (fun (_ : Option Link) m => LinkMessage.decode? m)
            (walk.map (·.message)) v =
          Query.handle dump s (fun _ m => LinkMessage.decode? m) (ofDatagram received) v) ∧
      ∀ dump s v,
        Query.handle dump s (fun rs m => rs ++ (RouteMessage.decode? m).toList)
            (walk.map (·.message)) v =
          Query.handle dump s (fun rs m => rs ++ (RouteMessage.decode? m).toList)
            (ofDatagram received) v) := by
  intro received held walk
  have hb : buffer.toList.length = Query.bufferSize := Vector.length_toList
  have hd : received.length < roundLimit := Query.length_received_lt d
  have hheld : held = received ++ buffer.toList.drop d.length := Query.overlay_eq hb
  have hmessages : walk.map (·.message) = inBuffer held received.length :=
    map_message_visits 0 _ _
  have hheader : ∀ m ∈ walk.map (·.message), headerSize ≤ m.length := by
    rw [hmessages]
    exact fun m => length_le_of_mem
  obtain ⟨first, behind, hwalk, -⟩ := exists_walksFirst received (buffer.toList.drop d.length) hd
  have hcount := next_le_iff received (buffer.toList.drop d.length) hd
  have hinside (hp : ¬EndsUnpadded received) :=
    walk_append hd hp (buffer.toList.drop d.length)
  rw [← hheld] at hwalk hcount hinside
  refine ⟨?_, ⟨first, behind, hwalk⟩, hcount, fun hp => (hinside hp).2, fun v hv => ?_,
    fun hw => ?_⟩
  · rw [hmessages, Query.length_received]
  · exact readInside (hheader _ (List.mem_map_of_mem hv))
  · obtain ⟨halone, hstops⟩ := hinside hw.padded
    rw [← hmessages] at halone
    have hroom (m : Message) (hm : m ∈ walk.map (·.message)) :
        m.type = error → headerSize + 4 ≤ m.length := hw.room halone hheader hm
    rw [← halone]
    refine ⟨fun now r => ?_, fun dump s v => ?_, fun dump s v => ?_⟩
    · rw [processAll_alone now hheader hroom, hmessages]
      exact if_pos (Or.inr hstops)
    · exact (Query.handle_alone Query.keepsInside_link hheader hroom v).symm
    · exact (Query.handle_alone Query.keepsInside_routes hheader hroom v).symm

/-- The announcement of a link, and a refusal with its number. -/
def sampleDatagram : Bytes :=
  (linkMessage newLink 5 "tap5").tail ++ Message.encode error 0 0 [255, 255, 255, 255]

/-- In a buffer that an earlier datagram has filled. -/
theorem confined_of_sampleDatagram :
    let held := Query.overlay (List.replicate Query.bufferSize 255) sampleDatagram
    let walk := visits 0 held sampleDatagram.length.toUInt64
    (∀ v ∈ walk, v.next ≤ v.remaining) ∧ (∀ v ∈ walk, v.message.alone.type = v.message.type) ∧
      Factory.watching.processBuffer 0 held sampleDatagram.length =
        Factory.watching.processAll 0 (ofDatagram sampleDatagram) := by
  have hwhole : Whole sampleDatagram := by
    constructor <;> decide +kernel
  have hreceived : sampleDatagram.take Query.bufferSize = sampleDatagram :=
    List.take_of_length_le (by decide)
  obtain ⟨-, -, hcount, -, hread, hsame⟩ :=
    walk_confined (σ := Kernel) (Vector.replicate _ 255) sampleDatagram
  rw [hreceived, Vector.toList_replicate] at hcount hread hsame
  exact ⟨hcount.mpr hwhole.padded, fun v hv => (hread v hv).type, (hsame hwhole).1 0 _⟩

/-- A message to question 2 that says nothing, with a word that is no error number of it. -/
def idleWord : Bytes :=
  [20, 0, 0, 0, 1, 0, 0, 0, 2, 0, 0, 0, 0, 0, 0, 0, 255, 255, 255, 255]

/-- An error message to question 2 without an error number. -/
def shortError : Bytes := [16, 0, 0, 0, 2, 0, 0, 0, 2, 0, 0, 0, 0, 0, 0, 0]

/-- A message with one octet and without its padding. -/
def unpadded : Bytes := [17, 0, 0, 0, 1, 0, 0, 0, 2, 0, 0, 0, 0, 0, 0, 0, 0]

theorem fields_append {d : Bytes} (h : Begins d) (stale : Bytes) :
    (Message.mk (d ++ stale)).type = (Message.mk d).type ∧
      (Message.mk (d ++ stale)).sequence = (Message.mk d).sequence := by
  have hheader : headerSize ≤ (Message.mk (d ++ stale)).length := by
    rw [length_append d stale h.1]
    exact h.2.1
  have halone := alone_append h stale
  exact ⟨by rw [← type_alone hheader, halone, type_alone h.2.1],
    by rw [← sequence_alone hheader, halone, sequence_alone h.2.1]⟩

/-- Behind a bare header, the error number is what lies there. -/
theorem errno_append {d word : Bytes} (h : d.length = headerSize) (hw : 4 ≤ word.length)
    (stale : Bytes) : (Message.mk (d ++ (word ++ stale))).errno = (Bytes.le32 word).toInt32 := by
  rw [errno, List.drop_left' h, Bytes.le32_append hw]

theorem walk_single {d : Bytes} (h : Begins d) (hp : (Message.mk d).stride.toNat = d.length)
    (hd : d.length < roundLimit) (stale : Bytes) :
    Message.walk (d ++ stale) d.length.toUInt64 =
      { visited := [Message.mk (d ++ stale)], ending := .stopped } := by
  have hcount := lt_count_of_lt_roundLimit hd
  have hnil : behindFirst d = [] := List.drop_eq_nil_of_le (Nat.le_of_eq hp.symm)
  have hnone : Message.walk ([] ++ stale) ([] : Bytes).length.toUInt64 = { ending := .stopped } :=
    walk_of_not_begins (by decide) (by decide) stale
  rw [walk_of_padded h (h.stride_ne_zero hd) (Nat.le_of_eq hp) hcount, hnil, hnone]
  rfl

theorem begins_shortError : Begins shortError := by decide

theorem begins_idleWord : Begins idleWord := by decide

theorem walk_shortError (stale : Bytes) : Message.walk (shortError ++ stale) 16 =
    { visited := [Message.mk (shortError ++ stale)], ending := .stopped } :=
  walk_single begins_shortError (by decide) (by decide) stale

/-- What the error message is taken for depends on the word behind it. -/
theorem absorb_shortError (word stale : Bytes) (hw : 4 ≤ word.length) :
    Query.absorb false 2 [Message.mk (shortError ++ (word ++ stale))] =
      ([], if (Bytes.le32 word).toInt32 = 0 then .answered
        else .refused (.system (-(Bytes.le32 word).toInt32))) := by
  obtain ⟨htype, hsequence⟩ := fields_append begins_shortError (word ++ stale)
  have hsequence : (Message.mk (shortError ++ (word ++ stale))).sequence = 2 := hsequence
  have htype : (Message.mk (shortError ++ (word ++ stale))).type = error := htype
  have herrno := errno_append (d := shortError) rfl hw stale
  split
  · rename_i hz
    exact Query.absorb_of_completes hsequence (Or.inr ⟨htype, herrno.trans hz⟩) []
  · rename_i hz
    rw [← herrno]
    exact Query.absorb_of_refuses hsequence ⟨htype, fun h => hz (herrno.symm.trans h)⟩ []

/-- A question about a link, once its socket has taken the request. -/
def linkAsked : Query.Variables (Option Link) :=
  { code := none, value := none
    stages := [(.opened, none), (.bound, none), (.sent ((Request.link 5).encode 2), none)] }

theorem request_of_replies (replies : List Reply) :
    Query.request (.link 5) (fun _ m => LinkMessage.decode? m) { replies := fun _ => replies } 2
        ⟨none, none, []⟩ =
      (Query.receiveAll false 2 (fun _ m => LinkMessage.decode? m)
        (List.replicate Query.bufferSize 0) replies linkAsked, 3) := by
  have hzero : ErrorCode.ofErrno? 0 = none := rfl
  simp only [Query.request, Query.Variables.pass, hzero]
  rfl

section Receiving

variable {α : Type} (keep : α → Message → α) {buffer : Bytes}
  (hb : buffer.length = Query.bufferSize)

include hb

/-- A word that was left behind it makes the error message a refusal. -/
theorem receiveAll_shortError (v : Query.Variables α) :
    let f := Query.receiveAll false 2 keep buffer [.ok idleWord, .ok shortError] v
    f.answered = some false ∧ f.state.code = some (.system 1) := by
  have hfirst : Query.overlay buffer idleWord = idleWord ++ buffer.drop 20 := Query.overlay_eq hb
  have hlength : (idleWord ++ buffer.drop 20).length = Query.bufferSize := by
    rw [← hfirst, Query.length_overlay, hb]
  have hsecond : Query.overlay (idleWord ++ buffer.drop 20) shortError =
      shortError ++ ([255, 255, 255, 255] ++ buffer.drop 20) := Query.overlay_eq hlength
  have hidle : Message.walk (idleWord ++ buffer.drop 20) 20 =
      { visited := [Message.mk (idleWord ++ buffer.drop 20)], ending := .stopped } :=
    walk_single begins_idleWord (by decide) (by decide) _
  have hpassed : Query.absorb false 2 [Message.mk (idleWord ++ buffer.drop 20)] =
      ([], .unfinished) :=
    Query.absorb_of_passed (Or.inr (Or.inl (fields_append begins_idleWord _).1)) []
  have hrefused := absorb_shortError [255, 255, 255, 255] (buffer.drop 20) (by decide)
  rw [if_neg (by decide)] at hrefused
  have h20 : (min idleWord.length Query.bufferSize).toUInt64 = 20 := rfl
  have h16 : (min shortError.length Query.bufferSize).toUInt64 = 16 := rfl
  simp only [Query.receiveAll, Query.handle_eq, hfirst, hsecond, h20, h16, hidle, walk_shortError,
    hpassed, hrefused]
  exact ⟨rfl, rfl⟩

/-- In a buffer of zeros, the error message counts as the end of the answer. -/
theorem receiveAll_shortError_alone {stale : Bytes} (hs : buffer.drop 16 = [0, 0, 0, 0] ++ stale)
    (v : Query.Variables α) :
    let f := Query.receiveAll false 2 keep buffer [.ok shortError] v
    f.answered = some true ∧ f.state.value = v.value := by
  have hfirst : Query.overlay buffer shortError = shortError ++ ([0, 0, 0, 0] ++ stale) :=
    (Query.overlay_eq hb).trans (congrArg _ hs)
  have hanswered := absorb_shortError [0, 0, 0, 0] stale (by decide)
  rw [if_pos (by decide)] at hanswered
  have h16 : (min shortError.length Query.bufferSize).toUInt64 = 16 := rfl
  simp only [Query.receiveAll, Query.handle_eq, hfirst, h16, walk_shortError, hanswered]
  exact ⟨rfl, rfl⟩

end Receiving

/-- A message that was left behind an unpadded one is visited, though it lies outside. -/
theorem visits_unpadded (stale : Bytes) :
    ∃ v ∈ visits 0 (unpadded ++ ([0, 0, 0] ++ (idleWord ++ stale))) 17,
      17 < v.start ∧ ∃ w ∈ visits 0 (unpadded ++ ([0, 0, 0] ++ (idleWord ++ stale))) 17,
        w.remaining < w.next := by
  have hwalk : visits 0 (unpadded ++ ([0, 0, 0] ++ (idleWord ++ stale))) 17 =
      ⟨0, 17, ⟨unpadded ++ ([0, 0, 0] ++ (idleWord ++ stale))⟩⟩ ::
        visits 20 (idleWord ++ stale) 18446744073709551613 :=
    visits_of_begins 0 (d := unpadded) (by decide) (by decide) (by decide) _
  have hgoes : ending? (idleWord ++ stale) 18446744073709551613 = none := by
    have hsize : (Message.mk (idleWord ++ stale)).size = 20 :=
      size_append idleWord stale (by decide)
    have hlength : 20 ≤ (idleWord ++ stale).length := by
      rw [List.length_append]
      exact Nat.le_add_right _ _
    unfold ending? stride length
    dsimp only
    rw [hsize, if_neg fun h => h.elim (by decide) fun h => h.2.elim (by decide) (by decide),
      if_neg fun h => absurd h.2 (by decide), if_pos ⟨Nat.le_trans (by decide) hlength, hlength⟩]
  have hbehind : (⟨20, 18446744073709551613, ⟨idleWord ++ stale⟩⟩ : Visit) ∈
      visits 20 (idleWord ++ stale) 18446744073709551613 := by
    rw [visits_of_goes_on hgoes]
    exact List.mem_cons_self
  have hnext : Visit.next ⟨0, 17, ⟨unpadded ++ ([0, 0, 0] ++ (idleWord ++ stale))⟩⟩ =
      18446744073709551613 := by
    have hstride : (Message.mk (unpadded ++ ([0, 0, 0] ++ (idleWord ++ stale)))).stride = 20 :=
      stride_append unpadded _ (by decide)
    rw [Visit.next, hstride]
    rfl
  rw [hwalk]
  refine ⟨_, List.mem_cons_of_mem _ hbehind, (by decide : 17 < 20), _, List.mem_cons_self, ?_⟩
  rw [hnext]
  exact (by decide : (17 : UInt64) < 18446744073709551613)

/-- At a length that is rounded up to nothing the walk stands. -/
theorem ending?_of_roundLimit_le {buffer : Bytes} {remaining : UInt64}
    (hh : headerSize ≤ buffer.length) (hs : roundLimit ≤ (Message.mk buffer).length)
    (hr : (Message.mk buffer).length ≤ remaining.toNat) :
    ending? buffer remaining = some .standing := by
  unfold ending?
  rw [if_neg, if_pos ⟨hh, align_eq_zero hs⟩]
  rw [UInt64.lt_iff_toNat_lt, UInt64.lt_iff_toNat_lt, UInt32.lt_iff_toNat_lt,
    UInt32.toNat_toUInt64]
  unfold length roundLimit at *
  simp only [UInt32.reduceToNat, UInt64.reduceToNat]
  omega

/-- A word that was left behind an unpadded message stops the walk from going on, and from coming
back. -/
theorem walk_unpadded {stale : Bytes} (hs : 12 ≤ stale.length) :
    (Message.walk (unpadded ++ ([0, 0, 0] ++ ([253, 255, 255, 255] ++ stale))) 17).ending =
      .standing := by
  have hwalk : Message.walk (unpadded ++ ([0, 0, 0] ++ ([253, 255, 255, 255] ++ stale))) 17 =
      (Message.walk ([253, 255, 255, 255] ++ stale) 18446744073709551613).visit
        (Message.mk (unpadded ++ ([0, 0, 0] ++ ([253, 255, 255, 255] ++ stale)))) :=
    walk_of_begins (d := unpadded) (by decide) (by decide) (by decide) _
  have hlength : (Message.mk ([253, 255, 255, 255] ++ stale)).length = 4294967293 :=
    congrArg UInt32.toNat (size_append [253, 255, 255, 255] stale (by decide))
  have hstands : ending? ([253, 255, 255, 255] ++ stale) 18446744073709551613 = some .standing := by
    refine ending?_of_roundLimit_le ?_ (Nat.le_of_eq hlength.symm) ?_
    · rw [List.length_append]
      exact Nat.add_le_add_left hs 4
    · rw [hlength]
      decide
  rw [hwalk, walk_of_standing hstands]
  rfl

/-- The same error message without an error number is an answer or a refusal, depending on what was
received before. And behind a datagram that ends in a message without its padding, a message that
lies outside is visited, with more octets taken to remain there than in front of it, or the walk
does not come back. -/
theorem strays_behind_datagram :
    (Query.link 5 { replies := fun _ => [.ok shortError] } 2).result =
      some (.error ⟨.generic, Errno.noDevice⟩) ∧
    (Query.link 5 { replies := fun _ => [.ok idleWord, .ok shortError] } 2).result =
      some (.error (.system 1)) ∧
    (∃ buffer : Bytes, buffer.length = Query.bufferSize ∧
      ∃ v ∈ visits 0 (Query.overlay buffer unpadded) unpadded.length.toUInt64,
        unpadded.length < v.start ∧
        ∃ w ∈ visits 0 (Query.overlay buffer unpadded) unpadded.length.toUInt64,
          w.remaining < w.next) ∧
    ∃ buffer : Bytes, buffer.length = Query.bufferSize ∧
      (Message.walk (Query.overlay buffer unpadded) unpadded.length.toUInt64).ending =
        .standing := by
  have hzeros : (List.replicate Query.bufferSize (0 : UInt8)).drop 16 =
      [0, 0, 0, 0] ++ List.replicate (Query.bufferSize - 20) 0 := List.drop_replicate
  have hempty : (List.replicate Query.bufferSize (0 : UInt8)).length = Query.bufferSize :=
    List.length_replicate
  have hlength (word : Bytes) (n : Nat) (h : 20 + (word.length + n) = Query.bufferSize) :
      (List.replicate 20 0 ++ (word ++ List.replicate n (0 : UInt8))).length =
        Query.bufferSize := by
    rw [List.length_append, List.length_append, List.length_replicate, List.length_replicate, h]
  have hstray := hlength idleWord (Query.bufferSize - 40) (by decide)
  have hstand := hlength [253, 255, 255, 255] (Query.bufferSize - 24) (by decide)
  refine ⟨?_, ?_, ⟨_, hstray, ?_⟩, _, hstand, ?_⟩
  · obtain ⟨ha, hv⟩ :=
      receiveAll_shortError_alone (fun _ m => LinkMessage.decode? m) hempty hzeros linkAsked
    simp only [Query.link, Query.getLink, request_of_replies, ha, hv]
    rfl
  · obtain ⟨ha, hc⟩ := receiveAll_shortError (fun _ m => LinkMessage.decode? m) hempty linkAsked
    simp only [Query.link, Query.getLink, request_of_replies, ha]
    exact congrArg (Option.map Except.error) hc
  · rw [Query.overlay_eq hstray]
    exact visits_unpadded _
  · rw [Query.overlay_eq hstand]
    exact walk_unpadded (by rw [List.length_replicate]; decide)

end Responder

end RouterAdvert
