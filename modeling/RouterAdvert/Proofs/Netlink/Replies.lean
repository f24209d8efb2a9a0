import RouterAdvert.Kernel
import RouterAdvert.Proofs.Netlink.Stages

/-! The replies of a kernel. They consist of padded messages, so that no walk over them goes astray:
every question comes back, and the answer is the one that it comes back with. -/
namespace RouterAdvert

namespace Netlink

theorem roundUp_mod_four (n : Nat) : roundUp n % 4 = 0 := Nat.mul_mod_left _ 4

namespace Message

variable {d : Bytes}

/-- Without an odd octet at its end, a datagram holds the padding of all its messages. -/
theorem not_endsUnpadded_of_length (hd : d.length < roundLimit) (h : d.length % 4 = 0) :
    ¬EndsUnpadded d := by
  induction d, hd using datagram_induction with
  | none d hd hb =>
    have halone := walk_of_not_begins hb (lt_count_of_lt_roundLimit hd) []
    rw [List.append_nil] at halone
    rintro ⟨m, hm, -⟩
    rw [inDatagram, inBuffer, halone] at hm
    cases hm
  | last d hd hb hp =>
    have hle := hb.2.2
    have hmod := roundUp_mod_four (mk d).length
    have hround : roundUp (mk d).length < (mk d).length + 4 := by
      unfold roundUp
      omega
    rw [hb.toNat_stride hd] at hp
    omega
  | next d hd hd' hb hp ih =>
    have hmod := roundUp_mod_four (mk d).length
    have hrest : (behindFirst d).length % 4 = 0 := by
      rw [behindFirst, List.length_drop, hb.toNat_stride hd] at *
      omega
    rintro ⟨m, hm, hlt⟩
    rw [inDatagram_of_padded hb (hb.stride_ne_zero hd) hp (lt_count_of_lt_roundLimit hd)] at hm
    rcases List.mem_cons.mp hm with rfl | hm
    · rw [hb.toNat_stride hd] at hp
      exact absurd hp (Nat.not_le.mpr hlt)
    · exact ih hrest ⟨m, hm, hlt⟩

theorem length_encode (type flags : UInt16) (sequence : UInt32) (payload : Bytes) :
    (encode type flags sequence payload).length = roundUp (headerSize + payload.length) := by
  have hle := le_roundUp (headerSize + payload.length)
  have hparts : (encode type flags sequence payload).length = headerSize + payload.length +
      (roundUp (headerSize + payload.length) - (headerSize + payload.length)) := by
    simp [encode, Bytes.text, Bytes.ofLe32, Bytes.ofLe16, headerSize]
    omega
  omega

end Message

namespace Query

/-- What is received of a datagram in whole words is in whole words. -/
theorem not_endsUnpadded_received {d : Bytes} (h : d.length % 4 = 0) :
    ¬Message.EndsUnpadded (d.take bufferSize) := by
  have hsize : bufferSize % 4 = 0 := rfl
  apply Message.not_endsUnpadded_of_length (length_received_lt d)
  rw [length_received]
  omega

/-- Replies in whole words are read without going astray. -/
theorem not_endsUnpadded_of_replies {replies : List Reply}
    (h : ∀ d, .ok d ∈ replies → d.length % 4 = 0) :
    ∀ d ∈ datagrams replies, ¬Message.EndsUnpadded d := by
  induction replies with
  | nil => exact fun d hd => absurd hd List.not_mem_nil
  | cons reply rest ih =>
    have hrest := ih fun d hd => h d (List.mem_cons_of_mem _ hd)
    cases reply with
    | error e =>
      unfold datagrams
      split
      · exact hrest
      · exact fun d hd => absurd hd List.not_mem_nil
    | ok d =>
      exact List.forall_mem_cons.mpr
        ⟨not_endsUnpadded_received (h d List.mem_cons_self), hrest⟩

end Query

end Netlink

namespace Kernel

open Netlink

variable {k : Kernel}

theorem length_flatMap_mod_four {α : Type} {f : α → Bytes} (hf : ∀ a, (f a).length % 4 = 0)
    (xs : List α) : (xs.flatMap f).length % 4 = 0 := by
  induction xs with
  | nil => rfl
  | cons x xs ih =>
    have hx := hf x
    rw [List.flatMap_cons, List.length_append]
    omega

theorem length_encode_mod_four (type flags : UInt16) (sequence : UInt32) (payload : Bytes) :
    (Message.encode type flags sequence payload).length % 4 = 0 := by
  rw [Message.length_encode]
  exact roundUp_mod_four _

theorem length_answerLink {i : Int32} {request d : Bytes} (h : .ok d ∈ k.answerLink i request) :
    d.length % 4 = 0 := by
  unfold answerLink at h
  dsimp only at h
  split at h
  · obtain rfl := Except.ok.inj (List.mem_singleton.mp h)
    exact length_encode_mod_four ..
  · split at h <;> obtain rfl := Except.ok.inj (List.mem_singleton.mp h) <;>
      exact length_encode_mod_four ..

theorem length_answerRoutes {request d : Bytes} (h : .ok d ∈ k.answerRoutes request) :
    d.length % 4 = 0 := by
  have hroutes : (k.routes.flatMap (RouteMessage.encode k.sequence)).length % 4 = 0 :=
    length_flatMap_mod_four (fun _ => length_encode_mod_four ..) _
  unfold answerRoutes at h
  split at h
  · obtain rfl := Except.ok.inj (List.mem_singleton.mp h)
    exact length_encode_mod_four ..
  · rcases List.mem_append.mp h with h | h
    · split at h
      · cases h
      · obtain rfl := Except.ok.inj (List.mem_singleton.mp h)
        exact hroutes
    · obtain rfl := Except.ok.inj (List.mem_singleton.mp h)
      exact length_encode_mod_four ..

/-- The watch comes back from a list of all links. -/
theorem not_endsUnpadded_linkDump (sequence : UInt32) (k : Kernel) :
    ¬Message.EndsUnpadded ((k.linkDump sequence).take Query.bufferSize) := by
  have hlinks : (k.links.values.flatMap
      (LinkMessage.encode Message.newLink sequence)).length % 4 = 0 :=
    length_flatMap_mod_four (fun _ => length_encode_mod_four ..) _
  have hdone : (doneMessage sequence).length % 4 = 0 := length_encode_mod_four ..
  apply Query.not_endsUnpadded_received
  rw [linkDump, List.length_append]
  omega

/-- A kernel answers with what a question about a link comes back with. -/
theorem answer_lookUp (k : Kernel) (i : Int32) :
    (Query.link i (k.exchange (k.answerLink i)) k.sequence).result =
      some (Host.lookUp i k).answer := by
  have htells := Query.getLink_tells i (k.exchange (k.answerLink i)) k.sequence none
  obtain ⟨-, -, -, hreturns⟩ := Query.getLink_spec i (k.exchange (k.answerLink i)) k.sequence none
  have hback := hreturns (Query.not_endsUnpadded_of_replies fun _ => length_answerLink)
  rw [htells.returns] at hback
  obtain ⟨x, hx⟩ := Option.isSome_iff_exists.mp hback
  change _ = some ((Query.link i (k.exchange (k.answerLink i)) k.sequence).result.getD _)
  rw [hx]
  rfl

/-- A kernel answers with what a question about the routes comes back with. -/
theorem answer_listRoutes (k : Kernel) :
    (Query.routes (k.exchange k.answerRoutes) k.sequence).result =
      some (Host.listRoutes k).answer := by
  have htells := Query.getRoutes_tells (k.exchange k.answerRoutes) k.sequence none
  obtain ⟨-, -, -, hreturns⟩ := Query.getRoutes_spec (k.exchange k.answerRoutes) k.sequence none
  have hback := hreturns (Query.not_endsUnpadded_of_replies fun _ => length_answerRoutes)
  rw [htells.returns] at hback
  obtain ⟨x, hx⟩ := Option.isSome_iff_exists.mp hback
  change _ = some ((Query.routes (k.exchange k.answerRoutes) k.sequence).result.getD _)
  rw [hx]
  rfl

end Kernel

end RouterAdvert
