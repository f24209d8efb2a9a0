import RouterAdvert.Bench
import RouterAdvert.Kernel
import RouterAdvert.Proofs.Responder.Orderly

/-! Requests on the socket for announcements. On a host that leaves this socket to the watch, only
the watch makes requests on it: neither taps nor the registry do, nor what is done about messages.
-/
namespace RouterAdvert

/-- A request on the socket for announcements, and the error number that it ended with. -/
def Entry.request? : Entry → Option (Bytes × Int32)
  | .socket .netlink 0 ⟨.send d, errno⟩ => some (d, errno)
  | _ => none

namespace Journal

/-- The requests on the socket for announcements, oldest first. -/
def requests (j : Journal) : List (Bytes × Int32) := j.rows.reverse.filterMap (·.2.request?)

@[simp] theorem requests_record (stamp : Stamp) (e : Entry) (j : Journal) :
    (j.record stamp e).requests = j.requests ++ e.request?.toList := by
  cases h : e.request? <;> simp [requests, record, List.filterMap_append, h]

@[simp] theorem requests_write (stamp : Stamp) (s : Severity) (m : Bytes) (j : Journal) :
    (j.write stamp s m).requests = j.requests := by
  rw [write, requests_record]
  exact List.append_nil _

@[simp] theorem requests_note (stamp : Stamp) (n : Notice) (j : Journal) :
    (j.note stamp n).requests = j.requests := by
  unfold note say
  split
  · exact requests_write ..
  · rfl

theorem requests_recordAll {es : List Entry} (h : ∀ e ∈ es, e.request? = none) (stamp : Stamp)
    (j : Journal) : (j.recordAll stamp es).requests = j.requests := by
  induction es generalizing j with
  | nil => rfl
  | cons e es ih =>
    obtain ⟨he, hes⟩ := List.forall_mem_cons.mp h
    have hcons : j.recordAll stamp (e :: es) = (j.record stamp e).recordAll stamp es := rfl
    rw [hcons, ih hes, requests_record, he]
    exact List.append_nil _

end Journal

/-- A host, as long as it is in one of these states, leaves the socket for announcements to the
watch: neither questions about links and routes nor taps make a request on it. -/
structure Secluded {σ : Type} [Host σ] (P : σ → Prop) : Prop where
  lookUp {s : σ} (h : P s) (i : Int32) :
    P (Host.lookUp i s).after ∧ ∀ e ∈ (Host.lookUp i s).entries, e.request? = none
  listRoutes {s : σ} (h : P s) :
    P (Host.listRoutes s).after ∧ ∀ e ∈ (Host.listRoutes s).entries, e.request? = none
  dial {s : σ} (h : P s) (l : Link) :
    P (Medium.dial l s).2 ∧ ∀ e ∈ (Medium.dial l s).1, e.request? = none
  call {s : σ} (h : P s) (c : Connection) (x : ConnectionCall) (fault : Option ErrorCode) :
    P (Medium.call c x fault s).2 ∧ ∀ e ∈ (Medium.call c x fault s).1, e.request? = none

/-- A kernel never hands out the first netlink socket again. -/
theorem secluded_kernel : Secluded fun k : Kernel => 1 ≤ k.nextNetlink := by
  have question {k : Kernel} {α : Type} (h : 1 ≤ k.nextNetlink) (o : Netlink.Query.Outcome α) :
      1 ≤ (k.report o).after.nextNetlink ∧ ∀ e ∈ (k.report o).entries, e.request? = none := by
    refine ⟨Nat.le_succ_of_le h, fun e he => ?_⟩
    obtain ⟨u, -, rfl⟩ := List.mem_map.mp he
    obtain ⟨n, hn⟩ := Nat.exists_eq_add_of_le' h
    rw [hn]
    rfl
  constructor
  case lookUp => exact fun h i => question h _
  case listRoutes => exact fun h => question h _
  case dial =>
    refine fun {k} h l => ⟨?_, fun e he => ?_⟩
    · change 1 ≤ (k.afterDial l).nextNetlink
      dsimp only [Kernel.afterDial]
      split <;> exact h
    · obtain ⟨u, -, rfl⟩ := List.mem_map.mp he
      rfl
  case call =>
    refine fun {k} h c x fault => ⟨h, fun e he => ?_⟩
    obtain ⟨u, -, rfl⟩ := List.mem_map.mp he
    rfl

namespace Responder

variable {σ : Type} {P : σ → Prop} {r r' r'' : Responder σ}

/-- The watch is as it was, and no request was made on its socket. -/
structure Undisturbed (P : σ → Prop) (r r' : Responder σ) : Prop where
  watch : r'.watch = r.watch
  host (h : P r.host) : P r'.host
  requests (h : P r.host) : r'.journal.requests = r.journal.requests

namespace Undisturbed

theorem trans (h : Undisturbed P r r') (h' : Undisturbed P r' r'') : Undisturbed P r r'' :=
  ⟨h'.watch.trans h.watch, fun hr => h'.host (h.host hr),
    fun hr => (h'.requests (h.host hr)).trans (h.requests hr)⟩

theorem of_eq (hw : r'.watch = r.watch) (hh : r'.host = r.host)
    (hj : r'.journal.requests = r.journal.requests) : Undisturbed P r r' :=
  ⟨hw, fun h => hh ▸ h, fun _ => hj⟩

theorem refl (r : Responder σ) : Undisturbed P r r := of_eq rfl rfl rfl

theorem from_eq (h : Undisturbed P r' r'') (hw : r'.watch = r.watch) (hh : r'.host = r.host)
    (hj : r'.journal.requests = r.journal.requests) : Undisturbed P r r'' :=
  (of_eq hw hh hj).trans h

theorem note (stamp : Stamp) (n : Notice) (r : Responder σ) :
    Undisturbed P r (r.note stamp n) := of_eq rfl rfl (Journal.requests_note ..)

theorem comeBack (e : Netlink.Message.Ending) (r : Responder σ) :
    Undisturbed P r (r.comeBack e) := by
  unfold Responder.comeBack
  split
  · exact refl r
  · exact of_eq rfl rfl rfl

theorem modifyTap (id : TapId) (f : Advertiser → Advertiser) (r : Responder σ) :
    Undisturbed P r (r.modifyTap id f) := by
  unfold Responder.modifyTap
  split
  · exact refl r
  · exact of_eq rfl rfl rfl

theorem cancelAll (ids : List TapId) (r : Responder σ) :
    Undisturbed P r (Orderly.cancelAll ids r) := by
  induction ids generalizing r with
  | nil => exact refl r
  | cons id ids ih => exact (modifyTap id .cancel r).trans (ih _)

theorem close (i : Int32) (r : Responder σ) : Undisturbed P r (r.close i) := by
  unfold Responder.close
  split
  · exact refl r
  · exact (modifyTap _ .cancel _).from_eq rfl rfl rfl

theorem closeAll (r : Responder σ) : Undisturbed P r r.closeAll :=
  (cancelAll r.registry.values { r with registry := .empty }).from_eq rfl rfl rfl

theorem install (now : Nat) (i : Int32) (t : Tap) (r : Responder σ) :
    Undisturbed P r (r.install now i t) := by
  have hreplace (q : Responder σ) (previous : Option TapId) :
      Undisturbed P q (Orderly.replace now t.link.name previous q) := by
    cases previous with
    | none => exact refl q
    | some p => exact (note _ _ q).trans (modifyTap p .cancel _)
  rw [Orderly.install_eq]
  refine Undisturbed.trans ?_ (modifyTap _ _ _)
  exact (hreplace _ _).from_eq rfl rfl rfl

/-- What was seen of the host goes to the journal. -/
theorem observe {α : Type} {stamp : Stamp} {x : Report σ α}
    (hx : P r.host → P x.after ∧ ∀ e ∈ x.entries, e.request? = none) :
    Undisturbed P r (r.observe stamp x) :=
  ⟨rfl, fun h => (hx h).1, fun h => Journal.requests_recordAll (hx h).2 stamp r.journal⟩

theorem noteFindings (stamp : Stamp) (t : Tap) (r : Responder σ) :
    Undisturbed P r (r.noteFindings stamp t) := by
  dsimp only [Responder.noteFindings]
  split <;> split
  · exact (note _ _ r).trans ((note _ _ _).trans (note _ _ _))
  · exact (note _ _ r).trans (note _ _ _)
  · exact (note _ _ r).trans (note _ _ _)
  · exact note _ _ r

theorem deregister (now : Nat) (id : TapId) (name : Bytes) (code : ErrorCode) (r : Responder σ) :
    Undisturbed P r (r.deregister now id name code) := by
  dsimp only [Responder.deregister]
  generalize (if code = .canceled then Notice.tapClosed name else .tapExited name code) = n
  refine (note ⟨now, some id⟩ n r).trans ?_
  split
  · exact of_eq rfl rfl rfl
  · exact refl _

variable [Host σ] (hP : Secluded P)

include hP

theorem build (now : Nat) (i : Int32) (r : Responder σ) : Undisturbed P r (r.build now i).1 := by
  have hlink : Undisturbed P r (r.observe ⟨now, none⟩ (Host.lookUp i r.host)) :=
    observe fun h => hP.lookUp h i
  dsimp only [Responder.build]
  split
  · exact hlink.trans (note _ _ _)
  · refine hlink.trans ?_
    generalize r.observe ⟨now, none⟩ (Host.lookUp i r.host) = q
    have hroutes : Undisturbed P q (q.observe ⟨now, none⟩ (Host.listRoutes q.host)) :=
      observe hP.listRoutes
    refine hroutes.trans ?_
    split
    · exact refl _
    · exact note _ _ _
    · rename_i l _ _ s _
      refine (note ⟨now, none⟩ (.hostRoutes l.name s.hosts) _).trans ?_
      refine (note ⟨now, none⟩ (.subnetRoutes l.name s.subnets) _).trans ?_
      split
      · exact refl _
      · exact noteFindings _ _ _

theorem add (now : Nat) (i : Int32) (r : Responder σ) : Undisturbed P r (r.add now i).1 := by
  have hb := build hP now i r
  rw [Responder.add_eq]
  split <;> rename_i heq <;> rw [heq] at hb
  · exact hb.trans (install now i _ _)
  · exact hb.trans (of_eq rfl rfl rfl)
  · exact hb.trans (note _ _ _)
  · exact hb.trans (note _ _ _)

theorem processLink (now : Nat) (m : Netlink.Message) (r : Responder σ) :
    Undisturbed P r (r.processLink now m) := by
  dsimp only [Responder.processLink, Factory.processLink]
  split
  · exact refl r
  · split
    · exact refl r
    · split
      · exact note _ _ r
      · split
        · exact (note _ _ r).trans (close _ _)
        · split
          · exact refl r
          · exact (note _ _ r).trans (add hP now _ _)

theorem processMessage (now : Nat) (m : Netlink.Message) (r : Responder σ) :
    Undisturbed P r (r.processMessage now m) := by
  dsimp only [Responder.processMessage, Factory.processMessage]
  split
  · exact processLink hP now m r
  · split
    · split
      · exact refl r
      · exact note _ _ r
    · split
      · exact note _ _ r
      · exact refl r

/-- What is done about messages. -/
theorem processAll (now : Nat) (ms : List Netlink.Message) (r : Responder σ) :
    Undisturbed P r (r.processAll now ms) := by
  unfold Responder.processAll Factory.processAll
  induction ms generalizing r with
  | nil => exact refl r
  | cons m ms ih =>
    rw [List.foldl_cons]
    refine Undisturbed.trans ?_ (ih _)
    split
    · exact refl r
    · exact processMessage hP now m r

theorem processBuffer (now : Nat) (buffer : Bytes) (count : Nat) (r : Responder σ) :
    Undisturbed P r (r.processBuffer now buffer count) :=
  (processAll hP now (Netlink.Message.inBuffer buffer count) r).trans (comeBack _ _)

theorem perform (now : Nat) (id : TapId) (a : Advertiser) (e : Advertiser.Effect)
    (r : Responder σ) : Undisturbed P r (Responder.perform now id a r e) := by
  have of_report {stamp : Stamp} {x : List Entry × σ} (hx : P r.host → P x.2 ∧
      ∀ e ∈ x.1, e.request? = none) :
      Undisturbed P r { r with journal := r.journal.recordAll stamp x.1, host := x.2 } :=
    ⟨rfl, fun h => (hx h).1, fun h => Journal.requests_recordAll (hx h).2 _ _⟩
  cases e with
  | note n => exact note _ n r
  | dial => exact of_report fun h => hP.dial h _
  | call c fault =>
    cases hc : a.connection with
    | none => simpa [Responder.perform, Advertiser.Effect.perform, hc] using refl r
    | some x =>
      have hcall : Undisturbed P r { r with
          journal := r.journal.recordAll ⟨now, some id⟩ (Medium.call x c fault r.host).1
          host := (Medium.call x c fault r.host).2 } := of_report fun h => hP.call h x c fault
      simpa [Responder.perform, Advertiser.Effect.perform, hc] using hcall
  | armed => exact of_eq rfl rfl rfl
  | exit x code =>
    have hexit : Undisturbed P r
        { r with journal := r.journal.record ⟨now, some id⟩ (.exit x code) } :=
      of_eq rfl rfl ((Journal.requests_record ..).trans (List.append_nil _))
    cases x with
    | numbered | announce => exact hexit
    | deregister => exact hexit.trans (deregister now id _ code _)

/-- A turn of a tap. -/
theorem stepTap (now : Nat) (id : TapId) (r : Responder σ) :
    Undisturbed P r (r.stepTap now id) := by
  have hall (a : Advertiser) (es : List Advertiser.Effect) (q : Responder σ) :
      Undisturbed P q (es.foldl (Responder.perform now id a) q) := by
    induction es generalizing q with
    | nil => exact refl q
    | cons e es ih => exact (perform hP now id a e q).trans (ih _)
  unfold Responder.stepTap
  split
  · exact refl r
  · split
    · exact refl r
    · exact (hall _ _ _).from_eq rfl rfl rfl

end Undisturbed

end Responder

end RouterAdvert
