import RouterAdvert.Bench
import RouterAdvert.Pattern
import RouterAdvert.Proofs.Responder.Kept
import RouterAdvert.Proofs.Responder.Orderly

/-! What the registry owes to the messages about links. Only a link with a selected name counts: its
announcement can put a tap into service, and its removal takes the tap out of service. A removal
under another name, such as that of a link renamed meanwhile, is passed over like any other message
under that name. -/
namespace RouterAdvert

namespace Netlink.LinkMessage

/-- Whether a message describes this link, under a name that is selected. -/
def Counts (selects : Bytes → Bool) (m : Message) (l : Link) : Prop :=
  decode? m = some l ∧ l.name ≠ [] ∧ selects l.name = true

def Announces (selects : Bytes → Bool) (i : Int32) (m : Message) : Prop :=
  m.type = Message.newLink ∧ ∃ l, Counts selects m l ∧ l.index = i

def Removes (selects : Bytes → Bool) (i : Int32) (m : Message) : Prop :=
  m.type = Message.delLink ∧ ∃ l, Counts selects m l ∧ l.index = i

theorem type_of_decode? {m : Message} {l : Link} (h : decode? m = some l) :
    m.type = Message.newLink ∨ m.type = Message.delLink := by
  unfold decode? at h
  split at h
  · rename_i hm
    exact hm.1
  · cases h

end Netlink.LinkMessage

namespace Responder

open Netlink LinkMessage

variable {σ : Type} {r : Responder σ}

theorem check_eq_true {i : Int32} : r.check i = true ↔ ∃ id, r.registry.get? i = some id := by
  rw [check, Table.contains, Option.isSome_iff_exists]

theorem check_close {i j : Int32} : (r.close i).check j = true ↔ r.check j = true ∧ j ≠ i := by
  simp only [check_eq_true, (Orderly.frame_close i r).1, exists_and_right]

theorem get?_modifyTap_self (id : TapId) (f : Advertiser → Advertiser) (r : Responder σ) :
    (r.modifyTap id f).taps.get? id =
      (r.taps.get? id).map fun t => { t with advertiser := f t.advertiser } := by
  cases h : r.taps.get? id with
  | none => simp [modifyTap, h]
  | some t =>
    rw [modifyTap_of_some h]
    exact Table.get?_insert_self ..

theorem selects_modifyTap (id : TapId) (f : Advertiser → Advertiser) (r : Responder σ) :
    (r.modifyTap id f).selects = r.selects := by
  unfold modifyTap
  split <;> rfl

theorem selects_close (i : Int32) (r : Responder σ) : (r.close i).selects = r.selects := by
  unfold close
  split
  · rfl
  · exact selects_modifyTap ..

theorem selects_install (now : Nat) (i : Int32) (t : Tap) (r : Responder σ) :
    (r.install now i t).selects = r.selects := by
  rw [Orderly.install_eq, selects_modifyTap]
  cases r.registry.get? i with
  | none => rfl
  | some p => exact selects_modifyTap p .cancel _

variable [Host σ]

/-- Handles messages, each at its own time. -/
def hear (ms : List (Nat × Message)) (r : Responder σ) : Responder σ :=
  ms.foldl (fun r x => r.processMessage x.1 x.2) r

/-- When the program has ended, messages are not handled any more. -/
theorem processAll_of_halt {now : Nat} (h : r.halt.isSome = true) (ms : List Message) :
    r.processAll now ms = r := by
  unfold processAll Factory.processAll
  induction ms with
  | nil => rfl
  | cons m ms ih => rwa [List.foldl_cons, if_pos h]

/-- What a message about a link can do. -/
inductive Heard (now : Nat) (m : Message) (r : Responder σ) : Responder σ → Prop
  | removed {l : Link} (hl : Counts r.selects m l) (hm : m.type = Message.delLink) :
    Heard now m r (r.note ⟨now, none⟩ (.linkRemoved l.name l.index) |>.close l.index)
  | appeared {l : Link} (hl : Counts r.selects m l) (hm : m.type = Message.newLink)
    (hc : r.check l.index = false) :
    Heard now m r (r.note ⟨now, none⟩ (.linkAppeared l.name l.index) |>.add now l.index).1
  | ignored (j : Journal)
    (h : ∀ l, Counts r.selects m l → m.type = Message.newLink ∧ r.check l.index = true) :
    Heard now m r { r with journal := j }

theorem heard_processLink (now : Nat) (m : Message) (r : Responder σ) :
    Heard now m r (r.processLink now m) := by
  dsimp only [processLink, Factory.processLink]
  split
  · rename_i hd
    exact .ignored r.journal fun l hl => by simp [hl.1] at hd
  · rename_i l hd
    have hsame (x : Link) (hx : Counts r.selects m x) : x = l :=
      Option.some.inj (hx.1.symm.trans hd)
    split
    · rename_i hn
      exact .ignored r.journal fun x hx => absurd (hsame x hx ▸ hn) hx.2.1
    · rename_i hn
      split
      · rename_i hs
        refine .ignored _ fun x hx => ?_
        rw [← hsame x hx, hx.2.2] at hs
        simp at hs
      · rename_i hs
        have hl : Counts r.selects m l := ⟨hd, hn, by simpa using hs⟩
        split
        · rename_i hm
          exact .removed hl hm
        · rename_i hm
          have hm : m.type = Message.newLink := (type_of_decode? hd).resolve_right hm
          split
          · rename_i hc
            exact .ignored r.journal fun x hx => hsame x hx ▸ ⟨hm, hc⟩
          · rename_i hc
            exact .appeared hl hm (Bool.eq_false_iff.mpr hc)

theorem heard_processMessage (now : Nat) (m : Message) (r : Responder σ) :
    Heard now m r (r.processMessage now m) := by
  dsimp only [processMessage, Factory.processMessage]
  split
  · exact heard_processLink now m r
  · rename_i hm
    have hnone (l : Link) (hl : Counts r.selects m l) :
        m.type = Message.newLink ∧ r.check l.index = true := absurd (type_of_decode? hl.1) hm
    split
    · split
      · exact .ignored r.journal hnone
      · exact .ignored _ hnone
    · split
      · exact .ignored _ hnone
      · exact .ignored r.journal hnone

/-- Whether an interface would be served now. -/
def Obtains (now : Nat) (i : Int32) (r : Responder σ) : Prop := ∃ t, (r.build now i).2 = .ok t

theorem obtains_note {now : Nat} {i : Int32} (stamp : Stamp) (n : Notice) :
    (r.note stamp n).Obtains now i ↔ r.Obtains now i := by
  have hb : ((r.note stamp n).build now i).2 = (r.build now i).2 := by
    dsimp only [build, note, observe]
    split
    · rfl
    · split
      · rfl
      · rfl
      · split <;> rfl
  rw [Obtains, hb, Obtains]

theorem check_add {now : Nat} {i j : Int32} :
    (r.add now i).1.check j = true ↔ r.check j = true ∨ r.Obtains now i ∧ j = i := by
  obtain ⟨ha, -⟩ := r.build_spec now i
  rw [add_eq, Obtains]
  cases hr : r.build now i with
  | mk q x =>
    rw [hr] at ha
    have hq : q.registry = r.registry := ha.registry
    cases x with
    | ok t =>
      simp [check, (Orderly.frame_install now i t q).1, hq, Table.contains,
        Table.isSome_get?_insert_iff, or_comm]
    | error o =>
      cases o with
      | impossibleRoute => simp [check, hq]
      | refused e => cases e <;> simp [check, hq, note]

/-- The interfaces in service after a message: those it does not remove, and the one it announces,
if that can be served. -/
theorem Heard.check_iff {now : Nat} {m : Message} {r' : Responder σ} (h : Heard now m r r')
    {i : Int32} :
    r'.check i = true ↔
      r.check i = true ∧ ¬Removes r.selects i m ∨ Announces r.selects i m ∧ r.Obtains now i := by
  have hkinds : Message.newLink ≠ Message.delLink := by decide
  cases h with
  | @removed l hl hm =>
    have hsame : Removes r.selects i m ↔ i = l.index := by
      refine ⟨fun ⟨_, x, hx, hxi⟩ => ?_, fun hi => ⟨hm, l, hl, hi.symm⟩⟩
      rw [← hxi, Option.some.inj (hx.1.symm.trans hl.1)]
    have hn : ¬Announces r.selects i m := fun ha => hkinds (ha.1.symm.trans hm)
    rw [check_close, hsame]
    simp [hn, check, note]
  | @appeared l hl hm =>
    have hsame : Announces r.selects i m ↔ i = l.index := by
      refine ⟨fun ⟨_, x, hx, hxi⟩ => ?_, fun hi => ⟨hm, l, hl, hi.symm⟩⟩
      rw [← hxi, Option.some.inj (hx.1.symm.trans hl.1)]
    have hn : ¬Removes r.selects i m := fun hr => hkinds (hm.symm.trans hr.1)
    rw [check_add, obtains_note, hsame]
    simp only [check, note, hn, not_false_iff, and_true]
    refine or_congr_right ⟨fun ⟨ho, hi⟩ => ⟨hi, hi ▸ ho⟩, fun ⟨hi, ho⟩ => ⟨hi ▸ ho, hi⟩⟩
  | ignored j h =>
    have hn : ¬Removes r.selects i m := fun ⟨hd, l, hl, _⟩ => hkinds ((h l hl).1.symm.trans hd)
    refine ⟨fun hc => Or.inl ⟨hc, hn⟩, fun hc => ?_⟩
    rcases hc with hc | ⟨⟨-, l, hl, rfl⟩, -⟩
    · exact hc.1
    · exact (h l hl).2

theorem selects_build (now : Nat) (i : Int32) (r : Responder σ) :
    (r.build now i).1.selects = r.selects := by
  dsimp only [build]
  split
  · rfl
  · split
    · rfl
    · rfl
    · split
      · rfl
      · dsimp only [noteFindings]
        split <;> split <;> rfl

theorem selects_add (now : Nat) (i : Int32) (r : Responder σ) :
    (r.add now i).1.selects = r.selects := by
  have hb := selects_build now i r
  rw [add_eq]
  split <;> rename_i hx <;> rw [hx] at hb
  · exact (selects_install ..).trans hb
  all_goals exact hb

theorem Heard.selects {now : Nat} {m : Message} {r' : Responder σ} (h : Heard now m r r') :
    r'.selects = r.selects := by
  cases h with
  | removed => exact selects_close _ _
  | appeared => exact selects_add _ _ _
  | ignored => rfl

theorem selects_hear (ms : List (Nat × Message)) (r : Responder σ) :
    (r.hear ms).selects = r.selects := by
  induction ms generalizing r with
  | nil => rfl
  | cons x ms ih => exact (ih _).trans (heard_processMessage ..).selects

/-- An interface in service was in service before or has been announced, and has not been removed
since; only names that are selected count. -/
theorem announced_of_check {ms : List (Nat × Message)} {i : Int32}
    (hc : (r.hear ms).check i = true) :
    r.check i = true ∧ (∀ x ∈ ms, ¬Removes r.selects i x.2) ∨
      ∃ before x after, ms = before ++ x :: after ∧ Announces r.selects i x.2 ∧
        ∀ y ∈ after, ¬Removes r.selects i y.2 := by
  induction ms generalizing r with
  | nil => exact Or.inl ⟨hc, by simp⟩
  | cons x ms ih =>
    have hh := heard_processMessage x.1 x.2 r
    have hrest := ih (r := r.processMessage x.1 x.2) hc
    rw [hh.selects] at hrest
    rcases hrest with ⟨hi, hn⟩ | ⟨before, y, after, rfl, hy, hn⟩
    · rcases hh.check_iff.mp hi with ⟨hi, hx⟩ | ⟨hx, -⟩
      · exact Or.inl ⟨hi, List.forall_mem_cons.mpr ⟨hx, hn⟩⟩
      · exact Or.inr ⟨[], x, ms, rfl, hx, hn⟩
    · exact Or.inr ⟨x :: before, y, after, rfl, hy, hn⟩

/-- What a removal does: under a selected name it closes the interface, otherwise nothing. -/
theorem processLink_of_removal {m : Message} {l : Link} (hd : decode? m = some l)
    (hm : m.type = Message.delLink) (now : Nat) (r : Responder σ) :
    Counts r.selects m l ∧
        r.processLink now m = (r.note ⟨now, none⟩ (.linkRemoved l.name l.index)).close l.index ∨
      ¬Counts r.selects m l ∧ ∃ j, r.processLink now m = { r with journal := j } := by
  have hkinds : Message.newLink ≠ Message.delLink := by decide
  have hh := heard_processLink now m r
  generalize r.processLink now m = q at hh
  cases hh with
  | @removed x hx =>
    obtain rfl := Option.some.inj (hd.symm.trans hx.1)
    exact Or.inl ⟨hx, rfl⟩
  | appeared _ hn => exact absurd (hn.symm.trans hm) hkinds
  | ignored j h => exact Or.inr ⟨fun hl => hkinds ((h l hl).1.symm.trans hm), j, rfl⟩

/-- After a removal under a selected name the interface is not in service, and its tap is canceled.
A removal under another name, or under none, leaves the interface as it was. What is in service at
any time was announced and has not been removed since, both under selected names. -/
theorem check_after_removal (h : r.registry = .empty) (ms : List (Nat × Message)) (now : Nat)
    {m : Message} {l : Link} (hd : decode? m = some l) (hm : m.type = Message.delLink) :
    (((r.hear ms).processLink now m).check l.index = true ↔
      (r.hear ms).check l.index = true ∧ ¬(l.name ≠ [] ∧ r.selects l.name = true)) ∧
    (l.name ≠ [] ∧ r.selects l.name = true → ∀ id, (r.hear ms).get? l.index = some id →
      ((r.hear ms).processLink now m).taps.get? id =
        ((r.hear ms).taps.get? id).map fun t => { t with advertiser := t.advertiser.cancel }) ∧
    (∀ i, i ≠ l.index → ((r.hear ms).processLink now m).get? i = (r.hear ms).get? i) ∧
    ∀ i, (r.hear ms).check i = true → ∃ before x after, ms = before ++ x :: after ∧
      Announces r.selects i x.2 ∧ ∀ y ∈ after, ¬Removes r.selects i y.2 := by
  have hs := selects_hear ms r
  have hannounced (i : Int32) (hc : (r.hear ms).check i = true) :
      ∃ before x after, ms = before ++ x :: after ∧ Announces r.selects i x.2 ∧
        ∀ y ∈ after, ¬Removes r.selects i y.2 := by
    refine (announced_of_check hc).resolve_left fun ⟨hi, _⟩ => ?_
    rw [check, h] at hi
    cases hi
  rcases processLink_of_removal hd hm now (r.hear ms) with ⟨hl, he⟩ | ⟨hl, j, he⟩
  · rw [hs] at hl
    rw [he]
    refine ⟨?_, fun _ id hid => ?_, fun i hi => ?_, hannounced⟩
    · rw [check_close]
      simp [hl.2.1, hl.2.2]
    · have hid : ((r.hear ms).note ⟨now, none⟩ (.linkRemoved l.name l.index)).registry.get?
          l.index = some id := hid
      rw [Orderly.close_of_some hid]
      exact get?_modifyTap_self id .cancel _
    · refine Option.ext fun id => ((Orderly.frame_close l.index _).1 i id).trans ?_
      exact and_iff_left hi
  · have hl : ¬(l.name ≠ [] ∧ r.selects l.name = true) := fun hn => hl ⟨hd, hs ▸ hn⟩
    rw [he]
    exact ⟨(and_iff_left hl).symm, fun hn => absurd hn hl, fun _ _ => rfl, hannounced⟩

/-- A message about a link as the kernel sends it. -/
def linkMessage (type : UInt16) (i : Int32) (name : Bytes) : Message :=
  ⟨encode type 0 { index := i, name := name }⟩

/-- A responder for the interfaces whose names begin with "tap". -/
def attentive : Responder Bench where
  host := { Bench.addLink { index := 5, name := "tap5" } {} with
    routes := [{ interface := 5, table := 254 }] }
  timing := {}
  selects := fun name => (Pattern.compile? "^tap").any (·.search name)

/-- The removal of a link that was announced under the same name. -/
theorem check_after_removal_of_tap :
    (attentive.hear [(0, linkMessage Message.newLink 5 "tap5")]).check 5 = true ∧
      ((attentive.hear [(0, linkMessage Message.newLink 5 "tap5")]).processLink 7
        (linkMessage Message.delLink 5 "tap5")).check 5 = false := by
  have hd : decode? (linkMessage Message.delLink 5 "tap5") =
      some { index := 5, name := "tap5" } := by decide +kernel
  obtain ⟨hc, -⟩ := check_after_removal (r := attentive) rfl
    [(0, linkMessage Message.newLink 5 "tap5")] 7 hd (by decide +kernel)
  refine ⟨by decide +kernel, Bool.eq_false_iff.mpr fun ht => (hc.mp ht).2 ?_⟩
  exact ⟨by decide, by decide +kernel⟩

/-- The removal of a link that has another name by now. -/
theorem in_service_after_removal :
    decode? (linkMessage Message.delLink 5 "eth5") = some { index := 5, name := "eth5" } ∧
      (linkMessage Message.delLink 5 "eth5").type = Message.delLink ∧
      ((attentive.hear [(0, linkMessage Message.newLink 5 "tap5")]).processLink 7
        (linkMessage Message.delLink 5 "eth5")).check 5 = true := by
  decide +kernel

end Responder

end RouterAdvert
