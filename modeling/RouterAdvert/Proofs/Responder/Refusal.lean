import RouterAdvert.Proofs.Responder.Snapshot

/-! Interfaces that cannot be served. Whatever stands in the way of a tap, nothing comes of the
attempt but the questions that were asked on the way there and what is said about them: all taps,
those who wait for a turn and the alarms stay as they are. -/
namespace RouterAdvert

namespace Journal

/-- What is seen of some questions, then what is said about them. -/
def told (stamp : Stamp) (asked : List Entry) (said : List Notice) (j : Journal) : Journal :=
  said.foldl (fun j n => j.note stamp n) (j.recordAll stamp asked)

theorem recordAll_append (stamp : Stamp) (es more : List Entry) (j : Journal) :
    j.recordAll stamp (es ++ more) = (j.recordAll stamp es).recordAll stamp more :=
  List.foldl_append

theorem told_append (stamp : Stamp) (asked : List Entry) (said more : List Notice) (j : Journal) :
    j.told stamp asked (said ++ more) =
      more.foldl (fun j n => j.note stamp n) (j.told stamp asked said) :=
  List.foldl_append

/-- What is written does not change what is written next, and where. -/
theorem settings_told (stamp : Stamp) (asked : List Entry) (said : List Notice) (j : Journal) :
    (j.told stamp asked said).threshold = j.threshold ∧
      (j.told stamp asked said).toSystem = j.toSystem := by
  have hasked (es : List Entry) (j : Journal) : (j.recordAll stamp es).threshold = j.threshold ∧
      (j.recordAll stamp es).toSystem = j.toSystem := by
    induction es generalizing j with
    | nil => exact ⟨rfl, rfl⟩
    | cons e es ih => exact ih (j.record stamp e)
  have hnote (n : Notice) (j : Journal) : (j.note stamp n).threshold = j.threshold ∧
      (j.note stamp n).toSystem = j.toSystem := by
    unfold note say
    split <;> exact ⟨rfl, rfl⟩
  have hsaid (j : Journal) : (said.foldl (fun j n => j.note stamp n) j).threshold = j.threshold ∧
      (said.foldl (fun j n => j.note stamp n) j).toSystem = j.toSystem := by
    induction said generalizing j with
    | nil => exact ⟨rfl, rfl⟩
    | cons n said ih =>
      obtain ⟨ht, hs⟩ := ih (j.note stamp n)
      exact ⟨ht.trans (hnote n j).1, hs.trans (hnote n j).2⟩
  obtain ⟨ht, hs⟩ := hsaid (j.recordAll stamp asked)
  exact ⟨ht.trans (hasked asked j).1, hs.trans (hasked asked j).2⟩

/-- What is said last is the newest row, if it reaches the threshold. -/
theorem head?_told (stamp : Stamp) (asked : List Entry) (said : List Notice) {n : Notice}
    {j : Journal} (h : n.severity.reaches j.threshold = true) :
    (j.told stamp asked (said ++ [n])).rows.head? =
      some (stamp, .log j.toSystem n.severity n.text) := by
  obtain ⟨ht, hs⟩ := settings_told stamp asked said j
  have hn : (j.told stamp asked said).isEnabled n.severity = true := by rwa [isEnabled, ht]
  rw [told_append, List.foldl_cons, List.foldl_nil, note, say, if_pos hn, ← hs]
  rfl

end Journal

namespace Responder

variable {σ : Type} [Host σ] {now : Nat} {i : Int32} {r : Responder σ}

/-- What stands in the way of a tap, as a host answers: the link is unknown, the routes cannot be
had, no route of the main table leads through the interface, or one of those is impossible. With it
come the host when it has answered, what is seen of the questions, and what is said at once. -/
inductive Hindered (i : Int32) (host : σ) :
    Tap.Obstacle → σ → List Entry → List Notice → Prop
  | link {e : ErrorCode} (hl : (Host.lookUp i host).answer = .error e) :
    Hindered i host (.refused .unresolved) (Host.lookUp i host).after (Host.lookUp i host).entries
      [.linkMissing i e]
  | routes {l : Link} {e : ErrorCode} (hl : (Host.lookUp i host).answer = .ok l)
    (hr : (Host.listRoutes (Host.lookUp i host).after).answer = .error e) :
    Hindered i host (.refused .uninspected) (Host.listRoutes (Host.lookUp i host).after).after
      ((Host.lookUp i host).entries ++ (Host.listRoutes (Host.lookUp i host).after).entries)
      [.routesFailed l.name e]
  | ineligible {l : Link} {routes : List Route} (hf : Found i host l routes)
    (hn : ∀ x ∈ routes, ¬(x.table = 254 ∧ x.interface = l.index)) :
    Hindered i host (.refused .ineligible) (Host.listRoutes (Host.lookUp i host).after).after
      ((Host.lookUp i host).entries ++ (Host.listRoutes (Host.lookUp i host).after).entries)
      [.hostRoutes l.name [], .subnetRoutes l.name []]
  | impossible {l : Link} {routes : List Route} {x : Route} (hf : Found i host l routes)
    (hx : x ∈ routes) (ht : x.table = 254) (hi : x.interface = l.index) (hlen : 128 < x.length) :
    Hindered i host .impossibleRoute (Host.listRoutes (Host.lookUp i host).after).after
      ((Host.lookUp i host).entries ++ (Host.listRoutes (Host.lookUp i host).after).entries) []

/-- What the registry says of an interface that it does not serve. -/
def refusal (i : Int32) : Tap.Obstacle → List Notice
  | .impossibleRoute => []
  | .refused .ineligible => [.tapIgnored i TapError.ineligible.code]
  | .refused e => [.tapFailed i e.code]

/-- The responder after it has asked and spoken, and has done nothing else. -/
def asking (now : Nat) (after : σ) (asked : List Entry) (said : List Notice) (r : Responder σ) :
    Responder σ :=
  { r with host := after, journal := r.journal.told ⟨now, none⟩ asked said }

/-- Nothing else than asking is done on the way to an obstacle. -/
theorem Hindered.build {o : Tap.Obstacle} {after : σ} {asked : List Entry} {said : List Notice}
    (h : Hindered i r.host o after asked said) (now : Nat) :
    r.build now i = (r.asking now after asked said, .error o) := by
  cases h with
  | link hl => simp [Responder.build, hl, observe, note, asking, Journal.told]
  | routes hl hr =>
    simp [Responder.build, hl, hr, observe, note, asking, Journal.told, RouteSet.inspect,
      Journal.recordAll_append]
  | @ineligible l routes hf hn =>
    have hnone : RouteSet.networks l.index routes = [] :=
      List.filterMap_eq_nil_iff.mpr fun x hx =>
        Route.network?_of_not_serves (Bool.eq_false_iff.mpr fun hs =>
          hn x hx (Route.serves_eq_true.mp hs))
    have hs : RouteSet.classify? l.index routes = some {} := by
      refine RouteSet.classify?_eq_some_iff.mpr ⟨fun x hx hs => ?_, by rw [hnone]; rfl,
        by rw [hnone]; rfl⟩
      exact absurd (Route.serves_eq_true.mp hs) (hn x hx)
    simp [Responder.build, hf.link, hf.routes, observe, note, asking, Journal.told,
      RouteSet.inspect, hs, RouteSet.isEmpty, Journal.recordAll_append]
  | impossible hf hx ht hi hlen =>
    have hs := RouteSet.classify?_eq_none_iff.mpr ⟨_, hx, Route.serves_eq_true.mpr ⟨ht, hi⟩, hlen⟩
    simp [Responder.build, hf.link, hf.routes, observe, asking, Journal.told, RouteSet.inspect, hs,
      Journal.recordAll_append]

/-- Where no tap can be made, something stands in the way. -/
theorem exists_hindered {o : Tap.Obstacle} (h : (r.build now i).2 = .error o) :
    ∃ after asked said, Hindered i r.host o after asked said := by
  have of_hindered {o' : Tap.Obstacle} {after : σ} {asked : List Entry} {said : List Notice}
      (hh : Hindered i r.host o' after asked said) :
      ∃ after asked said, Hindered i r.host o after asked said := by
    rw [hh.build now] at h
    obtain rfl := Except.error.inj h
    exact ⟨_, _, _, hh⟩
  cases hl : (Host.lookUp i r.host).answer with
  | error e => exact of_hindered (.link hl)
  | ok l =>
    cases hr : (Host.listRoutes (Host.lookUp i r.host).after).answer with
    | error e => exact of_hindered (.routes hl hr)
    | ok routes =>
      by_cases hn : ∀ x ∈ routes, ¬(x.table = 254 ∧ x.interface = l.index)
      · exact of_hindered (.ineligible ⟨hl, hr⟩ hn)
      · obtain ⟨y, hy, hserves⟩ : ∃ y ∈ routes, y.table = 254 ∧ y.interface = l.index := by
          simpa using hn
        by_cases hp : ∀ x ∈ routes, x.table = 254 → x.interface = l.index → x.length ≤ 128
        · obtain ⟨t, ht⟩ := (exists_build_iff (r := r)).mpr
            ⟨l, routes, ⟨hl, hr⟩, ⟨y, hy, hserves⟩, hp⟩
          cases ht.symm.trans h
        · obtain ⟨x, hx, ht, hi, hlen⟩ : ∃ x ∈ routes, x.table = 254 ∧ x.interface = l.index ∧
              128 < x.length := by simpa using hp
          exact of_hindered (.impossible ⟨hl, hr⟩ hx ht hi hlen)

/-- The registry adds nothing but its own message. -/
theorem Hindered.add {o : Tap.Obstacle} {after : σ} {asked : List Entry} {said : List Notice}
    (h : Hindered i r.host o after asked said) (now : Nat) :
    r.add now i =
      ({ r.asking now after asked (said ++ refusal i o) with
          halt := if o = .impossibleRoute then some .failed else r.halt }, false) := by
  have hbuild := h.build now
  cases h with
  | link | routes | ineligible | impossible =>
    simp only [add_eq, hbuild]
    rfl

/-- An attempt fails exactly if no tap can be made. -/
theorem add_eq_false_iff : (r.add now i).2 = false ↔ ∃ o, (r.build now i).2 = .error o := by
  rcases hb : r.build now i with ⟨q, o | t⟩
  · rcases o with (_ | _ | _) | _ <;> simp [add_eq, hb]
  · simp [add_of_build hb]

/-- An attempt to serve an interface fails exactly if the link is unknown, the routes cannot be had,
no route of the main table leads through the interface, or one that does is impossible. Then the
host has been asked and something has been said, and apart from that the responder is as it was,
whatever state it was in: registry, taps, those who wait for a turn, and alarms. Only an impossible
route ends the program. Otherwise the registry says that the interface is not served: as something
to know where the link and the routes are known and no route leads through it, and as an error
where they are not. That is the last thing in the journal, if the threshold admits it. -/
theorem add_fails_alone (r : Responder σ) (now : Nat) (i : Int32) :
    ((r.add now i).2 = false ↔ ∃ o after asked said, Hindered i r.host o after asked said) ∧
    (∀ o, (r.build now i).2 = .error o ↔
      ∃ after asked said, Hindered i r.host o after asked said) ∧
    ∀ o after asked said, Hindered i r.host o after asked said →
      r.add now i =
        ({ r with
            host := after
            journal := r.journal.told ⟨now, none⟩ asked (said ++ refusal i o)
            halt := if o = .impossibleRoute then some .failed else r.halt }, false) ∧
      (∀ n ∈ said, n.severity = .debug) ∧
      ∀ e, o = .refused e → ∃ n, refusal i o = [n] ∧
        n.severity = (if e = .ineligible then .info else .error) ∧
        (n.severity.reaches r.journal.threshold = true →
          (r.add now i).1.journal.rows.head? =
            some (⟨now, none⟩, .log r.journal.toSystem n.severity n.text)) := by
  have hbuild (o : Tap.Obstacle) : (r.build now i).2 = .error o ↔
      ∃ after asked said, Hindered i r.host o after asked said := by
    refine ⟨exists_hindered, ?_⟩
    rintro ⟨after, asked, said, h⟩
    rw [h.build now]
  refine ⟨?_, hbuild, fun o after asked said h => ⟨h.add now, ?_, ?_⟩⟩
  · rw [add_eq_false_iff]
    exact exists_congr hbuild
  · cases h <;> simp [Notice.severity]
  · rintro e rfl
    obtain ⟨n, hn, hseverity⟩ : ∃ n, refusal i (.refused e) = [n] ∧
        n.severity = if e = .ineligible then .info else .error := by
      cases e <;> exact ⟨_, rfl, rfl⟩
    refine ⟨n, hn, hseverity, fun hreaches => ?_⟩
    rw [h.add now, hn]
    exact Journal.head?_told _ asked said hreaches

/-- A tap stays in service when its link is gone and the interface is to be served again. -/
theorem kept_after_unresolved :
    ∃ r : Responder Bench, r.get? 5 = some ⟨5, 0⟩ ∧ (r.add 0 5).2 = false ∧
      (r.add 0 5).1.get? 5 = some ⟨5, 0⟩ ∧ (r.add 0 5).1.taps = r.taps ∧
      (r.add 0 5).1.schedule = r.schedule := by
  let host : Bench := { Bench.addLink { index := 5 } {} with
    routes := [{ length := 128, interface := 5, table := 254 }] }
  let serving : Responder Bench :=
    (Responder.add 0 5 { host := host, timing := {}, selects := fun _ => true }).1
  let r : Responder Bench := { serving with host := {} }
  obtain ⟨-, -, hadd⟩ := add_fails_alone r 0 5
  obtain ⟨he, -⟩ := hadd _ _ _ _ (.link rfl)
  refine ⟨r, by decide +kernel, ?_⟩
  rw [he]
  exact ⟨rfl, by decide +kernel, rfl, rfl⟩

end Responder

end RouterAdvert
