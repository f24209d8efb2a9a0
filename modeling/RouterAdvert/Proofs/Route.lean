import RouterAdvert.Proofs.Address
import RouterAdvert.Route

/-! Which routes of a table count for an interface, and the network that its guests get from them.
-/
namespace RouterAdvert

namespace Route

variable {index : Int32} {r : Route}

theorem serves_eq_true : r.serves index = true ↔ r.table = 254 ∧ r.interface = index := by
  rw [serves, Bool.and_eq_true, decide_eq_true_eq, decide_eq_true_eq, and_comm]
  rfl

/-- Whether a route leads to a single host through interface `index`. -/
def isHost (index : Int32) (r : Route) : Bool := r.serves index && r.length = 128

/-- The network of a route, if the route counts and is possible. -/
def network? (index : Int32) (r : Route) : Option Network :=
  if r.serves index then Network.of? r.destination r.length.toNat else none

theorem network?_of_serves (hs : r.serves index = true) (hl : r.length ≤ 128) :
    r.network? index = some ⟨r.destination, r.length.toNat, hl⟩ := by
  have hl' : r.length.toNat ≤ 128 := hl
  simp [network?, hs, Network.of?, hl']

theorem network?_of_not_serves (hs : r.serves index = false) : r.network? index = none := by
  simp [network?, hs]

theorem le_of_isHost (h : r.isHost index = true) : r.length ≤ 128 := by
  rw [isHost, Bool.and_eq_true, decide_eq_true_eq] at h
  rw [h.2]
  decide

theorem any_network? (index : Int32) (r : Route) :
    (r.network? index).any (·.length = 128) = r.isHost index := by
  cases hs : r.serves index with
  | false => simp [network?_of_not_serves hs, isHost, hs]
  | true =>
    by_cases hl : r.length ≤ 128
    · have hiff : r.length.toNat = 128 ↔ r.length = 128 :=
        ⟨fun hn => UInt8.toNat_inj.mp hn, fun hr => by rw [hr]; rfl⟩
      simp [network?_of_serves hs hl, isHost, hs, hiff]
    · have hl' : ¬r.length.toNat ≤ 128 := hl
      have hh : r.isHost index = false := Bool.eq_false_iff.mpr fun h => hl (le_of_isHost h)
      simp [network?, hs, Network.of?, hl', hh]

end Route

namespace RouteSet

open Route

variable {index : Int32} {routes : List Route} {s t : RouteSet}

/-- The networks of the routes that count for an interface, in the order of the table. -/
def networks (index : Int32) (routes : List Route) : List Network :=
  routes.filterMap (·.network? index)

theorem foldl_add (ns : List Network) (s : RouteSet) :
    ns.foldl add s =
      { hosts := s.hosts ++ ns.filter (·.length = 128)
        subnets := s.subnets ++ ns.filter (·.length ≠ 128) } := by
  induction ns generalizing s with
  | nil => simp
  | cons n ns ih =>
    rw [List.foldl_cons, ih]
    by_cases h : n.length = 128 <;> simp [add, h]

theorem foldlM_eq_some_iff :
    routes.foldlM (fun s r =>
        if r.serves index then (Network.of? r.destination r.length.toNat).map s.add else some s) s =
      some t ↔
      (∀ r ∈ routes, r.serves index = true → r.length ≤ 128) ∧
        (networks index routes).foldl add s = t := by
  induction routes generalizing s with
  | nil => simp [networks]
  | cons r routes ih =>
    rw [List.foldlM_cons, List.forall_mem_cons]
    cases hs : r.serves index with
    | false =>
      have hn : networks index (r :: routes) = networks index routes :=
        List.filterMap_cons_none (network?_of_not_serves hs)
      rw [hn, if_neg (by simp), Option.bind_eq_bind, Option.bind_some, ih]
      simp
    | true =>
      rw [if_pos rfl, Option.bind_eq_bind]
      by_cases hl : r.length ≤ 128
      · have hl' : r.length.toNat ≤ 128 := hl
        have hn : networks index (r :: routes) =
            ⟨r.destination, r.length.toNat, hl'⟩ :: networks index routes :=
          List.filterMap_cons_some (network?_of_serves hs hl)
        rw [hn, Network.of?, dif_pos hl', Option.map_some, Option.bind_some, ih]
        simp [hl]
      · have hl' : ¬r.length.toNat ≤ 128 := hl
        rw [Network.of?, dif_neg hl']
        simp [hl]

/-- Classifying goes through unless a route that counts is impossible, and keeps the order. -/
theorem classify?_eq_some_iff : classify? index routes = some s ↔
    (∀ r ∈ routes, r.serves index = true → r.length ≤ 128) ∧
      s.hosts = (networks index routes).filter (·.length = 128) ∧
      s.subnets = (networks index routes).filter (·.length ≠ 128) := by
  unfold classify?
  rw [foldlM_eq_some_iff, foldl_add]
  refine and_congr_right fun _ => ⟨?_, ?_⟩
  · rintro rfl
    exact ⟨List.nil_append _, List.nil_append _⟩
  · rintro ⟨hh, hs⟩
    rw [← hh, ← hs]
    rfl

theorem classify?_of_forall (h : ∀ r ∈ routes, r.serves index = true → r.length ≤ 128) :
    classify? index routes = some
      { hosts := (networks index routes).filter (·.length = 128)
        subnets := (networks index routes).filter (·.length ≠ 128) } :=
  classify?_eq_some_iff.mpr ⟨h, rfl, rfl⟩

/-- It does not go through if there is an impossible one among those that count. -/
theorem classify?_eq_none_iff : classify? index routes = none ↔
    ∃ r ∈ routes, r.serves index = true ∧ 128 < r.length := by
  constructor
  · intro h
    refine Classical.byContradiction fun hn => ?_
    have hs := classify?_of_forall fun r hr hs =>
      UInt8.not_lt.mp fun hlt => hn ⟨r, hr, hs, hlt⟩
    cases h.symm.trans hs
  · rintro ⟨r, hr, hs, hlt⟩
    refine Option.eq_none_iff_forall_ne_some.mpr fun s h => ?_
    exact UInt8.not_lt.mpr ((classify?_eq_some_iff.mp h).1 r hr hs) hlt

/-- Nothing goes wrong where no route is impossible. -/
theorem isSome_inspect (index : Int32) {answer : Except ErrorCode (List Route)}
    (h : ∀ routes, answer = .ok routes → ∀ r ∈ routes, r.length ≤ 128) (previous : RouteSet) :
    (inspect index answer previous).isSome := by
  cases answer with
  | error e => rfl
  | ok routes =>
    rw [inspect, classify?_of_forall fun r hr _ => h routes rfl r hr]
    rfl

/-- There is something to serve if any route counts. -/
theorem isEmpty_of_classify? (h : classify? index routes = some s) :
    s.isEmpty = false ↔ ∃ r ∈ routes, r.serves index = true := by
  obtain ⟨hl, hh, hs⟩ := classify?_eq_some_iff.mp h
  have hempty : s.isEmpty = true ↔ networks index routes = [] := by
    rw [isEmpty, hh, hs, Bool.and_eq_true, List.isEmpty_iff, List.isEmpty_iff,
      List.filter_eq_nil_iff, List.filter_eq_nil_iff, List.eq_nil_iff_forall_not_mem]
    constructor
    · rintro ⟨hhosts, hsubnets⟩ n hn
      by_cases hx : n.length = 128
      · exact hhosts n hn (by simpa using hx)
      · exact hsubnets n hn (by simpa using hx)
    · exact fun hn => ⟨fun n hx => absurd hx (hn n), fun n hx => absurd hx (hn n)⟩
  rw [← Bool.not_eq_true, hempty, networks, List.filterMap_eq_nil_iff]
  constructor
  · intro hn
    obtain ⟨r, hr, hsome⟩ : ∃ r ∈ routes, r.network? index ≠ none := by simpa using hn
    refine ⟨r, hr, Bool.of_not_eq_false fun hserves => hsome ?_⟩
    exact network?_of_not_serves hserves
  · rintro ⟨r, hr, hserves⟩ hn
    have hnone := hn r hr
    rw [network?_of_serves hserves (hl r hr hserves)] at hnone
    cases hnone

/-- Guests get the /64 around the first host route. -/
theorem advertPrefix?_of_classify? (h : classify? index routes = some s) :
    s.advertPrefix? =
      (routes.find? (·.isHost index)).map fun r =>
        Network.base ⟨r.destination, 64, by decide⟩ := by
  obtain ⟨-, hh, -⟩ := classify?_eq_some_iff.mp h
  rw [advertPrefix?, hh, List.head?_filter, networks, List.find?_filterMap]
  simp only [any_network?]
  cases hf : routes.find? (·.isHost index) with
  | none => rfl
  | some r =>
    have hr : r.isHost index = true := List.find?_some hf
    have hserves : r.serves index = true := (Bool.and_eq_true_iff.mp hr).1
    rw [Option.bind_some, network?_of_serves hserves (le_of_isHost hr)]
    rfl

end RouteSet

end RouterAdvert
