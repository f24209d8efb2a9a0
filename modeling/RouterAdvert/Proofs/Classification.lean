import RouterAdvert.Proofs.Route

/-! Routing tables sorted for one interface. The result is what the table says about that interface
in its main table, in the same order and unabridged; everything else in the table might as well not
be there. -/
namespace RouterAdvert

namespace Network

/-- What a network is about: its address with all host bits, and its length. -/
def stated (n : Network) : Address × Nat := (n.address, n.length)

end Network

namespace Route

/-- What a route says about where it leads. -/
def stated (r : Route) : Address × Nat := (r.destination, r.length.toNat)

theorem stated_network? {index : Int32} {r : Route} :
    (r.network? index).map Network.stated =
      if r.serves index ∧ r.length ≤ 128 then some r.stated else none := by
  cases hs : r.serves index with
  | false => simp [network?_of_not_serves hs]
  | true =>
    by_cases hl : r.length ≤ 128
    · simp [network?_of_serves hs hl, hl, Network.stated, stated]
    · have hl' : ¬r.length.toNat ≤ 128 := hl
      simp [network?, hs, Network.of?, hl, hl']

end Route

namespace RouteSet

variable {index : Int32} {routes a b : List Route} {s : RouteSet}

/-- The routes of one set, then those of another. -/
def append (s t : RouteSet) : RouteSet :=
  { hosts := s.hosts ++ t.hosts, subnets := s.subnets ++ t.subnets }

theorem map_stated_networks (index : Int32) (routes : List Route) :
    (networks index routes).map Network.stated =
      (routes.filter fun r => r.serves index ∧ r.length ≤ 128).map Route.stated := by
  unfold networks
  rw [List.map_filterMap]
  simp only [Route.stated_network?]
  induction routes with
  | nil => rfl
  | cons r routes ih =>
    by_cases h : r.serves index ∧ r.length ≤ 128 <;> simp [h, ih]

/-- Sorted out by their length, they are what the routes of these lengths say. -/
theorem map_stated_filter {p : Nat → Bool} (hp : ∀ n, p n = true → n ≤ 128) :
    ((networks index routes).filter fun n => p n.length).map Network.stated =
      (routes.filter fun r => r.serves index && p r.length.toNat).map Route.stated := by
  have hn := List.filter_map (f := Network.stated) (p := fun x => p x.2)
    (l := networks index routes)
  have hr := List.filter_map (f := Route.stated) (p := fun x => p x.2)
    (l := routes.filter fun r => r.serves index ∧ r.length ≤ 128)
  rw [map_stated_networks, hr, List.filter_filter] at hn
  refine hn.symm.trans (congrArg (List.map Route.stated) (List.filter_congr fun r _ => ?_))
  have hle : p r.length.toNat = true → r.length ≤ 128 := hp r.length.toNat
  by_cases h : p r.length.toNat = true
  · simp [Route.stated, h, hle h]
  · simp [Route.stated, h]

theorem networks_append (index : Int32) (a b : List Route) :
    networks index (a ++ b) = networks index a ++ networks index b :=
  List.filterMap_append

theorem networks_filter (index : Int32) (routes : List Route) :
    networks index (routes.filter (·.serves index)) = networks index routes := by
  unfold networks
  rw [List.filterMap_filter]
  refine congrArg (List.filterMap · routes) (funext fun r => ?_)
  cases hs : r.serves index with
  | false => exact (Route.network?_of_not_serves hs).symm
  | true => rfl

/-- One table behind another is sorted like each of them. -/
theorem classify?_append (index : Int32) (a b : List Route) :
    classify? index (a ++ b) =
      (classify? index a).bind fun s => (classify? index b).map s.append := by
  cases ha : classify? index a with
  | none =>
    obtain ⟨r, hr, hbad⟩ := classify?_eq_none_iff.mp ha
    exact classify?_eq_none_iff.mpr ⟨r, List.mem_append_left b hr, hbad⟩
  | some s =>
    cases hb : classify? index b with
    | none =>
      obtain ⟨r, hr, hbad⟩ := classify?_eq_none_iff.mp hb
      exact classify?_eq_none_iff.mpr ⟨r, List.mem_append_right a hr, hbad⟩
    | some t =>
      obtain ⟨hla, hha, hsa⟩ := classify?_eq_some_iff.mp ha
      obtain ⟨hlb, hhb, hsb⟩ := classify?_eq_some_iff.mp hb
      refine classify?_eq_some_iff.mpr ⟨fun r hr => ?_, ?_, ?_⟩
      · exact (List.mem_append.mp hr).elim (hla r) (hlb r)
      · rw [networks_append, List.filter_append, ← hha, ← hhb]
        rfl
      · rw [networks_append, List.filter_append, ← hsa, ← hsb]
        rfl

/-- Routes that do not count can be left out. -/
theorem classify?_filter (index : Int32) (routes : List Route) :
    classify? index (routes.filter (·.serves index)) = classify? index routes := by
  refine Option.ext fun s => ?_
  rw [classify?_eq_some_iff, classify?_eq_some_iff, networks_filter]
  refine and_congr_left fun _ => ⟨fun h r hr hs => ?_, fun h r hr => ?_⟩
  · exact h r (List.mem_filter.mpr ⟨hr, hs⟩) hs
  · exact h r (List.mem_filter.mp hr).1

/-- The /64 around the first host route, if there is one. -/
theorem advertPrefix?_spec (s : RouteSet) :
    (s.advertPrefix? = none ↔ s.hosts = []) ∧
      ∀ n, s.hosts.head? = some n → ∃ network, s.advertPrefix? = some network ∧
        ∀ i < 128, network.bit i = (decide (i < 64) && n.address.bit i) := by
  unfold advertPrefix?
  refine ⟨by rw [Option.map_eq_none_iff, List.head?_eq_none_iff], fun n hn => ?_⟩
  rw [hn]
  exact ⟨_, rfl, fun i hi => Network.bit_base ⟨n.address, 64, by decide⟩ hi⟩

/-- Sorting a table for an interface fails exactly if a route of the main table through it is
impossible. Otherwise the host routes are those of length 128 and the subnet routes those below, as
the table has them and in its order, and guests get the network around the first host route. A table
in two parts is sorted part by part, and tables that differ only in routes of other interfaces or
other tables, or in where these stand, are sorted alike. A failed question leaves what was there. -/
theorem classify?_sorts (index : Int32) (routes : List Route) :
    (classify? index routes = none ↔
      ∃ r ∈ routes, r.interface = index ∧ r.table = 254 ∧ 128 < r.length) ∧
    (∀ s, classify? index routes = some s →
      s.hosts.map Network.stated =
        (routes.filter fun r => r.interface = index ∧ r.table = 254 ∧ r.length = 128).map
          Route.stated ∧
      s.subnets.map Network.stated =
        (routes.filter fun r => r.interface = index ∧ r.table = 254 ∧ r.length < 128).map
          Route.stated ∧
      (s.advertPrefix? = none ↔ s.hosts = []) ∧
      ∀ n, s.hosts.head? = some n → ∃ network, s.advertPrefix? = some network ∧
        ∀ i < 128, network.bit i = (decide (i < 64) && n.address.bit i)) ∧
    (∀ more, classify? index (routes ++ more) =
      (classify? index routes).bind fun s => (classify? index more).map s.append) ∧
    (∀ others : List Route,
      (others.filter fun r => r.interface = index ∧ r.table = 254) =
        (routes.filter fun r => r.interface = index ∧ r.table = 254) →
      classify? index others = classify? index routes) ∧
    ∀ previous,
      (∀ e, inspect index (.error e) previous = some (previous, some e)) ∧
      inspect index (.ok routes) previous = (classify? index routes).map fun s => (s, none) := by
  have hserves (r : Route) : r.serves index = decide (r.interface = index ∧ r.table = 254) :=
    (Bool.decide_and _ _).symm
  refine ⟨?_, fun s hs => ?_, classify?_append index routes, fun others h => ?_,
    fun previous => ⟨fun e => rfl, rfl⟩⟩
  · simp only [classify?_eq_none_iff, hserves, decide_eq_true_eq, and_assoc]
  · obtain ⟨-, hh, hn⟩ := classify?_eq_some_iff.mp hs
    have hl : ∀ n ∈ networks index routes, n.length ≠ 128 ↔ n.length < 128 := fun n _ =>
      ⟨fun hne => Nat.lt_of_le_of_ne n.length_le hne, Nat.ne_of_lt⟩
    refine ⟨?_, ?_, advertPrefix?_spec s⟩
    · rw [hh, map_stated_filter (p := (· = 128)) (by simp)]
      simp [hserves, ← UInt8.toNat_inj, Bool.and_assoc]
    · rw [hn, List.filter_congr fun n hmem => decide_eq_decide.mpr (hl n hmem),
        map_stated_filter (p := (· < 128)) (by simp; omega)]
      simp [hserves, UInt8.lt_iff_toNat_lt, Bool.and_assoc]
  · rw [← classify?_filter index others, ← classify?_filter index routes]
    simp only [hserves, h]

/-- A table with a host route that is listed twice, a subnet route, an impossible route through
another interface, and a route of another table between them. -/
def sampleTable : List Route :=
  [{ destination := ⟨Vector.replicate 16 7⟩, length := 128, interface := 5, table := 254 },
    { length := 200, interface := 6, table := 254 },
    { destination := ⟨Vector.replicate 16 7⟩, length := 64, interface := 5, table := 254 },
    { length := 128, interface := 5, table := 255 },
    { destination := ⟨Vector.replicate 16 7⟩, length := 128, interface := 5, table := 254 }]

theorem classify?_sorts_sampleTable :
    ∃ s, classify? 5 sampleTable = some s ∧
      s.hosts.map Network.stated =
        [(⟨Vector.replicate 16 7⟩, 128), (⟨Vector.replicate 16 7⟩, 128)] ∧
      s.subnets.map Network.stated = [(⟨Vector.replicate 16 7⟩, 64)] ∧
      (∃ network, s.advertPrefix? = some network ∧
        network.toBytes = List.replicate 8 7 ++ List.replicate 8 0) ∧
      classify? 5 (sampleTable.filter (·.table = 254)) = some s ∧
      classify? 6 sampleTable = none := by
  obtain ⟨-, hsorted, -, hcongr, -⟩ := classify?_sorts 5 sampleTable
  obtain ⟨hsix, -⟩ := classify?_sorts 6 sampleTable
  obtain ⟨s, hs⟩ : ∃ s, classify? 5 sampleTable = some s := Option.isSome_iff_exists.mp rfl
  obtain ⟨hhosts, hsubnets, -⟩ := hsorted s hs
  have hfewer := hcongr (sampleTable.filter (·.table = 254)) (by decide)
  have hprefix : (classify? 5 sampleTable).bind advertPrefix? =
      some (Network.base ⟨⟨Vector.replicate 16 7⟩, 64, by decide⟩) := rfl
  rw [hs] at hprefix
  refine ⟨s, hs, hhosts.trans (by decide), hsubnets.trans (by decide), ⟨_, hprefix, by decide⟩,
    hfewer.trans hs, hsix.mpr ⟨_, List.mem_of_getElem? (i := 1) rfl, rfl, rfl, by decide⟩⟩

end RouteSet

end RouterAdvert
