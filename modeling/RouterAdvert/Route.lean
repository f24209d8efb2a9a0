import RouterAdvert.Address
import RouterAdvert.ErrorCode

/-! IPv6 routes, and the routes through one interface split by what they say about its guests. -/
namespace RouterAdvert

structure Route where
  destination : Address := .unspecified
  length : UInt8 := 0
  interface : Int32 := 0
  table : UInt32 := 0
  deriving DecidableEq, Repr

namespace Route

def mainTable : UInt32 := 254

/-- Routes of other tables or interfaces do not count. -/
def serves (index : Int32) (r : Route) : Bool := r.interface = index && r.table = mainTable

end Route

/-- Host routes have length 128; every other one is a subnet route, the default route included.
Both lists keep the order of the table. -/
structure RouteSet where
  hosts : List Network := []
  subnets : List Network := []
  deriving DecidableEq, Repr

namespace RouteSet

def isEmpty (s : RouteSet) : Bool := s.hosts.isEmpty && s.subnets.isEmpty

def add (s : RouteSet) (n : Network) : RouteSet :=
  if n.length = 128 then { s with hosts := s.hosts ++ [n] }
  else { s with subnets := s.subnets ++ [n] }

/-- The routes of the main table through interface `index`; nothing if one of them has an
impossible length. -/
def classify? (index : Int32) (routes : List Route) : Option RouteSet :=
  routes.foldlM (fun s r =>
    if r.serves index then (Network.of? r.destination r.length.toNat).map s.add else some s) {}

/-- Takes over the routes through interface `index` from the answer to a question for all routes. A
failed question leaves `previous` as it is. -/
def inspect (index : Int32) (answer : Except ErrorCode (List Route)) (previous : RouteSet) :
    Option (RouteSet × Option ErrorCode) :=
  match answer with
  | .error e => some (previous, some e)
  | .ok routes => (classify? index routes).map fun s => (s, none)

/-- The /64 around the first host route. -/
def advertPrefix? (s : RouteSet) : Option Address :=
  s.hosts.head?.map fun n => Network.base ⟨n.address, 64, by decide⟩

end RouteSet

end RouterAdvert
