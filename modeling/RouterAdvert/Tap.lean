import RouterAdvert.Advertiser
import RouterAdvert.Tap.Id

/-! A tap: an interface that is served, with the routes through it at the time when the tap was made
and the advertiser that works for it. -/
namespace RouterAdvert

structure Tap where
  routes : RouteSet
  /-- The network that guests configure themselves in. -/
  network : Option Address
  advertiser : Advertiser

namespace Tap

def link (t : Tap) : Link := t.advertiser.profile.link

def phase (t : Tap) : Phase := t.advertiser.phase

def make (timing : Timing) (link : Link) (routes : RouteSet) : Tap :=
  let network := routes.advertPrefix?
  { routes := routes
    network := network
    advertiser := { profile := .make link network timing } }

/-- Why there is no tap: the interface is not to be served, or a route to it is impossible. -/
inductive Obstacle where
  | refused (e : TapError)
  | impossibleRoute
  deriving DecidableEq, Repr

end Tap

end RouterAdvert
