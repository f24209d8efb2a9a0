import RouterAdvert.Link
import RouterAdvert.Ndp.Advert
import RouterAdvert.Settings

/-! What an advertiser knows about its interface from the day it was made. Later changes of links or
routes do not reach it. -/
namespace RouterAdvert

structure Profile where
  link : Link
  advert : Bytes
  /-- The time from one advertisement to the next unsolicited one. -/
  interval : Nat
  /-- The time from a failed dial to the next. -/
  backoff : Nat
  deriving DecidableEq, Repr

namespace Profile

/-- Encodes the advertisement for an interface, with the /64 of `network` if there is one. -/
def make (link : Link) (network : Option Address) (timing : Timing) : Profile :=
  { link := link
    advert := Ndp.Advert.encode { mac := link.mac, network := network, lifetime := timing.lifetime }
    interval := timing.advertInterval
    backoff := timing.retryBackoff }

end Profile

end RouterAdvert
