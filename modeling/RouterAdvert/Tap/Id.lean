/-! Names for taps: the index of the interface, and how many taps had that index before. -/
namespace RouterAdvert

structure TapId where
  index : Int32
  generation : Nat
  deriving DecidableEq, Repr

end RouterAdvert
