import RouterAdvert.Mac

/-! Network interfaces as the kernel describes them. -/
namespace RouterAdvert

structure Link where
  index : Int32 := -1
  name : Bytes := []
  mac : Option Mac := none
  mtu : UInt32 := 0
  deriving DecidableEq, Repr

end RouterAdvert
