import RouterAdvert.Ndp.AdvertHeader
import RouterAdvert.Ndp.IcmpHeader
import RouterAdvert.Ndp.PrefixInfo
import RouterAdvert.Ndp.SourceLink

/-! Router advertisements as they go on the wire. The checksum stays zero for the sending socket to
fill in. -/
namespace RouterAdvert.Ndp

structure Advert where
  mac : Option Mac := none
  network : Option Address := none
  lifetime : UInt16 := 1800
  deriving DecidableEq, Repr

namespace Advert

def hopLimit : UInt8 := 64

/-- Thirty days, in seconds. -/
def validLifetime : UInt32 := 2592000

/-- Seven days, in seconds. -/
def preferredLifetime : UInt32 := 604800

def icmpHeader : IcmpHeader :=
  IcmpHeader.setChecksum 0 (IcmpHeader.setCode 0 (IcmpHeader.setType routerAdvertType {}))

def header (a : Advert) : AdvertHeader :=
  ({} : AdvertHeader)
    |> AdvertHeader.setHopLimit hopLimit
    |> AdvertHeader.setManaged false
    |> AdvertHeader.setOther false
    |> AdvertHeader.setPreference .medium
    |> AdvertHeader.setLifetime a.lifetime
    |> AdvertHeader.setReachable 0
    |> AdvertHeader.setRetransmit 0

def sourceLink (m : Mac) : SourceLink := SourceLink.setMac m {}

/-- The /64 around an address, for hosts to configure themselves in. -/
def prefixInfo (network : Address) : PrefixInfo :=
  ({} : PrefixInfo)
    |> PrefixInfo.setPrefix network 64
    |> PrefixInfo.setOnLink true
    |> PrefixInfo.setAutonomous true
    |> PrefixInfo.setValidLifetime validLifetime
    |> PrefixInfo.setPreferredLifetime preferredLifetime

def encode (a : Advert) : Bytes :=
  Bytes.text [icmpHeader.write, a.header.write,
    match a.mac with
    | some m => (sourceLink m).write
    | none => [],
    match a.network with
    | some n => (prefixInfo n).write
    | none => []]

end Advert

end RouterAdvert.Ndp
