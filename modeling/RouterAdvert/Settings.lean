import RouterAdvert.Bytes

/-! What an operator can set, and the pace of advertisements that follows from it. -/
namespace RouterAdvert

structure Settings where
  /-- The pattern for names of interfaces to serve. -/
  regex : Bytes := "^tap"
  /-- Seconds between unsolicited advertisements. -/
  interval : UInt32 := 10
  threads : UInt32 := 2
  useSyslog : Bool := false
  verbose : Bool := false
  deriving DecidableEq, Repr

/-- Times in milliseconds, and the router lifetime that advertisements announce in seconds. -/
structure Timing where
  advertInterval : Nat := 10000
  retryBackoff : Nat := 1000
  lifetime : UInt16 := 30
  deriving DecidableEq, Repr

namespace Settings

/-- The largest router lifetime that the protocol allows, in seconds. -/
def maxLifetime : UInt32 := 9000

/-- A router outlives two lost advertisements. The product is taken in 32 bits. -/
def timing (s : Settings) : Timing :=
  { advertInterval := s.interval.toNat * 1000
    retryBackoff := 1000
    lifetime := (min (3 * s.interval) maxLifetime).toUInt16 }

/-- How many threads join the first one in running the program, counted in 32 bits. -/
def workers (s : Settings) : UInt32 := s.threads - 1

end Settings

end RouterAdvert
