import RouterAdvert.Medium

/-! A medium that follows a script: which dials fail, and how the connections behave that are dialed
from now on. -/
namespace RouterAdvert

structure DialScript where
  /-- The number of dials that fail next. -/
  failing : Nat := 0
  alwaysFail : Bool := false
  holdSends : Bool := false
  filterErrno : Int32 := 0
  joinErrno : Int32 := 0
  /-- The number of connections dialed so far. -/
  dialed : Nat := 0
  deriving DecidableEq, Repr

namespace DialScript

/-- The address all scripted connections have. -/
def localAddress : Address := .ofBytes ([0xfe, 0x80] ++ List.replicate 13 0 ++ [1])

def fails (s : DialScript) : Bool := s.alwaysFail || 0 < s.failing

def outcome (s : DialScript) : Except ErrorCode Endpoint :=
  if s.fails then .error ⟨.generic, Errno.addressNotAvailable⟩
  else .ok { number := s.dialed, source := ⟨localAddress, 0⟩, holdSends := s.holdSends }

def afterDial (s : DialScript) : DialScript :=
  if s.fails then { s with failing := s.failing - 1 } else { s with dialed := s.dialed + 1 }

instance : Medium DialScript where
  conditions _ s :=
    { dial := s.outcome
      filter := ErrorCode.ofErrno? s.filterErrno
      join := ErrorCode.ofErrno? s.joinErrno }
  dial l s := ([.dial l.index (if s.fails then none else some s.dialed)], s.afterDial)
  call c call _ s := ([.call c.number call], s)
  failures s := s.failing

/-- Changes to the script; what is not mentioned stays. -/
structure Change where
  failing : Option Nat := none
  alwaysFail : Option Bool := none
  holdSends : Option Bool := none
  filterErrno : Option Int32 := none
  joinErrno : Option Int32 := none

def change (c : Change) (s : DialScript) : DialScript :=
  { s with
    failing := c.failing.getD s.failing
    alwaysFail := c.alwaysFail.getD s.alwaysFail
    holdSends := c.holdSends.getD s.holdSends
    filterErrno := c.filterErrno.getD s.filterErrno
    joinErrno := c.joinErrno.getD s.joinErrno }

end DialScript

end RouterAdvert
