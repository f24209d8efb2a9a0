import RouterAdvert.Errno

/-! Error codes: a number within a category. Codes are equal when both agree. -/
namespace RouterAdvert

inductive ErrorCategory where
  | system
  | generic
  | tap
  deriving DecidableEq, Repr

structure ErrorCode where
  category : ErrorCategory
  value : Int32
  deriving DecidableEq, Repr

namespace ErrorCategory

def name : ErrorCategory → Bytes
  | .system => "system"
  | .generic => "generic"
  | .tap => "tapra6"

end ErrorCategory

/-- Why no tap could be built for an interface. -/
inductive TapError where
  | unresolved
  | uninspected
  | ineligible
  deriving DecidableEq, Repr

namespace TapError

def value : TapError → Int32
  | .unresolved => 1
  | .uninspected => 2
  | .ineligible => 3

def ofValue? (v : Int32) : Option TapError :=
  if v = 1 then some .unresolved
  else if v = 2 then some .uninspected
  else if v = 3 then some .ineligible
  else none

def message : TapError → Bytes
  | .unresolved => "unable to get interface"
  | .uninspected => "failed getting routes for interface"
  | .ineligible =>
    "neither host nor subnet routes to this tap; this may be a private vlan interface"

def code (e : TapError) : ErrorCode := ⟨.tap, e.value⟩

end TapError

namespace ErrorCode

def system (errno : Int32) : ErrorCode := ⟨.system, errno⟩

/-- The code of an operation that was told to stop. -/
def canceled : ErrorCode := system Errno.canceled

/-- A call that returned this error number; zero is success. -/
def ofErrno? (errno : Int32) : Option ErrorCode := if errno = 0 then none else some (system errno)

def message (e : ErrorCode) : Bytes :=
  match e.category with
  | .system | .generic => Errno.message e.value.toInt
  | .tap =>
    match TapError.ofValue? e.value with
    | some t => t.message
    | none => "unknown tapra6 error"

end ErrorCode

end RouterAdvert
