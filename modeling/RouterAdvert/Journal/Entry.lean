import RouterAdvert.Connection.Call
import RouterAdvert.ErrorCode
import RouterAdvert.Journal.Severity
import RouterAdvert.Socket.Call
import RouterAdvert.Tap.Id

/-! What can be seen of the responder from outside: the lines it logs and the calls it makes. -/
namespace RouterAdvert

/-- Who is told that an advertiser has come to its end: one of several starters by number, a single
starter, or the registry. -/
inductive ExitHandler where
  | numbered (n : Nat)
  | announce
  | deregister
  deriving DecidableEq, Repr

inductive SocketKind where
  | netlink
  | icmp
  deriving DecidableEq, Repr

namespace SocketKind

def name : SocketKind → Bytes
  | netlink => "nl"
  | icmp => "icmp"

end SocketKind

inductive Entry where
  | openLog
  | closeLog
  | log (toSystem : Bool) (s : Severity) (message : Bytes)
  | complaint (message : Bytes)
  | lookUp (index : Int32)
  | listRoutes
  | dial (index : Int32) (number : Option Nat)
  | call (number : Nat) (c : ConnectionCall)
  | socket (kind : SocketKind) (number : Nat) (u : SocketUse)
  | exit (h : ExitHandler) (code : ErrorCode)
  deriving DecidableEq, Repr

namespace Entry

/-- The name, the option for process numbers and the facility under which the system log is
opened. -/
def openLogText : Bytes := "openlog tapra6 1 24"

/-- The line for an entry. The registry's own affairs have none. The system log takes a message up
to its first zero byte. -/
def text? : Entry → Option Bytes
  | openLog => some openLogText
  | closeLog => some "closelog"
  | log true s m =>
    some (Bytes.text ["syslog ", Bytes.decimal s.priority, " ", Bytes.untilZero m])
  | log false s m => some (Bytes.text ["stderr [", s.name, "] ", m])
  | complaint m => some (Bytes.text ["stderr ", m])
  | lookUp i => some (Bytes.text ["get_link ", Bytes.signed i.toInt])
  | listRoutes => some "get_routes"
  | dial i none => some (Bytes.text ["dial ", Bytes.signed i.toInt, " fail"])
  | dial i (some k) =>
    some (Bytes.text ["dial ", Bytes.signed i.toInt, " c", Bytes.decimal k])
  | call k c => some (Bytes.text ["c", Bytes.decimal k, " ", c.text])
  | socket kind k u => some (Bytes.text [kind.name, Bytes.decimal k, " ", u.text])
  | exit (.numbered n) code =>
    some (Bytes.text ["exit ", Bytes.decimal n, " ", code.category.name, " ",
      Bytes.signed code.value.toInt])
  | exit .announce code => some (Bytes.text ["exit ", Bytes.signed code.value.toInt])
  | exit .deregister _ => none

end Entry

end RouterAdvert
