import RouterAdvert.Bytes

/-! How serious a message is. -/
namespace RouterAdvert

inductive Severity where
  | debug
  | info
  | warning
  | error
  | crit
  deriving DecidableEq, Repr

namespace Severity

def rank : Severity → Nat
  | debug => 0
  | info => 1
  | warning => 2
  | error => 3
  | crit => 4

/-- Whether a message reaches the threshold. -/
def reaches (s threshold : Severity) : Bool := threshold.rank ≤ s.rank

def name : Severity → Bytes
  | debug => "debug"
  | info => "info"
  | warning => "warning"
  | error => "error"
  | crit => "crit"

/-- The priority under which the system log files a message. -/
def priority : Severity → Nat
  | debug => 7
  | info => 6
  | warning => 4
  | error => 3
  | crit => 2

end Severity

end RouterAdvert
