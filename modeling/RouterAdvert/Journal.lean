import RouterAdvert.Journal.Entry
import RouterAdvert.Journal.Notice

/-! The journal: everything that can be seen of the responder, in order, with the time at which it
happened and the tap that it concerns. Messages below the threshold are not written. -/
namespace RouterAdvert

/-- When something happens, and to which tap, if to a single one. -/
structure Stamp where
  time : Nat
  tap : Option TapId := none
  deriving DecidableEq, Repr

/-- Rows are kept newest first. -/
structure Journal where
  threshold : Severity := .info
  toSystem : Bool := false
  rows : List (Stamp × Entry) := []
  deriving DecidableEq, Repr

namespace Journal

def record (stamp : Stamp) (e : Entry) (j : Journal) : Journal :=
  { j with rows := (stamp, e) :: j.rows }

def recordAll (stamp : Stamp) (es : List Entry) (j : Journal) : Journal :=
  es.foldl (fun j e => j.record stamp e) j

/-- Writes a message of any severity. -/
def write (stamp : Stamp) (s : Severity) (message : Bytes) (j : Journal) : Journal :=
  j.record stamp (.log j.toSystem s message)

def isEnabled (s : Severity) (j : Journal) : Bool := s.reaches j.threshold

/-- Writes a message that reaches the threshold. -/
def say (stamp : Stamp) (s : Severity) (message : Bytes) (j : Journal) : Journal :=
  if j.isEnabled s then j.write stamp s message else j

def note (stamp : Stamp) (n : Notice) (j : Journal) : Journal := j.say stamp n.severity n.text

/-- Changes where messages go; the system log is opened and closed only when that changes. -/
def useSystem (stamp : Stamp) (on : Bool) (j : Journal) : Journal :=
  let j := if on = j.toSystem then j else j.record stamp (if on then .openLog else .closeLog)
  { j with toSystem := on }

/-- The rows written since there were `n`, oldest first. -/
def since (n : Nat) (j : Journal) : List (Stamp × Entry) :=
  (j.rows.take (j.rows.length - n)).reverse

/-- The lines written since there were `n` rows. -/
def linesSince (n : Nat) (j : Journal) : List Bytes := (j.since n).filterMap (·.2.text?)

end Journal

end RouterAdvert
