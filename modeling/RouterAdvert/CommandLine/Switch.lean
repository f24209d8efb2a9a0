import RouterAdvert.Bytes

/-! The switches that a command line can hold. Each has a letter and a long name; some take a value.
-/
namespace RouterAdvert.CommandLine

inductive Switch where
  | regex
  | interval
  | threads
  | syslog
  | verbose
  | version
  | help
  deriving DecidableEq, Repr

namespace Switch

def all : List Switch := [regex, interval, threads, syslog, verbose, version, help]

def letter : Switch → UInt8
  | regex => 114
  | interval => 105
  | threads => 116
  | syslog => 115
  | verbose => 118
  | version => 86
  | help => 104

def name : Switch → Bytes
  | regex => "regex"
  | interval => "interval"
  | threads => "threads"
  | syslog => "syslog"
  | verbose => "verbose"
  | version => "version"
  | help => "help"

def takesValue : Switch → Bool
  | regex => true
  | interval => true
  | threads => true
  | _ => false

def ofLetter? (c : UInt8) : Option Switch := all.find? (·.letter = c)

/-- The switch with this name, or the only one whose name begins so. -/
def ofName? (b : Bytes) : Option Switch :=
  match all.find? (·.name = b) with
  | some s => some s
  | none =>
    match all.filter (b <+: ·.name) with
    | [s] => some s
    | _ => none

end Switch

end RouterAdvert.CommandLine
