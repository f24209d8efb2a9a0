import RouterAdvert.CommandLine.Item
import RouterAdvert.CommandLine.Numeral
import RouterAdvert.Pattern
import RouterAdvert.Settings

/-! The meaning of a command line: its switches change the settings one after another, and what has
been set stays set even if a later argument is refused. -/
namespace RouterAdvert.CommandLine

inductive Action where
  | run
  | help
  | version
  deriving DecidableEq, Repr

/-- Why a command line is refused. -/
inductive Refusal where
  | regex (value : Bytes)
  | interval (value : Bytes)
  | threads (value : Bytes)
  | missingValue (argument : Bytes)
  | unknownLetter (c : UInt8)
  | unknownName (argument : Bytes)
  | operand (argument : Bytes)
  deriving DecidableEq, Repr

namespace Refusal

/-- The message for a refused command line. For an expression, a colon and the words of the library
that refused it are left out behind the quote. -/
def message : Refusal → Bytes
  | regex v => Bytes.text ["invalid interface regex '", v, "'"]
  | interval v =>
    Bytes.text ["invalid advertisement interval '", v, "': must be 4-1800 seconds"]
  | threads v => Bytes.text ["invalid thread count '", v, "': must be 1-64"]
  | missingValue a => Bytes.text ["option '", a, "' requires an argument"]
  | unknownLetter c => Bytes.text ["unknown option '-", [c], "'"]
  | unknownName a => Bytes.text ["unknown option '", a, "'"]
  | operand a => Bytes.text ["unexpected argument '", a, "'"]

end Refusal

abbrev Outcome := Except Refusal Action

/-- Makes one choice: the settings after it, or an outcome that ends the scan. -/
def choose (s : Settings) (switch : Switch) (value : Bytes) : Except Outcome Settings :=
  match switch with
  | .regex =>
    match Pattern.compile? value with
    | some _ => .ok { s with regex := value }
    | none => .error (.error (.regex value))
  | .interval =>
    match Numeral.assign 4 1800 value s.interval with
    | (true, n) => .ok { s with interval := n }
    | (false, _) => .error (.error (.interval value))
  | .threads =>
    match Numeral.assign 1 64 value s.threads with
    | (true, n) => .ok { s with threads := n }
    | (false, _) => .error (.error (.threads value))
  | .syslog => .ok { s with useSyslog := true }
  | .verbose => .ok { s with verbose := true }
  | .version => .error (.ok .version)
  | .help => .error (.ok .help)

/-- Goes through the items; `extra` is the first operand so far, which counts only at the end. -/
def interpret (s : Settings) (extra : Option Bytes) : List Item → Settings × Outcome
  | [] =>
    match extra with
    | some a => (s, .error (.operand a))
    | none => (s, .ok .run)
  | .operand a :: items => interpret s (extra <|> some a) items
  | .choice switch value :: items =>
    match choose s switch value with
    | .ok s => interpret s extra items
    | .error outcome => (s, outcome)
  | .unknownLetter c :: _ => (s, .error (.unknownLetter c))
  | .unknownName a :: _ => (s, .error (.unknownName a))
  | .missingValue a :: _ => (s, .error (.missingValue a))

/-- Reads the arguments behind the program's name; each ends at its first zero byte. -/
def apply (s : Settings) (arguments : List Bytes) : Settings × Outcome :=
  interpret s none (Item.ofArguments (arguments.map Bytes.untilZero))

/-- Reads several command lines in turn, each on the settings that the one before left. -/
def applyAll (s : Settings) : List (List Bytes) → List (Settings × Outcome)
  | [] => []
  | arguments :: rest =>
    let r := apply s arguments
    r :: applyAll r.1 rest

def usageLines : List String :=
  ["tapra6 1.0, IPv6 router advertisement responder for tap interfaces.",
    "tapra6 [options]...",
    "",
    "Options:",
    "--regex           -r []  Manage interfaces whose name matches this regex (default ^tap).",
    "--interval        -i []  Seconds between unsolicited advertisements (4-1800, default 10).",
    "--threads         -t []  Number of event loop threads (default 2).",
    "--syslog          -s     Log to syslog instead of stderr.",
    "--verbose         -v     Log debug messages.",
    "--version         -V     Print version and exit.",
    "--help            -h     Print this help and exit."]

def versionLines : List String :=
  ["tapra6 1.0, ipv6 router advertisement responder for tap interfaces.",
    "Copyright 2024 Nicholas J. Kain",
    "Released under the MIT license."]

/-- The lines, each ended by a newline. -/
def page (lines : List String) : Bytes := Bytes.text (lines.map fun (l : String) => l ++ "\n")

def usage : Bytes := page usageLines

def version : Bytes := page versionLines

end RouterAdvert.CommandLine
