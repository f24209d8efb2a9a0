import RouterAdvert.Ndp.IcmpHeader
import RouterAdvert.Ndp.SourceLink

/-! Validity of received router solicitations. -/
namespace RouterAdvert.Ndp

/-- The outcome of a check: acceptance, or the first rule that is violated. -/
inductive Verdict where
  | ok
  | tooShort
  | badType
  | badCode
  | badOptionLength
  | duplicateSourceLink
  | badSourceLink
  | unspecifiedWithSourceLink
  deriving DecidableEq, Repr

namespace Verdict

def all : List Verdict :=
  [ok, tooShort, badType, badCode, badOptionLength, duplicateSourceLink, badSourceLink,
    unspecifiedWithSourceLink]

def text : Verdict → Bytes
  | ok => "ok"
  | tooShort => "ICMP message is too short"
  | badType => "ICMP type != 133"
  | badCode => "ICMP code != 0"
  | badOptionLength => "invalid option length"
  | duplicateSourceLink => "more than one Source Link-Layer Address option"
  | badSourceLink => "Source Link-Layer Address is wrong size for ethernet"
  | unspecifiedWithSourceLink =>
    "unspecified source address with Source Link-Layer Address option"

/-- The text of verdict number `n`, counted from zero. -/
def textOf (n : Int) : Bytes :=
  match n with
  | .ofNat k =>
    match all[k]? with
    | some v => v.text
    | none => "unknown"
  | .negSucc _ => "unknown"

end Verdict

namespace Solicitation

/-- Scans the options from left to right and stops at the first that breaks a rule; otherwise says
whether a Source Link-Layer Address option was among them. `seen` tells whether one came before. -/
def scanOptions (seen : Bool) (b : Bytes) : Except Verdict Bool :=
  match b with
  | [] => .ok seen
  | [_] => .error .badOptionLength
  | type :: units :: body =>
    let length := 8 * units.toNat
    if length = 0 ∨ length > body.length + 2 then .error .badOptionLength
    else if type = sourceLinkType then
      if seen then .error .duplicateSourceLink
      else if length ≠ SourceLink.size then .error .badSourceLink
      else scanOptions true (body.drop (length - 2))
    else scanOptions seen (body.drop (length - 2))
termination_by b.length

def checkOptions (senderUnspecified : Bool) (b : Bytes) : Verdict :=
  match scanOptions false b with
  | .error v => v
  | .ok hasSourceLink =>
    if hasSourceLink && senderUnspecified then .unspecifiedWithSourceLink else .ok

def check (b : Bytes) (senderUnspecified : Bool) : Verdict :=
  match IcmpHeader.read? b with
  | none => .tooShort
  | some (icmp, rest) =>
    match SolicitHeader.read? rest with
    | none => .tooShort
    | some (_, options) =>
      if icmp.type ≠ routerSolicitType then .badType
      else if icmp.code ≠ 0 then .badCode
      else checkOptions senderUnspecified options

end Solicitation

end RouterAdvert.Ndp
