import RouterAdvert.Pattern.Parser

/-! Whether a pattern matches somewhere in a byte string. The possible ends of a match are computed
for each part of the pattern; what groups matched is kept only for patterns that refer back. -/
namespace RouterAdvert.Pattern

/-- Where a match is tried. A look ahead sees the text from its own beginning on; what lies before
it is visible only if the search has moved on from the beginning of the text. -/
structure Scope where
  text : Array UInt8
  start : Nat
  moved : Bool
  tracksGroups : Bool

/-- How far a match has come, with the bounds of the groups it has passed. -/
structure Place where
  position : Nat
  groups : List (Nat × Nat × Nat) := []
  deriving DecidableEq

namespace Scope

def isWordAt (sc : Scope) (i : Nat) : Bool :=
  match sc.text[i]? with
  | some b => ByteSet.word b
  | none => false

def atWordBoundary (sc : Scope) (i : Nat) : Bool :=
  let left := (i ≠ sc.start || sc.moved) && 0 < i && sc.isWordAt (i - 1)
  left != sc.isWordAt i

def recordGroup (sc : Scope) (n start : Nat) (p : Place) : Place :=
  if sc.tracksGroups then
    { p with groups := (n, start, p.position) :: p.groups.filter (·.1 ≠ n) }
  else p

def repeatGroup (sc : Scope) (n : Nat) (p : Place) : List Place :=
  match p.groups.find? (·.1 = n) with
  | none => []
  | some (_, a, b) =>
    let wanted := sc.text.extract a b
    if sc.text.extract p.position (p.position + wanted.size) = wanted then
      [{ p with position := p.position + wanted.size }]
    else []

end Scope

/-- Places reached from `frontier` by repeating `f`, together with those already reached. -/
def closure (f : Place → List Place) : Nat → List Place → List Place → List Place
  | 0, _, reached => reached
  | rounds + 1, frontier, reached =>
    let next := ((frontier.flatMap f).filter fun p => p ∉ reached).eraseDups
    if next = [] then reached else closure f rounds next (reached ++ next)

/-- Places after exactly `n` repetitions. -/
def repeated (f : Place → List Place) : Nat → List Place → List Place
  | 0, ps => ps
  | n + 1, ps => if ps = [] then [] else repeated f n (ps.flatMap f).eraseDups

/-- Each repetition in turn gets on by a byte or fills a group; three rounds for each position are
enough to reach everything. -/
def closureRounds (sc : Scope) : Nat := 3 * (sc.text.size + 1)

namespace Node

/-- Where a match of the node that begins at `p` can end. -/
def ends (sc : Scope) : Node → Place → List Place
  | empty, p => [p]
  | seq a b, p => ((a.ends sc p).flatMap (b.ends sc)).eraseDups
  | alternative a b, p => (a.ends sc p ++ b.ends sc p).eraseDups
  | set s, p =>
    match sc.text[p.position]? with
    | some b => if s b then [{ p with position := p.position + 1 }] else []
    | none => []
  | backReference n, p => sc.repeatGroup n p
  | lineBegin, p => if p.position = sc.start ∧ ¬sc.moved then [p] else []
  | lineEnd, p => if p.position = sc.text.size then [p] else []
  | wordBoundary negated, p => if sc.atWordBoundary p.position != negated then [p] else []
  | look negated n, p =>
    match n.ends { sc with start := p.position } p with
    | [] => if negated then [p] else []
    | q :: _ => if negated then [] else [{ p with groups := q.groups }]
  | plainGroup n, p => n.ends sc p
  | group k n, p => (n.ends sc p).map (sc.recordGroup k p.position)
  | star n, p => closure (n.ends sc) (closureRounds sc) [p] [p]
  | plus n, p =>
    let once := n.ends sc p
    closure (n.ends sc) (closureRounds sc) once once
  | optional n, p => (n.ends sc p ++ [p]).eraseDups
  | interval least more n, p =>
    let least := repeated (n.ends sc) least [p]
    closure (n.ends sc) (more.getD (closureRounds sc)) least least

end Node

end RouterAdvert.Pattern
