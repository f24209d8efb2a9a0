import RouterAdvert.Pattern.Node
import RouterAdvert.Pattern.Token

/-! From tokens to trees. A quantifier binds to the atom or the quantified atom before it;
assertions take none. A question mark right behind a quantifier only asks for the shortest match
first. -/
namespace RouterAdvert.Pattern

inductive Opening where
  | whole
  | group (n : Nat)
  | plain
  | look (negated : Bool)

/-- What may come behind the last term: nothing that binds to it, a quantifier, or also the question
mark that belongs to the quantifier just read. -/
inductive Binding where
  | closed
  | atom
  | quantified
  deriving DecidableEq

/-- An opened part: the alternatives read so far and the terms of the current one, last first. -/
structure Level where
  opening : Opening
  left : Option Node := none
  terms : List Node := []
  binding : Binding := .closed

namespace Level

def push (l : Level) (n : Node) (binding : Binding) : Level :=
  { l with terms := n :: l.terms, binding := binding }

/-- The current alternative as a sequence. -/
def current (l : Level) : Node := l.terms.foldl (fun rest n => .seq n rest) .empty

def node (l : Level) : Node :=
  match l.left with
  | none => l.current
  | some left => .alternative left l.current

def nextAlternative (l : Level) : Level := { opening := l.opening, left := some l.node }

/-- Applies a quantifier to the last term. -/
def quantify? (l : Level) (f : Node → Node) : Option Level :=
  match l.binding, l.terms with
  | .closed, _ => none
  | _, [] => none
  | _, n :: terms => some { l with terms := f n :: terms, binding := .quantified }

end Level

/-- The innermost opened part, the ones around it, and the number of groups so far; the whole
pattern is group 0. -/
structure Progress where
  level : Level := { opening := .whole }
  outer : List Level := []
  groups : Nat := 1

namespace Progress

def opens (n : Nat) (l : Level) : Bool :=
  match l.opening with
  | .group k => k == n
  | .whole => n == 0
  | _ => false

def push (p : Progress) (n : Node) (binding : Binding) : Progress :=
  { p with level := p.level.push n binding }

def enter (p : Progress) (o : Opening) : Progress :=
  { p with level := { opening := o }, outer := p.level :: p.outer }

/-- Closes the innermost part and makes it a term of the one around it. -/
def leave? (p : Progress) : Option Progress :=
  match p.outer with
  | [] => none
  | l :: outer =>
    let body := p.level.node
    let around := { p with level := l, outer := outer }
    match p.level.opening with
    | .whole => none
    | .group n => some (around.push (.group n body) .atom)
    | .plain => some (around.push (.plainGroup body) .atom)
    | .look negated => some (around.push (.look negated body) .closed)

/-- A back reference needs a group that is complete. -/
def refer? (p : Progress) (n : Nat) : Option Progress :=
  if n < p.groups ∧ !(p.level :: p.outer).any (opens n) then
    some (p.push (.backReference n) .atom)
  else none

def quantify? (p : Progress) (f : Node → Node) : Option Progress :=
  (p.level.quantify? f).map fun l => { p with level := l }

def step? (p : Progress) : Token → Option Progress
  | .set s => some (p.push (.set s) .atom)
  | .backReference n => p.refer? n
  | .lineBegin => some (p.push .lineBegin .closed)
  | .lineEnd => some (p.push .lineEnd .closed)
  | .wordBoundary negated => some (p.push (.wordBoundary negated) .closed)
  | .group => some { p.enter (.group p.groups) with groups := p.groups + 1 }
  | .plainGroup => some (p.enter .plain)
  | .look negated => some (p.enter (.look negated))
  | .close => p.leave?
  | .alternative => some { p with level := p.level.nextAlternative }
  | .star => p.quantify? .star
  | .plus => p.quantify? .plus
  | .optional =>
    if p.level.binding = .quantified then
      some { p with level := { p.level with binding := .atom } }
    else p.quantify? .optional
  | .interval least more => p.quantify? (.interval least more)

end Progress

/-- Automata are limited to this many states, with the two ends and the acceptance of the whole. -/
def stateLimit : Nat := 100000

def parse? (tokens : List Token) : Option Node := do
  let p ← tokens.foldlM Progress.step? {}
  guard (p.outer.isEmpty ∧ p.level.node.statesMade + 3 ≤ stateLimit)
  return p.level.node

end RouterAdvert.Pattern
