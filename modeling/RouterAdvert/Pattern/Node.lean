import RouterAdvert.Pattern.Class

/-! Patterns as trees, and the size of the automaton that each stands for. -/
namespace RouterAdvert.Pattern

inductive Node where
  | empty
  | seq (first rest : Node)
  | alternative (left right : Node)
  | set (s : ByteSet)
  | backReference (n : Nat)
  | lineBegin
  | lineEnd
  | wordBoundary (negated : Bool)
  | look (negated : Bool) (body : Node)
  | plainGroup (body : Node)
  | group (n : Nat) (body : Node)
  | star (body : Node)
  | plus (body : Node)
  | optional (body : Node)
  | interval (least : Nat) (more : Option Nat) (body : Node)

namespace Node

/-- The states of an interval whose body has `n` of them. -/
def intervalStates (least : Nat) (more : Option Nat) (n : Nat) : Nat :=
  1 + least * n + match more with
    | none => n + 1
    | some k => k * (n + 1) + 1

/-- The states of the automaton; a repeated body is copied. -/
def states : Node → Nat
  | empty => 1
  | seq a b => a.states + b.states
  | alternative a b => a.states + b.states + 2
  | set _ => 1
  | backReference _ => 1
  | lineBegin => 1
  | lineEnd => 1
  | wordBoundary _ => 1
  | look _ n => n.states + 2
  | plainGroup n => n.states + 1
  | group _ n => n.states + 2
  | star n => n.states + 1
  | plus n => n.states + 1
  | optional n => n.states + 2
  | interval least more n => intervalStates least more n.states

/-- All states made on the way to the automaton, the ones that were only copied from included. -/
def statesMade : Node → Nat
  | seq a b => a.statesMade + b.statesMade
  | alternative a b => a.statesMade + b.statesMade + 2
  | look _ n => n.statesMade + 2
  | plainGroup n => n.statesMade + 1
  | group _ n => n.statesMade + 2
  | star n => n.statesMade + 1
  | plus n => n.statesMade + 1
  | optional n => n.statesMade + 2
  | interval least more n => n.statesMade + intervalStates least more n.states
  | _ => 1

/-- Whether some part refers back to what a group matched. -/
def refersBack : Node → Bool
  | seq a b => a.refersBack || b.refersBack
  | alternative a b => a.refersBack || b.refersBack
  | backReference _ => true
  | look _ n => n.refersBack
  | plainGroup n => n.refersBack
  | group _ n => n.refersBack
  | star n => n.refersBack
  | plus n => n.refersBack
  | optional n => n.refersBack
  | interval _ _ n => n.refersBack
  | _ => false

end Node

end RouterAdvert.Pattern
