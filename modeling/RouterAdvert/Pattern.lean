import RouterAdvert.Pattern.Matcher

/-! Regular expressions that select interfaces by name. -/
namespace RouterAdvert

structure Pattern where
  node : Pattern.Node

namespace Pattern

/-- Nothing if `source` is not a pattern. -/
def compile? (source : Bytes) : Option Pattern :=
  ((Token.all? source).bind parse?).map Pattern.mk

/-- Whether some part of `text` matches. -/
def search (p : Pattern) (text : Bytes) : Bool :=
  let text := text.toArray
  (List.range (text.size + 1)).any fun start =>
    let scope := { text, start, moved := start ≠ 0, tracksGroups := p.node.refersBack }
    !(p.node.ends scope { position := start }).isEmpty

end Pattern

end RouterAdvert
