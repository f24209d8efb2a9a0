import RouterAdvert.Proofs.Ndp.Field
import RouterAdvert.Proofs.Netlink.Answers

/-! Questions one after another. Each one that gets as far as sending has a number of its own, and
its answer rests on the replies with this number. -/
namespace RouterAdvert.Netlink

namespace Query

inductive Question where
  | link (index : Int32) (x : Exchange)
  | routes (x : Exchange)

namespace Question

def exchange : Question → Exchange
  | link _ x => x
  | routes x => x

/-- Whether the question gets past the binding of its socket. -/
def bound (q : Question) : Bool := q.exchange.openErrno = 0 ∧ q.exchange.bindErrno = 0

/-- The number of the next question. -/
def next (s : UInt32) : Question → UInt32
  | link index x => (Query.link index x s).nextSequence
  | routes x => (Query.routes x s).nextSequence

end Question

end Query

end RouterAdvert.Netlink
