import RouterAdvert.Bytes

/-! What an advertiser asks of its connection. -/
namespace RouterAdvert

inductive ConnectionCall where
  | filter
  | join
  | receive
  | send (data : Bytes)
  | close
  deriving DecidableEq, Repr

namespace ConnectionCall

def text : ConnectionCall → Bytes
  | filter => "filter"
  | join => "join"
  | receive => "receive"
  | send data => Bytes.text ["send ", Bytes.hex data]
  | close => "close"

end ConnectionCall

end RouterAdvert
