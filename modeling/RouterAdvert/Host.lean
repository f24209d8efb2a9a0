import RouterAdvert.Medium
import RouterAdvert.Route

/-! What the responder can ask the machine it runs on: its links and routes, and announcements of
links on a socket of their own. -/
namespace RouterAdvert

/-- An answer, what is seen of asking for it, and the machine afterwards. -/
structure Report (σ : Type) (α : Type) where
  answer : Except ErrorCode α
  entries : List Entry
  after : σ

/-- The calls on the socket for announcements that can fail. -/
inductive WatchCall where
  | open
  | bind
  | send
  deriving DecidableEq, Repr

class Host (σ : Type) extends Medium σ where
  lookUp : Int32 → σ → Report σ Link
  listRoutes : σ → Report σ (List Route)
  /-- The error number with which a call on the socket for announcements ends now. -/
  watchErrno : WatchCall → σ → Int32
  /-- The announcement of all links in reply to the request with this number. -/
  announceAll : UInt32 → σ → Option Bytes

end RouterAdvert
