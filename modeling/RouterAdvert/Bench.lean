import RouterAdvert.DialScript
import RouterAdvert.Responder

/-! A host whose links and routes are laid down by hand and whose medium follows a script.
Announcements of links arrive only when they are handed in. -/
namespace RouterAdvert

structure Bench where
  script : DialScript := {}
  links : Table Int32 Link := .empty
  routes : List Route := []
  /-- The error number with which questions for routes end. -/
  routesErrno : Int32 := 0
  openErrno : Int32 := 0
  bindErrno : Int32 := 0
  sendErrno : Int32 := 0

namespace Bench

def addLink (l : Link) (b : Bench) : Bench := { b with links := b.links.insert l.index l }

def ofLinks (links : List Link) (b : Bench) : Bench := links.foldl (fun b l => b.addLink l) b

def link (index : Int32) (b : Bench) : Except ErrorCode Link :=
  match b.links.get? index with
  | some l => .ok l
  | none => .error ⟨.generic, Errno.noDevice⟩

def allRoutes (b : Bench) : Except ErrorCode (List Route) :=
  match ErrorCode.ofErrno? b.routesErrno with
  | some e => .error e
  | none => .ok b.routes

instance : Host Bench where
  conditions l b := Medium.conditions l b.script
  dial l b :=
    let (entries, script) := Medium.dial l b.script
    (entries, { b with script := script })
  call c call fault b :=
    let (entries, script) := Medium.call c call fault b.script
    (entries, { b with script := script })
  failures b := Medium.failures b.script
  lookUp i b := { answer := b.link i, entries := [.lookUp i], after := b }
  listRoutes b := { answer := b.allRoutes, entries := [.listRoutes], after := b }
  watchErrno call b :=
    match call with
    | .open => b.openErrno
    | .bind => b.bindErrno
    | .send => b.sendErrno
  announceAll _ _ := none

end Bench

namespace Responder

/-- The connection with this number, or the last one dialed, and the tap that has it. -/
def connection? (number : Option Nat) (r : Responder Bench) : Option TapId :=
  match number with
  | some n => r.holder? n
  | none => if r.host.script.dialed = 0 then none else r.holder? (r.host.script.dialed - 1)

def operate (id : TapId) (f : Advertiser → Option Advertiser) (r : Responder Bench) :
    Responder Bench × Bool :=
  match (r.taps.get? id).bind fun t => f t.advertiser with
  | none => (r, false)
  | some a => (r.modifyTap id fun _ => a, true)

/-- Something arrives for a waiting receive of a tap; false if none waits. -/
def inject (x : Arrival) (id : TapId) (r : Responder Bench) : Responder Bench × Bool :=
  r.operate id (·.inject? x)

/-- Completes a held send of a tap; false if there is none. -/
def release (e : Option ErrorCode) (id : TapId) (r : Responder Bench) : Responder Bench × Bool :=
  r.operate id (·.release? e)

end Responder

end RouterAdvert
