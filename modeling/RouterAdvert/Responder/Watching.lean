import RouterAdvert.Responder.Registry

/-! The watch for links: announced links whose names are selected are served, and removed ones are
closed. If announcements were lost, all links are asked for again. -/
namespace RouterAdvert.Responder

variable {σ : Type} [Host σ]

/-- The socket for announcements is the first of its kind. -/
def watchUse (call : SocketCall) (errno : Int32) : Entry := .socket .netlink 0 ⟨call, errno⟩

/-- Opens and binds the socket; false if one of them fails. -/
def startWatch (now : Nat) (r : Responder σ) : Responder σ × Bool :=
  let stamp : Stamp := ⟨now, none⟩
  let openErrno := Host.watchErrno .open r.host
  let r := r.record stamp (watchUse (.open 0) openErrno)
  match ErrorCode.ofErrno? openErrno with
  | some e => (r.note stamp (.watchNotOpened e), false)
  | none =>
    let r := { r with watch := { r.watch with isOpen := true } }
    let bindErrno := Host.watchErrno .bind r.host
    let r := r.record stamp (watchUse (.bindGroups LinkWatch.linkGroup) bindErrno)
    match ErrorCode.ofErrno? bindErrno with
    | some e => (r.note stamp (.watchNotBound e), false)
    | none => (r.setWatch (r.watch.post .begin), true)

def shutdown (r : Responder σ) : Responder σ := r.setWatch (r.watch.post .shutdown)

/-- Something arrives on the socket for announcements. -/
def arrive (x : Except ErrorCode Bytes) (r : Responder σ) : Responder σ :=
  r.setWatch (r.watch.arrive x)

/-- Asks for all links. Without them the program cannot go on. -/
def requestLinks (now : Nat) (r : Responder σ) : Responder σ :=
  let stamp : Stamp := ⟨now, none⟩
  let sequence := r.watch.sequence
  let r := { r with watch := { r.watch with sequence := sequence + 1 } }
  if !r.watch.isOpen then
    r.giveUp stamp (.linksNotRequested (.system Errno.badDescriptor))
  else
    let errno := Host.watchErrno .send r.host
    let r := r.record stamp (watchUse (.send (Netlink.Request.links.encode sequence)) errno)
    match ErrorCode.ofErrno? errno with
    | some e => r.giveUp stamp (.linksNotRequested e)
    | none =>
      match Host.announceAll sequence r.host with
      | none => r
      | some d => r.arrive (.ok d)

def receiveLinks (r : Responder σ) : Responder σ :=
  if r.halt.isSome then r else r.setWatch r.watch.receive

section Messages

variable {σ : Type}

/-- Handles an announcement or a removal. Links without a name do not count, and a link that is
served already is left alone. -/
def Factory.processLink (f : Factory σ) (now : Nat) (m : Netlink.Message) (r : Responder σ) :
    Responder σ :=
  let stamp : Stamp := ⟨now, none⟩
  match Netlink.LinkMessage.decode? m with
  | none => r
  | some l =>
    if l.name = [] then r
    else if !r.selects l.name then r.note stamp (.linkIgnored l.name)
    else if m.type = Netlink.Message.delLink then
      r.note stamp (.linkRemoved l.name l.index) |>.close l.index
    else if r.check l.index then r
    else (f.add now l.index (r.note stamp (.linkAppeared l.name l.index))).1

def Factory.processMessage (f : Factory σ) (now : Nat) (m : Netlink.Message) (r : Responder σ) :
    Responder σ :=
  let stamp : Stamp := ⟨now, none⟩
  if m.type = Netlink.Message.newLink ∨ m.type = Netlink.Message.delLink then
    f.processLink now m r
  else if m.type = Netlink.Message.error then
    if m.errno = 0 then r else r.note stamp (.watchRefused m.errno)
  else if m.type = Netlink.Message.overrun then r.note stamp .kernelOverrun
  else r

/-- Handles messages in order, as long as the program goes on. -/
def Factory.processAll (f : Factory σ) (now : Nat) (ms : List Netlink.Message) (r : Responder σ) :
    Responder σ :=
  ms.foldl (fun r m => if r.halt.isSome then r else f.processMessage now m r) r

/-- Comes back from a walk, if it has stopped. -/
def comeBack (e : Netlink.Message.Ending) (r : Responder σ) : Responder σ :=
  if r.halt.isSome ∨ e = .stopped then r else { r with halt := some .adrift }

/-- Handles what the first `count` bytes of a buffer hold. -/
def Factory.processBuffer (f : Factory σ) (now : Nat) (buffer : Bytes) (count : Nat)
    (r : Responder σ) : Responder σ :=
  let walk := Netlink.Message.walk buffer count.toUInt64
  (f.processAll now walk.visited r).comeBack walk.ending

end Messages

def processLink (now : Nat) (m : Netlink.Message) (r : Responder σ) : Responder σ :=
  Factory.ofHost.processLink now m r

def processMessage (now : Nat) (m : Netlink.Message) (r : Responder σ) : Responder σ :=
  Factory.ofHost.processMessage now m r

def processAll (now : Nat) (ms : List Netlink.Message) (r : Responder σ) : Responder σ :=
  Factory.ofHost.processAll now ms r

def processBuffer (now : Nat) (buffer : Bytes) (count : Nat) (r : Responder σ) : Responder σ :=
  Factory.ofHost.processBuffer now buffer count r

/-- Handles a datagram with nothing behind it. -/
def process (now : Nat) (d : Bytes) (r : Responder σ) : Responder σ :=
  r.processBuffer now d d.length

/-- Handles the end of a receive. -/
def linksReceived (now : Nat) (x : Except ErrorCode Nat) (r : Responder σ) : Responder σ :=
  let stamp : Stamp := ⟨now, none⟩
  if r.watch.stopped then r
  else match x with
    | .error e =>
      if e = .system Errno.noBufferSpace then
        r.note stamp .linksOverrun |>.requestLinks now |>.receiveLinks
      else r.giveUp stamp (.watchFailed e)
    | .ok n => r.processBuffer now r.watch.buffer n |>.receiveLinks

/-- Stops watching, then closes every tap in service. -/
def stopWatch (now : Nat) (r : Responder σ) : Responder σ :=
  { r.setWatch r.watch.close with watch.stopped := true }
    |>.record ⟨now, none⟩ (watchUse .close 0)
    |>.closeAll

def handleWatch (now : Nat) (e : LinkWatch.Event) (r : Responder σ) : Responder σ :=
  match e with
  | .begin => r.requestLinks now |>.receiveLinks
  | .received x => r.linksReceived now x
  | .shutdown => r.stopWatch now

end RouterAdvert.Responder
