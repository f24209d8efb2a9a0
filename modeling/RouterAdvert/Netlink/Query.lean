import RouterAdvert.ErrorCode
import RouterAdvert.Netlink.Request
import RouterAdvert.Socket.Call

/-! Questions to the kernel: each one opens a socket of its own, sends a request and reads replies
until the request is answered. Messages with another sequence number belong to others and are
passed over. -/
namespace RouterAdvert.Netlink

/-- What one receive yields: a datagram, or the error number it fails with. -/
abbrev Reply := Except Int32 Bytes

/-- How the socket of one question behaves: the error numbers of its calls and its replies to the
request. -/
structure Exchange where
  openErrno : Int32 := 0
  bindErrno : Int32 := 0
  sendErrno : Int32 := 0
  replies : Bytes → List Reply := fun _ => []

namespace Query

def bufferSize : Nat := 32768

/-- The buffer after a datagram was received into it. A datagram longer than the buffer is cut;
behind a shorter one the earlier contents stay. -/
def overlay (buffer datagram : Bytes) : Bytes :=
  datagram.take buffer.length ++ buffer.drop datagram.length

/-- What is done on the socket of a question. -/
inductive Stage where
  | opened
  | bound
  | sent (request : Bytes)
  | received
  deriving DecidableEq, Repr

/-- The call on the socket that counts as a use of it; receives do not. -/
def Stage.call? : Stage → Option SocketCall
  | opened => some (.open 0)
  | bound => some (.bindGroups 0)
  | sent request => some (.send request)
  | received => none

/-- What a question works with: the code that every stage sets anew, what the messages have left so
far, and the stages that were gone through, each with the error that it left. -/
structure Variables (α : Type) where
  code : Option ErrorCode
  value : α
  stages : List (Stage × Option ErrorCode) := []

variable {α : Type}

/-- The variables after one more stage. -/
def Variables.pass (stage : Stage) (e : Option ErrorCode) (v : Variables α) : Variables α :=
  { v with code := e, stages := v.stages ++ [(stage, e)] }

/-- Goes through the messages of one datagram; tells whether there is an answer, unless the question
is still open. -/
def handle (dump : Bool) (sequence : UInt32) (keep : α → Message → α) :
    List Message → Variables α → Variables α × Option Bool
  | [], v => (v, none)
  | m :: ms, v =>
    if m.sequence ≠ sequence then handle dump sequence keep ms v
    else if m.type = Message.done then (v, some true)
    else if m.type = Message.error then
      if m.errno = 0 then (v, some true)
      else ({ v with code := some (.system (-m.errno)) }, some false)
    else if m.type = Message.noop ∨ m.type = Message.overrun then handle dump sequence keep ms v
    else
      let v := { v with value := keep v.value m }
      if dump then handle dump sequence keep ms v else (v, some true)

/-- Where a question stands when it has been gone through. -/
structure Finding (α : Type) where
  state : Variables α
  /-- Whether there is an answer; nothing if the walk over a datagram has not come back. -/
  answered : Option Bool
  unread : List Reply := []

/-- Receives until the question is closed, a receive fails, or a walk does not come back. -/
def receiveAll (dump : Bool) (sequence : UInt32) (keep : α → Message → α) (buffer : Bytes) :
    List Reply → Variables α → Finding α
  | [], v =>
    { state := v.pass .received (some (.system Errno.wouldBlock)), answered := some false }
  | .error e :: rest, v =>
    let v := v.pass .received (ErrorCode.ofErrno? e)
    if v.code.isSome then { state := v, answered := some false, unread := rest }
    else receiveAll dump sequence keep buffer rest v
  | .ok d :: rest, v =>
    let buffer := overlay buffer d
    let walk := Message.walk buffer (min d.length bufferSize).toUInt64
    match handle dump sequence keep walk.visited (v.pass .received none) with
    | (v, some answered) => { state := v, answered := some answered, unread := rest }
    | (v, none) =>
      if walk.ending = .stopped then receiveAll dump sequence keep buffer rest v
      else { state := v, answered := none, unread := rest }

/-- Goes through the stages until one fails, and tells the number of the next question. A question
that cannot open or bind its socket uses no number. -/
def request (r : Request) (keep : α → Message → α) (x : Exchange) (sequence : UInt32)
    (v : Variables α) : Finding α × UInt32 :=
  let v := v.pass .opened (ErrorCode.ofErrno? x.openErrno)
  if v.code.isSome then ({ state := v, answered := some false }, sequence)
  else
    let v := v.pass .bound (ErrorCode.ofErrno? x.bindErrno)
    if v.code.isSome then ({ state := v, answered := some false }, sequence)
    else
      let data := r.encode sequence
      let v := v.pass (.sent data) (ErrorCode.ofErrno? x.sendErrno)
      if v.code.isSome then ({ state := v, answered := some false }, sequence + 1)
      else
        (receiveAll r.isDump sequence keep (List.replicate bufferSize 0) (x.replies data) v,
          sequence + 1)

/-- What the caller of a question sees: a value beside a code, if the question comes back at all. -/
structure Returned (α : Type) where
  value : α
  code : Option ErrorCode
  returns : Bool
  stages : List (Stage × Option ErrorCode)
  unread : List Reply
  nextSequence : UInt32

def Finding.returned {β : Type} (f : Finding α) (value : β) (code : Option ErrorCode)
    (next : UInt32) : Returned β :=
  { value := value, code := code, returns := f.answered.isSome, stages := f.state.stages,
    unread := f.unread, nextSequence := next }

/-- Asks for a link. `code` is what the variable for the code holds before. Without a link in the
answer there is no such device. -/
def getLink (index : Int32) (x : Exchange) (sequence : UInt32) (code : Option ErrorCode) :
    Returned (Option Link) :=
  let (f, next) :=
    request (.link index) (fun _ m => LinkMessage.decode? m) x sequence ⟨code, none, []⟩
  match f.answered, f.state.value with
  | some true, some l => f.returned (some l) f.state.code next
  | some true, none => f.returned none (some ⟨.generic, Errno.noDevice⟩) next
  | _, _ => f.returned none f.state.code next

/-- Asks for the routes. `code` is what the variable for the code holds before. -/
def getRoutes (x : Exchange) (sequence : UInt32) (code : Option ErrorCode) :
    Returned (List Route) :=
  let (f, next) :=
    request .routes (fun rs m => rs ++ (RouteMessage.decode? m).toList) x sequence ⟨code, [], []⟩
  match f.answered with
  | some true => f.returned f.state.value f.state.code next
  | _ => f.returned [] f.state.code next

/-- A question's outcome, the calls made on its socket, the replies left over, and the sequence
number of the next question. -/
structure Outcome (α : Type) where
  /-- The answer or the error; nothing if the question does not come back. -/
  result : Option (Except ErrorCode α)
  uses : List SocketUse
  unread : List Reply := []
  nextSequence : UInt32

/-- The use of a socket that a stage shows. -/
def Stage.use? (stage : Stage) (e : Option ErrorCode) : Option SocketUse :=
  stage.call?.map fun call => ⟨call, (e.map (·.value)).getD 0⟩

def Returned.outcome {β : Type} (g : Returned α) (result : Option (Except ErrorCode β)) :
    Outcome β :=
  { result := result
    uses := g.stages.filterMap fun (stage, e) => stage.use? e
    unread := g.unread
    nextSequence := g.nextSequence }

def link (index : Int32) (x : Exchange) (sequence : UInt32) : Outcome Link :=
  let g := getLink index x sequence none
  g.outcome (match g.value with
    | some l => some (.ok l)
    | none => g.code.map .error)

def routes (x : Exchange) (sequence : UInt32) : Outcome (List Route) :=
  let g := getRoutes x sequence none
  g.outcome (if g.returns then some (match g.code with
    | some e => .error e
    | none => .ok g.value) else none)

end Query

end RouterAdvert.Netlink
