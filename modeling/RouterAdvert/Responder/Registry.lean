import RouterAdvert.Responder.State

/-! The registry: which tap serves an interface. Closing a tap takes it off the registry at once and
lets its advertiser come to an end by itself. -/
namespace RouterAdvert.Responder

variable {σ : Type} [Host σ]

def check (index : Int32) (r : Responder σ) : Bool := r.registry.contains index

def get? (index : Int32) (r : Responder σ) : Option TapId := r.registry.get? index

def size (r : Responder σ) : Nat := r.registry.size

/-- Reports what was found out on the way to a tap. -/
def noteFindings (stamp : Stamp) (t : Tap) (r : Responder σ) : Responder σ :=
  let name := t.link.name
  let r := if t.network.isNone then r.note stamp (.noHostRoutes name) else r
  let r := if t.link.mac.isNone then r.note stamp (.noMac name) else r
  r.note stamp (.found name t.network)

/-- Makes the tap for an interface, without starting it: asks for the link, then for the routes. -/
def build (now : Nat) (index : Int32) (r : Responder σ) : Responder σ × Except Tap.Obstacle Tap :=
  let stamp : Stamp := ⟨now, none⟩
  let link := Host.lookUp index r.host
  let r := r.observe stamp link
  match link.answer with
  | .error e => (r.note stamp (.linkMissing index e), .error (.refused .unresolved))
  | .ok l =>
    let routes := Host.listRoutes r.host
    let r := r.observe stamp routes
    match RouteSet.inspect l.index routes.answer {} with
    | none => (r, .error .impossibleRoute)
    | some (_, some e) => (r.note stamp (.routesFailed l.name e), .error (.refused .uninspected))
    | some (s, none) =>
      let r := r.note stamp (.hostRoutes l.name s.hosts)
        |>.note stamp (.subnetRoutes l.name s.subnets)
      if s.isEmpty then (r, .error (.refused .ineligible))
      else
        let t := Tap.make r.timing l s
        (r.noteFindings stamp t, .ok t)

/-- The next unused name for a tap of this interface. -/
def freshId (index : Int32) (r : Responder σ) : TapId :=
  ⟨index, (r.taps.keys.filter (·.index = index)).length⟩

/-- Puts a tap into service in place of the one before it, which is canceled. -/
def install (now : Nat) (index : Int32) (t : Tap) (r : Responder σ) : Responder σ :=
  let id := r.freshId index
  let previous := r.registry.get? index
  let r := { r with registry := r.registry.insert index id }.setTap id t
  let r := match previous with
    | none => r
    | some p => r.note ⟨now, none⟩ (.tapReplaced t.link.name) |>.modifyTap p .cancel
  r.modifyTap id (.start .deregister)

/-- A way to make the tap for an interface: how it leaves the responder, and the tap or the error
for which there is none; nothing at all ends the program. -/
def Factory (σ : Type) : Type :=
  Nat → Int32 → Responder σ → Responder σ × Option (Except ErrorCode Tap)

/-- Serves an interface; false, with the registry as it was, if there is no tap for it. -/
def Factory.add {σ : Type} (f : Factory σ) (now : Nat) (index : Int32) (r : Responder σ) :
    Responder σ × Bool :=
  match f now index r with
  | (r, some (.ok t)) => (r.install now index t, true)
  | (r, some (.error e)) =>
    (r.note ⟨now, none⟩ (if e = TapError.ineligible.code then .tapIgnored index e
      else .tapFailed index e), false)
  | (r, none) => ({ r with halt := some .failed }, false)

/-- The factory of the program, which asks the host. A route with an impossible length ends the
program. -/
def Factory.ofHost : Factory σ := fun now index r =>
  let (r, x) := r.build now index
  (r, match x with
    | .ok t => some (.ok t)
    | .error (.refused e) => some (.error e.code)
    | .error .impossibleRoute => none)

def add (now : Nat) (index : Int32) (r : Responder σ) : Responder σ × Bool :=
  Factory.ofHost.add now index r

theorem add_eq (now : Nat) (index : Int32) (r : Responder σ) :
    r.add now index =
      match r.build now index with
      | (r, .ok t) => (r.install now index t, true)
      | (r, .error .impossibleRoute) => ({ r with halt := some .failed }, false)
      | (r, .error (.refused .ineligible)) =>
        (r.note ⟨now, none⟩ (.tapIgnored index TapError.ineligible.code), false)
      | (r, .error (.refused e)) => (r.note ⟨now, none⟩ (.tapFailed index e.code), false) := by
  unfold add Factory.add Factory.ofHost
  cases r.build now index with
  | mk q x =>
    cases x with
    | ok t => rfl
    | error o =>
      cases o with
      | impossibleRoute => rfl
      | refused e => cases e <;> rfl

def close (index : Int32) (r : Responder σ) : Responder σ :=
  match r.registry.get? index with
  | none => r
  | some id => { r with registry := r.registry.erase index }.modifyTap id .cancel

def closeAll (r : Responder σ) : Responder σ :=
  r.registry.values.foldl (fun r id => r.modifyTap id .cancel) { r with registry := .empty }

/-- A tap has come to its end. A newer one may serve the interface by now, and stays. -/
def deregister (now : Nat) (id : TapId) (name : Bytes) (code : ErrorCode) (r : Responder σ) :
    Responder σ :=
  let notice := if code = .canceled then .tapClosed name else .tapExited name code
  let r := r.note ⟨now, some id⟩ notice
  if r.registry.get? id.index = some id then { r with registry := r.registry.erase id.index } else r

end RouterAdvert.Responder
