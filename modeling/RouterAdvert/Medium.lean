import RouterAdvert.Advertiser
import RouterAdvert.Journal

/-! The way from advertisers to their interfaces. A medium says how calls would end if they were
made now, and keeps account of those that are made. -/
namespace RouterAdvert

class Medium (σ : Type) where
  conditions : Link → σ → Advertiser.Conditions
  /-- A dial that ends as the conditions say: what is seen of it, and the medium after it. -/
  dial : Link → σ → List Entry × σ
  /-- A call on a connection, with the error it ends with. -/
  call : Connection → ConnectionCall → Option ErrorCode → σ → List Entry × σ
  /-- A bound on how many more dials in a row can fail, if there is one. -/
  failures : σ → Nat

namespace Advertiser.Effect

variable {σ : Type} [Medium σ]

/-- Carries out what advertiser `a` does: messages and calls go to the journal and the medium. -/
def perform (stamp : Stamp) (a : Advertiser) (e : Effect) (s : Journal × σ) : Journal × σ :=
  match e with
  | note n => (s.1.note stamp n, s.2)
  | dial =>
    let (entries, medium) := Medium.dial a.profile.link s.2
    (s.1.recordAll stamp entries, medium)
  | call c fault =>
    match a.connection with
    | none => s
    | some connection =>
      let (entries, medium) := Medium.call connection c fault s.2
      (s.1.recordAll stamp entries, medium)
  | armed => s
  | exit h code => (s.1.record stamp (.exit h code), s.2)

end Advertiser.Effect

end RouterAdvert
