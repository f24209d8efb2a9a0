import RouterAdvert.Bench
import RouterAdvert.Proofs.Advertiser.Sending
import RouterAdvert.Proofs.Ndp.Advert
import RouterAdvert.Proofs.Responder.Draining
import RouterAdvert.Proofs.Route

/-! What a tap is made from, and what it sends. The link and the routes are asked for once, when the
tap is made; the advertisement says what was found then, and whatever changes later, it is the only
thing that the tap ever sends. -/
namespace RouterAdvert

open Advertiser Ndp

/-- What the host says about an interface and its routes. -/
structure Found {σ : Type} [Host σ] (i : Int32) (host : σ) (link : Link) (routes : List Route) :
    Prop where
  link : (Host.lookUp i host).answer = .ok link
  routes : (Host.listRoutes (Host.lookUp i host).after).answer = .ok routes

/-- Whether a datagram is read as an advertisement of a router with this lifetime, hardware address
and host route: with an option for each of the two that is there, and nothing else. -/
def Announces (lifetime : UInt16) (mac : Option Mac) (host : Option Route) (data : Bytes) : Prop :=
  ∃ m, AdvertReading.read? data = some m ∧
    m.icmp.type = 134 ∧ m.icmp.code = 0 ∧ m.icmp.checksum = 0 ∧ m.header.lifetime = lifetime ∧
    (m.options.filterMap (·.sourceLink?)).map (·.mac) = mac.toList ∧
    (m.options.filterMap (·.prefixInfo?)).map
        (fun o => (o.prefixLength, o.onLink, o.autonomous, o.address.toBytes)) =
      host.toList.map (fun r =>
        (64, true, true, r.destination.toBytes.take 8 ++ List.replicate 8 0)) ∧
    ∀ o ∈ m.options, o.sourceLink?.isSome ∨ o.prefixInfo?.isSome

theorem announces_encode (lifetime : UInt16) (mac : Option Mac) (host : Option Route) :
    Announces lifetime mac host
      (Advert.encode {
        mac := mac
        network := host.map fun r => Network.base ⟨r.destination, 64, by decide⟩
        lifetime := lifetime }) := by
  obtain ⟨htype, hcode, hsum⟩ := Advert.fields_icmpHeader
  refine ⟨_, Advert.read?_encode _, htype, hcode, hsum, Advert.lifetime_header _, ?_, ?_,
    fun o => Advert.isSome_of_mem_options⟩
  · rw [Advert.sourceLinks_options]
    cases mac with
    | none => rfl
    | some m => exact congrArg (fun m => [m]) (Advert.mac_sourceLink m)
  · rw [Advert.prefixInfos_options]
    cases host with
    | none => rfl
    | some r =>
      obtain ⟨hlength, hlink, hauto, haddress⟩ :=
        Advert.fields_prefixInfo (Network.base ⟨r.destination, 64, by decide⟩)
      have hbase : PrefixInfo.networkPart 64 (Network.base ⟨r.destination, 64, by decide⟩) =
          Network.base ⟨r.destination, 64, by decide⟩ :=
        Network.networkPart_base_whole (k := 8) r.destination (by decide)
      have hbytes : (Network.base ⟨r.destination, 64, by decide⟩).toBytes =
          r.destination.toBytes.take 8 ++ List.replicate 8 0 :=
        Network.toBytes_base_whole (k := 8) r.destination (by decide)
      simp [hlength, hlink, hauto, haddress, hbase, hbytes]

namespace Responder

variable {σ : Type} [Host σ] {now : Nat} {i : Int32} {r : Responder σ}

/-- A tap can be made if the host knows the link and has a route through it, and all of these are
possible. -/
theorem build_eq_ok_iff {t : Tap} : (r.build now i).2 = .ok t ↔
    ∃ link routes s, Found i r.host link routes ∧
      RouteSet.classify? link.index routes = some s ∧ s.isEmpty = false ∧
      t = Tap.make r.timing link s := by
  cases hl : (Host.lookUp i r.host).answer with
  | error e =>
    simp only [build, hl]
    refine iff_of_false (by simp) ?_
    rintro ⟨link, routes, s, hf, -⟩
    cases hl.symm.trans hf.link
  | ok l =>
    cases hr : (Host.listRoutes (Host.lookUp i r.host).after).answer with
    | error e =>
      simp only [build, hl, observe, hr, RouteSet.inspect]
      refine iff_of_false (by simp) ?_
      rintro ⟨link, routes, s, hf, -⟩
      cases hr.symm.trans hf.routes
    | ok routes =>
      have hf : Found i r.host l routes := ⟨hl, hr⟩
      have hinv (link : Link) (rs : List Route) (h : Found i r.host link rs) :
          link = l ∧ rs = routes :=
        ⟨Except.ok.inj (h.link.symm.trans hl), Except.ok.inj (h.routes.symm.trans hr)⟩
      cases hc : RouteSet.classify? l.index routes with
      | none =>
        simp only [build, hl, observe, hr, RouteSet.inspect, hc, Option.map_none]
        refine iff_of_false (by simp) ?_
        rintro ⟨link, rs, s, hf, hs, -⟩
        obtain ⟨rfl, rfl⟩ := hinv link rs hf
        cases hc.symm.trans hs
      | some s =>
        simp only [build, hl, observe, hr, RouteSet.inspect, hc, Option.map_some]
        split <;> rename_i he
        · refine iff_of_false (by simp) ?_
          rintro ⟨link, rs, x, hf, hs, hx, -⟩
          obtain ⟨rfl, rfl⟩ := hinv link rs hf
          obtain rfl := Option.some.inj (hc.symm.trans hs)
          cases he.symm.trans hx
        · constructor
          · intro h
            exact ⟨l, routes, s, hf, hc, by simpa using he, (Except.ok.inj h).symm⟩
          · rintro ⟨link, rs, x, hf, hs, -, rfl⟩
            obtain ⟨rfl, rfl⟩ := hinv link rs hf
            obtain rfl := Option.some.inj (hc.symm.trans hs)
            rfl

theorem exists_build_iff : (∃ t, (r.build now i).2 = .ok t) ↔
    ∃ link routes, Found i r.host link routes ∧
      (∃ x ∈ routes, x.table = 254 ∧ x.interface = link.index) ∧
      ∀ x ∈ routes, x.table = 254 → x.interface = link.index → x.length ≤ 128 := by
  constructor
  · rintro ⟨t, ht⟩
    obtain ⟨link, routes, s, hf, hs, he, -⟩ := build_eq_ok_iff.mp ht
    obtain ⟨hl, -⟩ := RouteSet.classify?_eq_some_iff.mp hs
    obtain ⟨x, hx, hserves⟩ := (RouteSet.isEmpty_of_classify? hs).mp he
    exact ⟨link, routes, hf, ⟨x, hx, Route.serves_eq_true.mp hserves⟩,
      fun y hy htable hindex => hl y hy (Route.serves_eq_true.mpr ⟨htable, hindex⟩)⟩
  · rintro ⟨link, routes, hf, ⟨x, hx, hserves⟩, hl⟩
    have hle : ∀ y ∈ routes, y.serves link.index = true → y.length ≤ 128 := by
      intro y hy hserves
      obtain ⟨htable, hindex⟩ := Route.serves_eq_true.mp hserves
      exact hl y hy htable hindex
    have hs := RouteSet.classify?_of_forall hle
    have he := (RouteSet.isEmpty_of_classify? hs).mpr ⟨x, hx, Route.serves_eq_true.mpr hserves⟩
    exact ⟨_, build_eq_ok_iff.mpr ⟨link, routes, _, hf, hs, he, rfl⟩⟩

theorem add_of_build {q : Responder σ} {t : Tap} (h : r.build now i = (q, .ok t)) :
    r.add now i = (q.install now i t, true) := by
  simp [add_eq, h]

end Responder

open Responder

namespace Course

variable {σ : Type} [Host σ]

/-- Tap `id` was made, and its advertiser has this profile. -/
def Bears (id : TapId) (p : Profile) (r : Responder σ) : Prop :=
  (Orderly r ∧ (r.taps.get? id).isSome) ∧ Tended (fun x a => x = id → a.profile = p) r

/-- No tap ever gets another profile. -/
theorem Invariant.bears (id : TapId) (p : Profile) :
    Invariant (σ := σ) fun _ _ r => Bears id p r where
  orderly h := h.1.1
  pass h _ := h
  kept now _ := (kept_made now id).tended (fun _ h => h.1)
    (fun _ _ _ ha s hx => s.profile.trans (ha hx)) fun r h i q hx => by
      have hs := h.2
      rw [← hx, h.1.tended.freshId i] at hs
      cases hs
  stir := by
    intro now _ r x f h hf
    refine ⟨⟨h.1.1.stir hf, ?_⟩, h.2.stir (fun _ _ _ ha s hx => s.profile.trans (ha hx)) hf⟩
    rw [isSome_get?_modifyTap]
    exact h.1.2
  turn := by
    intro now acts r x rest t u h hs ht hk
    obtain ⟨e, events, hm⟩ := exists_of_step? hk
    have hserving := h.1.1.tended.taps x t ht
    obtain ⟨-, -, hes⟩ := hserving.handle hm hk
    have hp : u.state.profile = t.advertiser.profile :=
      (Life.outcome_of_step? hserving.sound hm hk).2.profile
    refine ⟨⟨h.1.1.turn hs ht hk, ?_⟩,
      h.2.turn hs ht hk hm hes (fun hx => hp.trans (h.2.taps x t ht hx)) fun _ _ _ ha => ha⟩
    rw [Orderly.isSome_get?_stepTap ht hk]
    exact h.1.2

variable {c c' : Course σ}

/-- All that a tap has sent is its advertisement. -/
theorem Reachable.sends_advert {id : TapId} {p : Profile} (h : Reachable c)
    (hb : Bears id p c.responder) : ∀ data ∈ datagrams (actsOf id c.acts), data = p.advert := by
  obtain ⟨t, ht⟩ := Option.isSome_iff_exists.mp hb.1.2
  obtain ⟨l, hl, -, -, hacts, -⟩ := h.lives.2.taps id t ht
  rw [← hacts, ← hb.2.taps id t ht rfl]
  exact hl.sends_advert

/-- The tap that is put into service is the one that was made. -/
theorem Reachable.bears_add (h : Reachable c) {i : Int32} {t : Tap}
    (ht : (c.responder.build c.now i).2 = .ok t) :
    Bears (c.responder.freshId i) t.advertiser.profile (c.responder.add c.now i).1 := by
  have ho := h.attained.orderly
  obtain ⟨ha, hnew⟩ := c.responder.build_spec c.now i
  obtain ⟨p, hp⟩ := hnew t ht
  generalize hq : (c.responder.build c.now i).1 = q at ha
  have hid : q.freshId i = c.responder.freshId i := by rw [freshId, ha.taps, ← freshId]
  have hbuild : c.responder.build c.now i = (q, .ok t) := Prod.ext hq ht
  have hq : Orderly q := ho.aside ha
  rw [add_of_build hbuild, ← hid]
  refine ⟨⟨hq.install c.now i hp, ?_⟩, ?_⟩
  · exact ((Orderly.frame_install c.now i t q).2 _).mpr (Or.inl rfl)
  · have hnone : Tended (fun x a => x = q.freshId i → a.profile = t.advertiser.profile) q :=
      hq.tended.imp fun x u hu _ hx => by
        rw [hx, hq.tended.freshId i] at hu
        cases hu
    have hstable : Stable c.now
        fun x a => x = q.freshId i → a.profile = t.advertiser.profile :=
      fun _ _ _ ha s hx => s.profile.trans (ha hx)
    refine hnone.install hstable hp (hq.ne_freshId i) fun _ => ?_
    rw [hp]
    rfl

/-- A tap can be made if the link is known and there are routes of the main table through it, none
of them impossible. Its advertisement says what was found then, and nothing else is ever sent by it:
not by an advertiser in whatever surroundings, and not by a tap of the responder, whatever happens
to links, routes and other taps. Truncating a network of 64 bits a second time changes nothing. -/
theorem sends_snapshot (h : Reachable c) (i : Int32) :
    ((∃ t, (c.responder.build c.now i).2 = .ok t) ↔
      ∃ link routes, Found i c.responder.host link routes ∧
        (∃ r ∈ routes, r.table = 254 ∧ r.interface = link.index) ∧
        ∀ r ∈ routes, r.table = 254 → r.interface = link.index → r.length ≤ 128) ∧
    (∀ t, (c.responder.build c.now i).2 = .ok t →
      ∃ link routes, Found i c.responder.host link routes ∧
        Announces c.responder.timing.lifetime link.mac (routes.find? (·.isHost link.index))
          t.advertiser.profile.advert ∧
        (∀ l, Life.Reachable t.advertiser.profile l →
          ∀ data ∈ datagrams l.acts, data = t.advertiser.profile.advert) ∧
        ∀ c', Later (c.become (c.responder.add c.now i).1) c' →
          ∀ data ∈ datagrams (actsOf (c.responder.freshId i) c'.acts),
            data = t.advertiser.profile.advert) ∧
    (∀ id t, c.responder.taps.get? id = some t → ∀ c', Later c c' →
      ∀ data ∈ datagrams (actsOf id c'.acts), data = t.advertiser.profile.advert) ∧
    ∀ a : Address,
      PrefixInfo.networkPart 64 (Network.base ⟨a, 64, by decide⟩) =
        Network.base ⟨a, 64, by decide⟩ ∧
      PrefixInfo.networkPart 64 a = Network.base ⟨a, 64, by decide⟩ := by
  refine ⟨exists_build_iff, fun t ht => ?_, fun id t ht c' hl => ?_, fun a => ⟨?_, ?_⟩⟩
  · obtain ⟨link, routes, s, hf, hs, -, rfl⟩ := build_eq_ok_iff.mp ht
    refine ⟨link, routes, hf, ?_, fun l hl => hl.sends_advert, fun c' hl => ?_⟩
    · have hprefix := RouteSet.advertPrefix?_of_classify? hs
      have hann := announces_encode c.responder.timing.lifetime link.mac
        (routes.find? (·.isHost link.index))
      rwa [← hprefix] at hann
    · have hc : Reachable (c.become (c.responder.add c.now i).1) := h.step (.add i)
      exact (hc.later hl).sends_advert ((Invariant.bears _ _).later (h.bears_add ht) hl)
  · have hb : Bears id t.advertiser.profile c.responder := by
      have ho := h.attained.orderly
      refine ⟨⟨ho, by rw [ht]; rfl⟩, ho.tended.imp fun x u hu _ hx => ?_⟩
      subst hx
      rw [Option.some.inj (hu.symm.trans ht)]
    exact (h.later hl).sends_advert ((Invariant.bears _ _).later hb hl)
  · exact Network.networkPart_base_whole (k := 8) a (by decide)
  · exact Network.networkPart_whole (k := 8) a (by decide)

/-- A tap advertises the network around its host route as soon as it is served. -/
theorem sends_snapshot_of_host_route :
    ∃ c c' : Course Bench, Reachable c ∧ Later (c.become (c.responder.add c.now 5).1) c' ∧
      ∃ data ∈ datagrams (actsOf ⟨5, 0⟩ c'.acts),
        Announces 30 (some ⟨#v[2, 0, 0, 0, 0, 5]⟩)
          (some { length := 128, interface := 5, table := 254 }) data := by
  have sends (c : Course Bench) (h : Reachable c) (advert : Bytes)
      (hann : Announces 30 (some ⟨#v[2, 0, 0, 0, 0, 5]⟩)
        (some { length := 128, interface := 5, table := 254 }) advert)
      (hall : ∀ c', Later (c.become (c.responder.add c.now 5).1) c' →
        ∀ data ∈ datagrams (actsOf ⟨5, 0⟩ c'.acts), data = advert)
      (hne : (datagrams (actsOf ⟨5, 0⟩
        (c.become (c.responder.add c.now 5).1).drain.acts)).isEmpty = false) :
      ∃ c c' : Course Bench, Reachable c ∧ Later (c.become (c.responder.add c.now 5).1) c' ∧
        ∃ data ∈ datagrams (actsOf ⟨5, 0⟩ c'.acts),
          Announces 30 (some ⟨#v[2, 0, 0, 0, 0, 5]⟩)
            (some { length := 128, interface := 5, table := 254 }) data := by
    have hl : Later (c.become (c.responder.add c.now 5).1)
        (c.become (c.responder.add c.now 5).1).drain := (turns_spec _ .refl).2.2
    obtain ⟨data, hd⟩ := List.isEmpty_eq_false_iff_exists_mem.mp hne
    exact ⟨c, _, h, hl, data, hd, hall _ hl data hd ▸ hann⟩
  have start := Reachable.new (σ := Bench) 0
    { Bench.addLink { index := 5, mac := some ⟨#v[2, 0, 0, 0, 0, 5]⟩ } {} with
      routes := [{ length := 128, interface := 5, table := 254 }] } {}
    fun _ => true
  obtain ⟨hmade, hsends, -⟩ := sends_snapshot start 5
  obtain ⟨t, ht⟩ := hmade.mpr ⟨{ index := 5, mac := some ⟨#v[2, 0, 0, 0, 0, 5]⟩ },
    [{ length := 128, interface := 5, table := 254 }], ⟨rfl, rfl⟩,
    ⟨_, List.mem_singleton_self _, rfl, rfl⟩, by decide⟩
  obtain ⟨link, routes, hf, hann, -, hlater⟩ := hsends t ht
  have hlink : link = { index := 5, mac := some ⟨#v[2, 0, 0, 0, 0, 5]⟩ } :=
    (Except.ok.inj hf.link).symm
  have hroutes : routes = [{ length := 128, interface := 5, table := 254 }] :=
    (Except.ok.inj hf.routes).symm
  have hfind : routes.find? (·.isHost link.index) =
      some { length := 128, interface := 5, table := 254 } := by
    rw [hlink, hroutes]
    decide
  rw [hfind, hlink] at hann
  exact sends _ start _ hann hlater (by decide +kernel)

end Course

end RouterAdvert
