import RouterAdvert.Proofs.Netlink.Stages

/-! What the kernel's replies say. A dump is answered by all messages up to the one that ends it, a
question about one link by the first message that says something. -/
namespace RouterAdvert.Netlink

namespace RouteMessage

theorem decode?_eq_none {m : Message} (h : m.type ≠ Message.newRoute) : decode? m = none :=
  if_neg fun hm => h hm.1

theorem decode?_of_idle {m : Message} (h : m.Idle) : decode? m = none := by
  apply decode?_eq_none
  rcases h with h | h <;> rw [h] <;> decide

theorem length_of_extend? {a : Attribute} {r r' : Route} (h : extend? r a = some r') :
    r'.length = r.length := by
  unfold extend? at h
  split at h
  · split at h
    · rw [← Option.some.inj h]
    · cases h
  · split at h
    · split at h <;> rw [← Option.some.inj h]
    · split at h
      · split at h <;> rw [← Option.some.inj h]
      · rw [← Option.some.inj h]

/-- A message that reads as a route gives a possible length. -/
theorem length_le_of_decode? {m : Message} {r : Route} (h : decode? m = some r) :
    r.length ≤ 128 := by
  have hfold (as : List Attribute) (q : Route) (hq : as.foldlM extend? q = some r) :
      r.length = q.length := by
    induction as generalizing q with
    | nil => exact congrArg Route.length (Option.some.inj hq).symm
    | cons a as ih =>
      rw [List.foldlM_cons, Option.bind_eq_bind, Option.bind_eq_some_iff] at hq
      obtain ⟨q', ha, hq'⟩ := hq
      exact (ih q' hq').trans (length_of_extend? ha)
  unfold decode? at h
  dsimp only at h
  split at h
  · rename_i hm
    rw [hfold _ _ h]
    exact hm.2.2.2
  · cases h

end RouteMessage

namespace Query

variable {x : Exchange} {s : UInt32} {replies : List Reply}

theorem sequence_of_mem_addressed {m : Message} (h : m ∈ addressed s replies) : m.sequence = s := by
  simpa using (List.mem_filter.mp h).2

/-- An answer is what the messages to the question alone leave. -/
theorem request_of_delivers {α : Type} {r : Request} {keep : α → Message → α}
    (hk : KeepsInside keep) (hx : x.Delivers (r.encode s) replies) (hr : Readable replies)
    (code : Option ErrorCode) (value : α) :
    let f := (request r keep x s ⟨code, value, []⟩).1
    let a := absorb r.isDump s (addressed s replies)
    f.state.value = a.1.foldl keep value ∧ f.state.code = a.2.error? (failure replies) ∧
      f.answered = some (a.2.error? (failure replies)).isNone := by
  have hzero : ErrorCode.ofErrno? 0 = none := rfl
  obtain ⟨hopened, hbound, hsent, rfl⟩ := hx
  rw [addressed, absorb_filter]
  simp only [request, Variables.pass, hopened, hbound, hsent, hzero]
  exact receiveAll_of_readable r.isDump s hk hr List.length_replicate _

/-- Taking over what each message says, one by one, is reading all of them at the end. -/
theorem foldl_decode? (found : List Message) (rs : List Route) :
    found.foldl (fun rs m => rs ++ (RouteMessage.decode? m).toList) rs =
      rs ++ found.filterMap RouteMessage.decode? := by
  induction found generalizing rs with
  | nil => exact (List.append_nil rs).symm
  | cons m found ih =>
    rw [List.foldl_cons, ih, List.filterMap_cons]
    cases RouteMessage.decode? m with
    | none => simp
    | some r => simp

/-- No route of an answer has an impossible length. -/
theorem length_le_of_routes {rs : List Route} (h : (routes x s).result = some (.ok rs)) :
    ∀ r ∈ rs, r.length ≤ 128 := by
  have hkeep (rs : List Route) (m : Message) (hrs : ∀ r ∈ rs, r.length ≤ 128) :
      ∀ r ∈ rs ++ (RouteMessage.decode? m).toList, r.length ≤ 128 := by
    intro r hr
    rcases List.mem_append.mp hr with hr | hr
    · exact hrs r hr
    · exact RouteMessage.length_le_of_decode? (Option.mem_toList.mp hr)
  have hrequest : ∀ r ∈ (request .routes (fun rs m => rs ++ (RouteMessage.decode? m).toList) x s
      ⟨none, [], []⟩).1.state.value, r.length ≤ 128 := by
    unfold request
    dsimp only
    split
    · exact nofun
    · split
      · exact nofun
      · split
        · exact nofun
        · exact receiveAll_value hkeep _ _ _ _ nofun
  have hvalue : ∀ r ∈ (getRoutes x s none).value, r.length ≤ 128 := by
    unfold getRoutes
    dsimp only
    split
    · exact hrequest
    · exact nofun
  unfold routes at h
  dsimp only [Returned.outcome] at h
  split at h
  · split at h
    · cases h
    · rwa [← Except.ok.inj (Option.some.inj h)]
  · cases h

/-- Messages that do not end a dump contribute their routes. -/
theorem absorb_of_open {ms : List Message} (h : ∀ m ∈ ms, m.sequence = s ∧ ¬m.Concludes) :
    (absorb true s ms).2 = .unfinished ∧
      (absorb true s ms).1.filterMap RouteMessage.decode? =
        ms.filterMap RouteMessage.decode? := by
  induction ms with
  | nil => exact ⟨rfl, rfl⟩
  | cons m ms ih =>
    obtain ⟨hs, hc⟩ := h m List.mem_cons_self
    have hrest := ih fun x hx => h x (List.mem_cons_of_mem m hx)
    by_cases hi : m.Idle
    · rw [absorb_of_passed (Or.inr hi), List.filterMap_cons, RouteMessage.decode?_of_idle hi]
      exact hrest
    · rw [absorb_of_contributes hs hc hi, if_pos rfl]
      refine ⟨hrest.1, ?_⟩
      rw [List.filterMap_cons, List.filterMap_cons, hrest.2]

theorem result_routes (hx : x.Delivers (Request.routes.encode s) replies)
    (hr : Readable replies) : (routes x s).result = some (
      match (absorb true s (addressed s replies)).2.error? (failure replies) with
      | some e => .error e
      | none => .ok ((absorb true s (addressed s replies)).1.filterMap RouteMessage.decode?)) := by
  have hspec := request_of_delivers keepsInside_routes hx hr none []
  have hdump : Request.routes.isDump = true := rfl
  rw [hdump] at hspec
  obtain ⟨hvalue, hcode, hanswered⟩ := hspec
  rw [foldl_decode?, List.nil_append] at hvalue
  unfold routes getRoutes
  dsimp only
  rw [hanswered, hvalue, hcode]
  cases (absorb true s (addressed s replies)).2.error? (failure replies) with
  | some e => simp [Returned.outcome, Finding.returned, hanswered]
  | none => simp [Returned.outcome, Finding.returned, hanswered]

/-- The answer to a dump of the routes are the routes of all messages before the one that ends it;
a refusal, or the end of the replies before that, leaves no routes at all. Nothing else counts: not
how the messages are grouped, nor what others are received, nor what comes behind. -/
theorem routes_decided (hx : x.Delivers (Request.routes.encode s) replies)
    (hr : Readable replies) :
    (∀ before m after, addressed s replies = before ++ m :: after →
      (∀ y ∈ before, ¬y.Concludes) →
        (m.Completes →
          (routes x s).result = some (.ok (before.filterMap RouteMessage.decode?))) ∧
        (m.Refuses → (routes x s).result = some (.error (.system (-m.errno))))) ∧
    ((∀ y ∈ addressed s replies, ¬y.Concludes) →
      (routes x s).result = some (.error (failure replies))) ∧
    (∀ m : Message, m.Idle → RouteMessage.decode? m = none) ∧
    ∀ x' replies', Exchange.Delivers x' (Request.routes.encode s) replies' → Readable replies' →
      addressed s replies' = addressed s replies → failure replies' = failure replies →
        (routes x' s).result = (routes x s).result := by
  have hresult := result_routes hx hr
  have hs (m : Message) (hm : m ∈ addressed s replies) := sequence_of_mem_addressed hm
  refine ⟨fun before m after hms hb => ?_, fun hopen => ?_, fun m => RouteMessage.decode?_of_idle,
    fun x' replies' hx' hr' hms hf => ?_⟩
  · rw [hms] at hs
    obtain ⟨hp, hfound⟩ := absorb_of_open fun y hy => ⟨hs y (List.mem_append_left _ hy), hb y hy⟩
    have hm : m.sequence = s := hs m (List.mem_append_right _ List.mem_cons_self)
    rw [hms, absorb_append, if_pos hp] at hresult
    constructor
    · intro hc
      simp only [absorb_of_completes hm hc, List.append_nil, hfound, Progress.error?] at hresult
      exact hresult
    · intro hc
      simp only [absorb_of_refuses hm hc, Progress.error?] at hresult
      exact hresult
  · obtain ⟨hp, -⟩ := absorb_of_open fun y hy => ⟨hs y hy, hopen y hy⟩
    rw [hp] at hresult
    exact hresult
  · rw [result_routes hx' hr', hms, hf, hresult]

def hostRoute : Route := { length := 128, interface := 5, table := 254 }

/-- A late refusal of question 6, then the answer to question 7 in two datagrams, with one more
route behind its end. -/
def twoDatagrams : List Reply :=
  [.ok (Message.encode Message.error 0 6 (Bytes.ofLe32 (-13 : Int32).toUInt32) ++
      RouteMessage.encode 7 hostRoute),
    .ok (Message.encode Message.done 0 7 [] ++ RouteMessage.encode 7 {})]

/-- A route, then the refusal of question 7. -/
def refusal : List Reply :=
  [.ok (RouteMessage.encode 7 hostRoute ++
    Message.encode Message.error 0 7 (Bytes.ofLe32 (-13 : Int32).toUInt32))]

theorem routes_of_two_datagrams :
    Readable twoDatagrams ∧ Readable refusal ∧
      (routes { replies := fun _ => twoDatagrams } 7).result = some (.ok [hostRoute]) ∧
      (routes { replies := fun _ => refusal } 7).result = some (.error (.system 13)) := by
  have hr : Readable twoDatagrams := by
    constructor <;> decide +kernel
  have hr' : Readable refusal := by
    constructor <;> decide +kernel
  have hms : addressed 7 twoDatagrams =
      [⟨RouteMessage.encode 7 hostRoute⟩] ++ ⟨Message.encode Message.done 0 7 []⟩ ::
        [⟨RouteMessage.encode 7 {}⟩] := by
    decide +kernel
  have hms' : addressed 7 refusal =
      [⟨RouteMessage.encode 7 hostRoute⟩] ++
        ⟨Message.encode Message.error 0 7 (Bytes.ofLe32 (-13 : Int32).toUInt32)⟩ :: [] := by
    decide +kernel
  have hx : Exchange.Delivers { replies := fun _ => twoDatagrams } (Request.routes.encode 7)
      twoDatagrams := ⟨rfl, rfl, rfl, rfl⟩
  have hx' : Exchange.Delivers { replies := fun _ => refusal } (Request.routes.encode 7)
      refusal := ⟨rfl, rfl, rfl, rfl⟩
  obtain ⟨hdecided, -⟩ := routes_decided hx hr
  obtain ⟨hdecided', -⟩ := routes_decided hx' hr'
  have hopen : ∀ y ∈ [Message.mk (RouteMessage.encode 7 hostRoute)], ¬y.Concludes := by
    intro y hy
    rw [List.mem_singleton.mp hy, Message.not_concludes_iff]
    decide +kernel
  have hroutes : [Message.mk (RouteMessage.encode 7 hostRoute)].filterMap RouteMessage.decode? =
      [hostRoute] := by
    decide +kernel
  obtain ⟨hdone, -⟩ := hdecided _ _ _ hms hopen
  obtain ⟨-, hrefused⟩ := hdecided' _ _ _ hms' hopen
  rw [hroutes] at hdone
  refine ⟨hr, hr', hdone (Or.inl (by decide +kernel)), ?_⟩
  exact hrefused ⟨by decide +kernel, by decide +kernel⟩

end Query

end RouterAdvert.Netlink
