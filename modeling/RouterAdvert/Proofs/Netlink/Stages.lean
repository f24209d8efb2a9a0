import Mathlib.Data.List.Basic
import RouterAdvert.Proofs.Netlink.Collecting

/-! Questions step by step. A question goes through its stages up to the first that fails, with the
error of that one, and the error code tells exactly whether there is an answer. What the caller sees
does not depend on what the variable for the code held before. -/
namespace RouterAdvert.Netlink.Query

variable {α : Type} {s : UInt32}

/-- The stages of receives: all succeed, but the last one may fail. -/
def receives (n : Nat) (failed : Option ErrorCode) : List (Stage × Option ErrorCode) :=
  List.replicate n (.received, none) ++ failed.toList.map fun e => (.received, some e)

theorem cons_receives (n : Nat) (failed : Option ErrorCode) :
    (.received, none) :: receives n failed = receives (n + 1) failed := rfl

/-- How many receives succeed before one fails. -/
def succeeding : List Reply → Nat
  | [] => 0
  | .ok _ :: rest => succeeding rest + 1
  | .error e :: rest => if e = 0 then succeeding rest + 1 else 0

/-- Nothing but receives is added to the stages, and the first that fails is the last one. -/
def Receives (replies : List Reply) (code : Option ErrorCode)
    (stages stages' : List (Stage × Option ErrorCode)) : Prop :=
  ∃ n failed, stages' = stages ++ receives n failed ∧ n ≤ succeeding replies ∧
    ∀ e, failed = some e → n = succeeding replies ∧ e = failure replies ∧ code = some e

theorem Receives.cons {reply : Reply} {rest : List Reply} {code : Option ErrorCode}
    {stages stages' : List (Stage × Option ErrorCode)}
    (hs : succeeding (reply :: rest) = succeeding rest + 1)
    (hf : failure (reply :: rest) = failure rest)
    (h : Receives rest code (stages ++ [(.received, none)]) stages') :
    Receives (reply :: rest) code stages stages' := by
  obtain ⟨n, failed, hstages, hn, he⟩ := h
  unfold Receives
  rw [hs, hf]
  refine ⟨n + 1, failed, ?_, by omega, fun e h => ?_⟩
  · rw [hstages, List.append_assoc, List.singleton_append, cons_receives]
  · obtain ⟨hlast, hcode⟩ := he e h
    exact ⟨by omega, hcode⟩

/-- The code tells whether there is an answer, once the question comes back. -/
structure Finding.Sound (f : Finding α) : Prop where
  answered : ∀ b, f.answered = some b → b = f.state.code.isNone
  astray : f.answered = none → f.state.code = none

theorem Finding.Sound.of_answered {f : Finding α} {b : Bool} (h : f.answered = some b)
    (hb : b = f.state.code.isNone) : f.Sound where
  answered _ hc := (Option.some.inj (h.symm.trans hc)).symm.trans hb
  astray hnone := absurd (h.symm.trans hnone) (Option.some_ne_none b)

theorem Finding.Sound.of_astray {f : Finding α} (h : f.answered = none)
    (hcode : f.state.code = none) : f.Sound where
  answered b hb := absurd (hb.symm.trans h) (Option.some_ne_none b)
  astray _ := hcode

theorem receiveAll_spec (dump : Bool) (s : UInt32) (keep : α → Message → α)
    (replies : List Reply) (buffer : Bytes) (v : Variables α) :
    let f := receiveAll dump s keep buffer replies v
    f.Sound ∧ Receives replies f.state.code v.stages f.state.stages := by
  induction replies generalizing buffer v with
  | nil =>
    refine ⟨.of_answered rfl rfl, 0, some (.system Errno.wouldBlock), rfl, Nat.le_refl 0,
      fun e he => ?_⟩
    exact ⟨rfl, (Option.some.inj he).symm, he⟩
  | cons reply rest ih =>
    cases reply with
    | error e =>
      by_cases he : e = 0
      · subst he
        obtain ⟨hsound, hs⟩ := ih buffer (v.pass .received none)
        exact ⟨hsound, hs.cons rfl rfl⟩
      · have hcode : ErrorCode.ofErrno? e = some (.system e) := if_neg he
        have hs : succeeding (.error e :: rest) = 0 := if_neg he
        have hf : failure (.error e :: rest) = .system e := if_neg he
        have hr : receiveAll dump s keep buffer (.error e :: rest) v =
            { state := v.pass .received (some (.system e)), answered := some false,
              unread := rest } := by
          rw [receiveAll, hcode]
          rfl
        rw [hr]
        refine ⟨.of_answered rfl rfl, 0, some (.system e), rfl, Nat.zero_le _,
          fun x hx => ?_⟩
        exact ⟨hs.symm, by rw [hf, Option.some.inj hx], hx⟩
    | ok d =>
      simp only [receiveAll, handle_eq]
      generalize absorb dump s (Message.walk (overlay buffer d)
        (min d.length bufferSize).toUInt64).visited = a
      obtain ⟨found, progress⟩ := a
      have hreceived (code : Option ErrorCode) : Receives (.ok d :: rest) code v.stages
          (v.stages ++ [(.received, none)]) :=
        ⟨1, none, rfl, Nat.le_add_left 1 _, fun e he => absurd he (Option.some_ne_none e).symm⟩
      cases progress with
      | unfinished =>
        dsimp only [Progress.verdict?]
        split
        · obtain ⟨hsound, hs⟩ := ih (overlay buffer d)
            { v.pass .received none with value := found.foldl keep v.value }
          exact ⟨hsound, hs.cons rfl rfl⟩
        · exact ⟨.of_astray rfl rfl, hreceived _⟩
      | answered => exact ⟨.of_answered rfl rfl, hreceived _⟩
      | refused e => exact ⟨.of_answered rfl rfl, hreceived _⟩

/-- What stages show of the use of a socket. -/
def calls (stages : List (Stage × Option ErrorCode)) : List (SocketCall × Option ErrorCode) :=
  stages.filterMap fun (stage, e) => stage.call?.map (·, e)

theorem stage_of_mem_receives {n : Nat} {failed : Option ErrorCode}
    {p : Stage × Option ErrorCode} (h : p ∈ receives n failed) : p.1 = .received := by
  rcases List.mem_append.mp h with h | h
  · exact congrArg Prod.fst (List.eq_of_mem_replicate h)
  · obtain ⟨_, -, h⟩ := List.mem_map.mp h
    exact (congrArg Prod.fst h).symm

/-- How a question goes: its stages up to the first that fails, its error, and the number that the
next question gets. -/
inductive Staged (r : Request) (x : Exchange) (s : UInt32) :
    List (Stage × Option ErrorCode) → Option ErrorCode → UInt32 → Prop
  | opening (h : x.openErrno ≠ 0) : Staged r x s
      [(.opened, some (.system x.openErrno))] (some (.system x.openErrno)) s
  | binding (ho : x.openErrno = 0) (h : x.bindErrno ≠ 0) : Staged r x s
      [(.opened, none), (.bound, some (.system x.bindErrno))] (some (.system x.bindErrno)) s
  | sending (ho : x.openErrno = 0) (hb : x.bindErrno = 0) (h : x.sendErrno ≠ 0) : Staged r x s
      [(.opened, none), (.bound, none), (.sent (r.encode s), some (.system x.sendErrno))]
      (some (.system x.sendErrno)) (s + 1)
  | receiving {replies : List Reply} {stages : List (Stage × Option ErrorCode)}
      {code : Option ErrorCode} (hx : x.Delivers (r.encode s) replies)
      (h : Receives replies code [(.opened, none), (.bound, none), (.sent (r.encode s), none)]
        stages) : Staged r x s stages code (s + 1)

/-- An answer brings no more stages, whatever is made of it. -/
theorem Staged.of_answered {r : Request} {x : Exchange} {stages : List (Stage × Option ErrorCode)}
    {next : UInt32} (h : Staged r x s stages none next) (code : Option ErrorCode) :
    Staged r x s stages code next := by
  generalize hnone : (none : Option ErrorCode) = c at h
  cases h with
  | opening h => cases hnone
  | binding ho h => cases hnone
  | sending ho hb h => cases hnone
  | receiving hx h =>
    subst hnone
    obtain ⟨n, failed, hstages, hn, he⟩ := h
    refine .receiving hx ⟨n, failed, hstages, hn, fun e hf => ?_⟩
    obtain ⟨-, -, hcode⟩ := he e hf
    cases hcode

/-- The uses of a socket are the calls with the error numbers that they came to. -/
theorem calls_eq {stages : List (Stage × Option ErrorCode)}
    (h : ∀ p ∈ stages, p.1 = .received ∨ ErrorCode.ofErrno? ((p.2.map (·.value)).getD 0) = p.2) :
    calls stages = (stages.filterMap fun (stage, e) => stage.use? e).map
      fun u => (u.call, ErrorCode.ofErrno? u.errno) := by
  rw [calls, List.map_filterMap]
  refine List.filterMap_congr fun p hp => ?_
  obtain ⟨stage, e⟩ := p
  rcases h _ hp with rfl | he
  · rfl
  · unfold Stage.use?
    rw [Option.map_map]
    refine congrArg (stage.call?.map ·) (funext fun call => ?_)
    exact congrArg (call, ·) he.symm

theorem Staged.calls_eq {r : Request} {x : Exchange} {stages : List (Stage × Option ErrorCode)}
    {code : Option ErrorCode} {next : UInt32} (h : Staged r x s stages code next) :
    calls stages = (stages.filterMap fun (stage, e) => stage.use? e).map
      fun u => (u.call, ErrorCode.ofErrno? u.errno) := by
  have hzero : ErrorCode.ofErrno? 0 = none := rfl
  have hfailed {errno : Int32} (he : errno ≠ 0) :
      ErrorCode.ofErrno? errno = some (.system errno) := if_neg he
  apply Query.calls_eq
  cases h with
  | opening h => simp [ErrorCode.system, hfailed h]
  | binding ho h => simp [ErrorCode.system, hzero, hfailed h]
  | sending ho hb h => simp [ErrorCode.system, hzero, hfailed h]
  | receiving hx h =>
    obtain ⟨n, failed, rfl, -⟩ := h
    intro p hp
    rcases List.mem_append.mp hp with hp | hp
    · have hfront : ∀ p ∈ [(Stage.opened, none), (.bound, none), (.sent (r.encode s), none)],
          p.1 = .received ∨ ErrorCode.ofErrno? ((p.2.map (·.value)).getD 0) = p.2 := by
        simp [hzero]
      exact hfront p hp
    · exact Or.inl (stage_of_mem_receives hp)

/-- The stages of a question, its error and the next number go with an outcome of asking. -/
structure Follows {β : Type} (r : Request) (x : Exchange) (s : UInt32)
    (stages : List (Stage × Option ErrorCode)) (code : Option ErrorCode) (next : UInt32)
    (o : Outcome β) : Prop where
  staged : Staged r x s stages code next
  calls : calls stages = o.uses.map fun u => (u.call, ErrorCode.ofErrno? u.errno)
  next : next = o.nextSequence

/-- Whatever the code was before, the first stage sets it. -/
theorem request_spec (r : Request) (keep : α → Message → α) (x : Exchange) (s : UInt32)
    (code : Option ErrorCode) (value : α) :
    let (f, next) := request r keep x s ⟨code, value, []⟩
    f.Sound ∧ Staged r x s f.state.stages f.state.code next ∧
      ((∀ d ∈ datagrams (x.replies (r.encode s)), ¬Message.EndsUnpadded d) →
        f.answered.isSome) := by
  have hzero : ErrorCode.ofErrno? 0 = none := rfl
  have hfailed {errno : Int32} (he : errno ≠ 0) :
      ErrorCode.ofErrno? errno = some (.system errno) := if_neg he
  have hsound (v : Variables α) (hv : v.code.isSome) :
      Finding.Sound { state := v, answered := some false } :=
    .of_answered rfl (by simpa using hv)
  by_cases ho : x.openErrno = 0
  · by_cases hb : x.bindErrno = 0
    · by_cases hs : x.sendErrno = 0
      · simp only [request, Variables.pass, ho, hb, hs, hzero]
        obtain ⟨hf, hr⟩ := receiveAll_spec r.isDump s keep (x.replies (r.encode s))
          (List.replicate bufferSize 0)
          ⟨none, value, [(.opened, none), (.bound, none), (.sent (r.encode s), none)]⟩
        exact ⟨hf, .receiving ⟨ho, hb, hs, rfl⟩ hr, fun h =>
          isSome_receiveAll r.isDump s keep h List.length_replicate _⟩
      · simp only [request, Variables.pass, ho, hb, hzero, hfailed hs]
        exact ⟨hsound _ rfl, .sending ho hb hs, fun _ => rfl⟩
    · simp only [request, Variables.pass, ho, hzero, hfailed hb]
      exact ⟨hsound _ rfl, .binding ho hb, fun _ => rfl⟩
  · simp only [request, Variables.pass, hfailed ho]
    exact ⟨hsound _ rfl, .opening ho, fun _ => rfl⟩

def errorOf? {β : Type} : Except ErrorCode β → Option ErrorCode
  | .error e => some e
  | .ok _ => none

/-- A question comes back if there is a result, and shows it as a value beside a code. -/
structure Tells {β : Type} (value : Except ErrorCode β → α) (r : Request) (x : Exchange)
    (s : UInt32) (g : Returned α) (o : Outcome β) : Prop
    extends Follows r x s g.stages g.code g.nextSequence o where
  returns : g.returns = o.result.isSome
  value : ∀ a, o.result = some a → g.value = value a
  code : ∀ a, o.result = some a → g.code = errorOf? a

/-- What a question about a link comes back with: no code exactly if there is a link. -/
theorem getLink_spec (index : Int32) (x : Exchange) (s : UInt32) (code : Option ErrorCode) :
    let g := getLink index x s code
    Staged (.link index) x s g.stages g.code g.nextSequence ∧
      (g.returns = true → (g.value.isSome ↔ g.code = none)) ∧
      (g.returns = false → g.value = none ∧ g.code = none) ∧
      ((∀ d ∈ datagrams (x.replies ((Request.link index).encode s)), ¬Message.EndsUnpadded d) →
        g.returns = true) := by
  have hspec := request_spec (.link index) (fun _ m => LinkMessage.decode? m) x s code none
  unfold getLink
  generalize request (.link index) (fun _ m => LinkMessage.decode? m) x s ⟨code, none, []⟩ = v
    at hspec
  obtain ⟨⟨⟨code, value, stages⟩, answered, unread⟩, next⟩ := v
  obtain ⟨⟨hanswered, hastray⟩, hstaged, hreturns⟩ := hspec
  match answered with
  | none => exact ⟨hstaged, nofun, fun _ => ⟨rfl, hastray rfl⟩, hreturns⟩
  | some false =>
    have hcode : code ≠ none := fun hc => by simpa [hc] using hanswered false rfl
    exact ⟨hstaged, fun _ => iff_of_false nofun hcode, nofun, fun _ => rfl⟩
  | some true =>
    obtain rfl : code = none := by simpa using hanswered true rfl
    cases value with
    | some l => exact ⟨hstaged, fun _ => iff_of_true rfl rfl, nofun, fun _ => rfl⟩
    -- All stages went well, and still there is no link.
    | none => exact ⟨hstaged.of_answered _, fun _ => iff_of_false nofun nofun, nofun, fun _ => rfl⟩

theorem getRoutes_spec (x : Exchange) (s : UInt32) (code : Option ErrorCode) :
    let g := getRoutes x s code
    Staged .routes x s g.stages g.code g.nextSequence ∧
      (g.code ≠ none ∨ g.returns = false → g.value = []) ∧
      (g.returns = false → g.code = none) ∧
      ((∀ d ∈ datagrams (x.replies (Request.routes.encode s)), ¬Message.EndsUnpadded d) →
        g.returns = true) := by
  have hspec := request_spec .routes (fun rs m => rs ++ (RouteMessage.decode? m).toList) x s code []
  unfold getRoutes
  generalize request .routes (fun rs m => rs ++ (RouteMessage.decode? m).toList) x s
    ⟨code, [], []⟩ = v at hspec
  obtain ⟨⟨⟨code, value, stages⟩, answered, unread⟩, next⟩ := v
  obtain ⟨⟨hanswered, hastray⟩, hstaged, hreturns⟩ := hspec
  match answered with
  | none => exact ⟨hstaged, fun _ => rfl, fun _ => hastray rfl, hreturns⟩
  | some false => exact ⟨hstaged, fun _ => rfl, nofun, fun _ => rfl⟩
  | some true =>
    obtain rfl : code = none := by simpa using hanswered true rfl
    exact ⟨hstaged, fun h => h.elim (absurd rfl) nofun, nofun, fun _ => rfl⟩

/-- What the caller sees does not depend on what the code was before. -/
theorem getLink_tells (index : Int32) (x : Exchange) (s : UInt32) (code : Option ErrorCode) :
    Tells Except.toOption (.link index) x s (getLink index x s code) (link index x s) := by
  have hcode : getLink index x s code = getLink index x s none := rfl
  obtain ⟨hstaged, hback, hastray, -⟩ := getLink_spec index x s none
  rw [hcode]
  unfold link
  generalize getLink index x s none = g at hstaged hback hastray
  obtain ⟨value, code, returns, stages, unread, next⟩ := g
  have hcalls := hstaged.calls_eq
  cases returns with
  | false =>
    obtain ⟨rfl, rfl⟩ := hastray rfl
    exact ⟨⟨hstaged, hcalls, rfl⟩, rfl, nofun, nofun⟩
  | true =>
    cases value with
    | some l =>
      obtain rfl : code = none := (hback rfl).mp rfl
      exact ⟨⟨hstaged, hcalls, rfl⟩, rfl, fun a ha => Option.some.inj ha ▸ rfl,
        fun a ha => Option.some.inj ha ▸ rfl⟩
    | none =>
      cases code with
      | some e =>
        exact ⟨⟨hstaged, hcalls, rfl⟩, rfl, fun a ha => Option.some.inj ha ▸ rfl,
          fun a ha => Option.some.inj ha ▸ rfl⟩
      | none => cases (hback rfl).mpr rfl

theorem getRoutes_tells (x : Exchange) (s : UInt32) (code : Option ErrorCode) :
    Tells (·.toOption.getD []) .routes x s (getRoutes x s code) (routes x s) := by
  have hcode : getRoutes x s code = getRoutes x s none := rfl
  obtain ⟨hstaged, hempty, -, -⟩ := getRoutes_spec x s none
  rw [hcode]
  unfold routes
  generalize getRoutes x s none = g at hstaged hempty
  obtain ⟨value, code, returns, stages, unread, next⟩ := g
  have hcalls := hstaged.calls_eq
  cases returns with
  | false => exact ⟨⟨hstaged, hcalls, rfl⟩, rfl, nofun, nofun⟩
  | true =>
    cases code with
    | some e =>
      obtain rfl : value = [] := hempty (Or.inl nofun)
      exact ⟨⟨hstaged, hcalls, rfl⟩, rfl, fun a ha => Option.some.inj ha ▸ rfl,
        fun a ha => Option.some.inj ha ▸ rfl⟩
    | none =>
      exact ⟨⟨hstaged, hcalls, rfl⟩, rfl, fun a ha => Option.some.inj ha ▸ rfl,
        fun a ha => Option.some.inj ha ▸ rfl⟩

end RouterAdvert.Netlink.Query
