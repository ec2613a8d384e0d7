import Unroxy.Proxy.Serving

/-!
Owns the runs of the server: what was done for every request, at every moment, is
what it asks for.

Does not own the steps.
-/

namespace Unroxy.Proxy

open Unroxy.Lib

variable {τ ρ : Type}

/-! ### What is done for a request -/

namespace Upstream.Call

variable {call : Call τ ρ} {chosen : List (Candidate τ)}

/-- The latest transmission was one to this exit. -/
def SentTo (call : Call τ ρ) (candidate : Candidate τ) : Prop :=
  ∃ latest ∈ call.transmissions.head?, latest.exit = candidate

/-- The exits that were sent something were chosen, and so was the one that is under
way; the one that answers was sent something last. -/
structure Under (chosen : List (Candidate τ)) (call : Call τ ρ) : Prop where
  sent : ∀ transmission ∈ call.transmissions, transmission.exit ∈ chosen
  building : ∀ candidate, call.phase = .building candidate → candidate ∈ chosen
  sending : ∀ candidate, call.phase = .sending candidate →
    candidate ∈ chosen ∧ call.SentTo candidate
  responded : ∀ candidate response, call.phase = .done (.ok (candidate, response)) →
    candidate ∈ chosen ∧ call.SentTo candidate

theorem under_new (request : Request) : (new request : Call τ ρ).Under [] where
  sent _ among := absurd among List.not_mem_nil
  building _ atPhase := by cases atPhase
  sending _ atPhase := by cases atPhase
  responded _ _ atPhase := by cases atPhase

theorem Under.refuse (under : call.Under chosen) : call.refuse.Under chosen where
  sent := under.sent
  building _ atPhase := by cases atPhase
  sending _ atPhase := by cases atPhase
  responded _ _ atPhase := by cases atPhase

theorem Under.select (under : call.Under chosen) (candidate : Candidate τ)
    (candidates : List (Candidate τ)) :
    (call.select candidate candidates).Under (candidate :: chosen) where
  sent transmission among := List.mem_cons_of_mem _ (under.sent transmission among)
  building _ atPhase := by
    cases atPhase
    exact List.mem_cons_self
  sending _ atPhase := by cases atPhase
  responded _ _ atPhase := by cases atPhase

/-- The attempt is over, with these exits tried. -/
theorem Under.retry (under : call.Under chosen) (tried : List String) (error : Error) :
    ({ call with tried }.retry error).Under chosen := by
  unfold Call.retry
  by_cases more : call.attempt + 1 < call.request.attempts
  · rw [if_pos more]
    constructor
    · exact under.sent
    · simp
    · simp
    · simp
  · rw [if_neg more]
    constructor
    · exact under.sent
    · simp
    · simp
    · simp

theorem Under.client (under : call.Under chosen) (failed : Option Error) :
    (call.step (fun _ => failed) .client).Under chosen := by
  cases atPhase : call.phase with
  | building candidate =>
      have stepped : call.step (fun _ => failed) .client =
          call.client (fun _ => failed) candidate := by
        simp [Call.step, atPhase]
      rw [stepped]
      cases failed with
      | some error => exact under.retry call.tried error
      | none =>
          have among := under.building candidate atPhase
          have sent : (call.send candidate).SentTo candidate := ⟨_, rfl, rfl⟩
          exact
            { sent := fun transmission there => by
                rcases List.mem_cons.mp there with rfl | old
                · exact among
                · exact under.sent transmission old
              building := fun _ other => by cases other
              sending := fun _ other => by
                cases other
                exact ⟨among, sent⟩
              responded := fun _ _ other => by cases other }
  | selecting => simpa [Call.step, atPhase] using under
  | sending candidate => simpa [Call.step, atPhase] using under
  | done result => simpa [Call.step, atPhase] using under

theorem Under.reply (under : call.Under chosen) (outcome : Except Error ρ) :
    (call.step (fun _ => none) (.reply outcome)).Under chosen := by
  cases atPhase : call.phase with
  | sending candidate =>
      have stepped : call.step (fun _ => none) (.reply outcome) = call.reply candidate outcome := by
        simp [Call.step, atPhase]
      rw [stepped]
      cases outcome with
      | error error => exact under.retry _ error
      | ok response =>
          exact
            { sent := under.sent
              building := fun _ other => by cases other
              sending := fun _ other => by cases other
              responded := fun _ _ other => by
                cases other
                exact under.sending candidate atPhase }
  | selecting => simpa [Call.step, atPhase] using under
  | building candidate => simpa [Call.step, atPhase] using under
  | done result => simpa [Call.step, atPhase] using under

end Upstream.Call

namespace Exchange

/-- Where an exchange can be, with what was done for it. -/
inductive Course (crates : Crates) (exchange : Exchange τ ρ) : Prop where
  | index {host : String} (atStage : exchange.stage = .answered (.index host))
      (unchosen : exchange.choices = []) (undialed : exchange.dials = [])
  | refused {error : HandleError} (atStage : exchange.stage = .answered (.refused error))
      (early : error.status = 400 ∨ error.status = 501 ∨ error = .unknownRegion)
      (unchosen : exchange.choices = []) (undialed : exchange.dials = [])
  | picking {pool : PoolId} {host : String} {port : UInt16}
      (atStage : exchange.stage = .picking pool host port)
      (connects : exchange.Connects host port) (unchosen : exchange.choices = [])
      (undialed : exchange.dials = [])
  | dialing {candidate : Candidate τ} {host : String} {port : UInt16}
      (atStage : exchange.stage = .dialing candidate host port)
      (connects : exchange.Connects host port)
      (dialed : exchange.dials = [(candidate, host, port)])
      (among : candidate ∈ exchange.chosen)
  | dialed {candidate : Candidate τ} {host : String} {port : UInt16}
      (atStage : exchange.stage = .answered (.established candidate) ∨
        ∃ reason, exchange.stage = .answered (.refused (.upstream reason)))
      (connects : exchange.Connects host port)
      (dialed : exchange.dials = [(candidate, host, port)])
      (among : candidate ∈ exchange.chosen)
  | calling {transport : RotatingTransport} {call : Upstream.Call τ ρ}
      (atStage : exchange.stage = .calling transport call) (undialed : exchange.dials = [])
      (forwards : exchange.Forwards crates transport call.request) (metered : call.Metered)
      (under : call.Under exchange.chosen)

variable {crates : Crates} {table : RegionTable τ RotatingTransport} {exchange : Exchange τ ρ}

theorem course_arrive (crates : Crates) (table : RegionTable τ RotatingTransport)
    (request : HttpRequest) : (arrive crates table request : Exchange τ ρ).Course crates := by
  have stage : (arrive crates table request : Exchange τ ρ).stage =
      .ofDispatched crates request (handle crates table.proxy table.pools request) := rfl
  cases dispatched : handle crates table.proxy table.pools request with
  | connect pool host port =>
      rw [dispatched] at stage
      obtain ⟨connects, authority, -⟩ := handle_connect dispatched
      exact .picking stage ⟨connects, authority⟩ rfl rfl
  | index host =>
      rw [dispatched] at stage
      exact .index stage rfl rfl
  | refused error =>
      rw [dispatched] at stage
      exact .refused stage ((handle_refused dispatched).imp_right .inl) rfl rfl
  | forward transport target =>
      rw [dispatched] at stage
      cases made : crates.outgoing request.toIncoming target with
      | error error =>
          have refused : (arrive crates table request : Exchange τ ρ).stage =
              .answered (.refused (.ofTarget error)) := by
            rw [stage, HandleStage.ofDispatched, HandleStage.forward, made]
          refine .refused refused (.inl ?_) rfl rfl
          cases error
          rfl
      | ok request' =>
          have calls : (arrive crates table request : Exchange τ ρ).stage =
              .calling transport (.new request') := by
            rw [stage, HandleStage.ofDispatched, HandleStage.forward, made]
          exact .calling calls rfl ⟨target, dispatched, made⟩
            (Upstream.Call.metered_new request') (Upstream.Call.under_new request')

/-- What is known while the call goes on. -/
theorem Course.of_calling (course : exchange.Course crates) {transport : RotatingTransport}
    {call : Upstream.Call τ ρ} (atStage : exchange.stage = .calling transport call) :
    exchange.dials = [] ∧ exchange.Forwards crates transport call.request ∧ call.Metered ∧
      call.Under exchange.chosen := by
  cases course with
  | calling here undialed forwards metered under =>
      cases here.symm.trans atStage
      exact ⟨undialed, forwards, metered, under⟩
  | index here => cases here.symm.trans atStage
  | refused here => cases here.symm.trans atStage
  | picking here => cases here.symm.trans atStage
  | dialing here => cases here.symm.trans atStage
  | dialed here =>
      rcases here with here | ⟨reason, here⟩
      · cases here.symm.trans atStage
      · cases here.symm.trans atStage

theorem course_look (course : exchange.Course crates) (table : RegionTable τ RotatingTransport)
    (late : Bool) (isReady : Candidate τ → Bool) :
    (exchange.look table late isReady).1.Course crates := by
  unfold look
  split
  · next pool host port atStage =>
      cases course with
      | picking here connects unchosen undialed =>
          cases here.symm.trans atStage
          dsimp only
          split
          · exact .refused rfl (.inr (.inr rfl)) unchosen undialed
          · exact .picking atStage connects unchosen undialed
          · next candidate found =>
              exact .dialing rfl connects (congrArg _ undialed) List.mem_cons_self
      | index here => cases here.symm.trans atStage
      | refused here => cases here.symm.trans atStage
      | dialing here => cases here.symm.trans atStage
      | dialed here =>
          rcases here with here | ⟨reason, here⟩
          · cases here.symm.trans atStage
          · cases here.symm.trans atStage
      | calling here => cases here.symm.trans atStage
  · next transport call atStage =>
      split
      · next atPhase =>
          obtain ⟨undialed, forwards, metered, under⟩ := course.of_calling atStage
          have refuses : Upstream.Call.Stepped (fun _ => none) call call.refuse :=
            .refuses atPhase
          have refused : Course crates { exchange with stage := .calling transport call.refuse } :=
            .calling rfl undialed forwards (refuses.metered metered) under.refuse
          split
          · exact refused
          · dsimp only
            split
            · exact refused
            · exact course
            · next candidate found =>
                have selects : Upstream.Call.Stepped (fun _ => none) call
                    (call.select candidate
                      (table.pools.filtered transport.protocol transport.pool).1) :=
                  .selects atPhase found
                exact .calling rfl undialed forwards (selects.metered metered)
                  (under.select candidate _)
      · exact course
  · exact course

theorem course_dialed (course : exchange.Course crates) (outcome : Except String Unit) :
    (exchange.dialed outcome).Course crates := by
  unfold dialed
  split
  · next candidate host port atStage =>
      cases course with
      | dialing here connects dialed among =>
          cases here.symm.trans atStage
          split
          · exact .dialed (.inl rfl) connects dialed among
          · next reason => exact .dialed (.inr ⟨reason, rfl⟩) connects dialed among
      | index here => cases here.symm.trans atStage
      | refused here => cases here.symm.trans atStage
      | picking here => cases here.symm.trans atStage
      | dialed here =>
          rcases here with here | ⟨reason, here⟩
          · cases here.symm.trans atStage
          · cases here.symm.trans atStage
      | calling here => cases here.symm.trans atStage
  · exact course

/-- A step of the call, if it keeps track of the exit under way. -/
theorem course_call (course : exchange.Course crates) (failed : Option Upstream.Error)
    (next : Upstream.Step τ ρ)
    (tracked : ∀ (call : Upstream.Call τ ρ) chosen, call.Under chosen →
      (call.step (fun _ => failed) next).Under chosen) :
    (exchange.call failed next).Course crates := by
  unfold Exchange.call
  split
  · next transport call atStage =>
      obtain ⟨undialed, forwards, metered, under⟩ := course.of_calling atStage
      have stepped := call.stepped (fun _ => failed) next
      have same := stepped.request
      exact .calling rfl undialed (same ▸ forwards) (stepped.metered metered)
        (tracked call _ under)
  · exact course

end Exchange

/-! ### Runs of the server -/

namespace Service

variable {crates : Crates} {service : Service τ ρ}

/-- The regions are as they should be, and so is every exchange. -/
structure Sound (crates : Crates) (service : Service τ ρ) : Prop where
  sound : service.table.Sound
  traced : service.table.Traced
  bound : ∀ exchange ∈ service.exchanges, exchange.Bound crates service.table
  course : ∀ exchange ∈ service.exchanges, exchange.Course crates

theorem Sound.put (held : service.Sound crates) (place : Nat) {exchange : Exchange τ ρ}
    (bound : exchange.Bound crates service.table) (course : exchange.Course crates) :
    (service.put place exchange).Sound crates where
  sound := held.sound
  traced := held.traced
  bound other among := by
    rcases List.mem_or_eq_of_mem_set among with old | rfl
    · exact held.bound other old
    · exact bound
  course other among := by
    rcases List.mem_or_eq_of_mem_set among with old | rfl
    · exact held.course other old
    · exact course

theorem Sound.tables (held : service.Sound crates) {table : RegionTable τ RotatingTransport}
    (sound : table.Sound) (traced : table.Traced)
    (kept : RegionTable.Keeps service.table table) :
    Sound crates { service with table } where
  sound := sound
  traced := traced
  bound exchange among := (held.bound exchange among).keeps held.sound kept
  course := held.course

theorem sound_step (held : service.Sound crates) (action : ServiceStep τ ρ) :
    (service.step crates action).Sound crates := by
  cases action with
  | regions action =>
      exact held.tables (RegionTable.sound_step held.sound action)
        (RegionTable.traced_step held.sound held.traced action)
        (RegionTable.keeps_step held.sound action)
  | arrive request =>
      refine ⟨held.sound, held.traced, ?_, ?_⟩
      · intro exchange among
        rcases List.mem_append.mp among with old | new
        · exact held.bound exchange old
        · rw [List.mem_singleton.mp new]
          exact Exchange.bound_arrive crates held.sound held.traced request
      · intro exchange among
        rcases List.mem_append.mp among with old | new
        · exact held.course exchange old
        · rw [List.mem_singleton.mp new]
          exact Exchange.course_arrive crates service.table request
  | look place late isReady =>
      rw [step]
      split
      · next exchange here =>
          have among := List.mem_of_getElem? here
          have bound := Exchange.bound_look (held.bound exchange among) held.sound held.traced
            late isReady
          have course := Exchange.course_look (held.course exchange among) service.table late
            isReady
          have spun := exchange.look_spun service.table late isReady
          have kept : RegionTable.Keeps service.table
              { service.table with pools := (exchange.look service.table late isReady).2 } :=
            .of_same rfl List.prefix_rfl (List.Subset.refl _) (List.Subset.refl _)
          have turned := held.tables (held.sound.spun spun) (held.traced.spun spun) kept
          exact turned.put place (bound.keeps held.sound kept) course
      · exact held
  | dialed place outcome =>
      rw [step]
      split
      · next exchange here =>
          have among := List.mem_of_getElem? here
          exact held.put place (Exchange.bound_dialed (held.bound exchange among) outcome)
            (Exchange.course_dialed (held.course exchange among) outcome)
      · exact held
  | client place failed =>
      rw [step]
      split
      · next exchange here =>
          have among := List.mem_of_getElem? here
          have tracked : ∀ (call : Upstream.Call τ ρ) chosen, call.Under chosen →
              (call.step (fun _ => failed) .client).Under chosen :=
            fun call chosen under => under.client failed
          exact held.put place (Exchange.bound_call (held.bound exchange among) failed .client)
            (Exchange.course_call (held.course exchange among) failed .client tracked)
      · exact held
  | reply place outcome =>
      rw [step]
      split
      · next exchange here =>
          have among := List.mem_of_getElem? here
          have tracked : ∀ (call : Upstream.Call τ ρ) chosen, call.Under chosen →
              (call.step (fun _ => none) (.reply outcome)).Under chosen :=
            fun call chosen under => under.reply outcome
          exact held.put place
            (Exchange.bound_call (held.bound exchange among) none (.reply outcome))
            (Exchange.course_call (held.course exchange among) none (.reply outcome) tracked)
      · exact held

theorem sound_start (crates : Crates) (defaultForward : Option RotatingTransport) :
    (start defaultForward : Service τ ρ).Sound crates where
  sound := RegionTable.sound_new defaultForward
  traced := RegionTable.traced_run defaultForward []
  bound _ absent := absurd absent List.not_mem_nil
  course _ absent := absurd absent List.not_mem_nil

end Service

namespace Exchange

variable {crates : Crates} {exchange : Exchange τ ρ}

theorem dialed_only {candidate : Candidate τ} {host : String} {port : UInt16}
    (dialed : exchange.dials = [(candidate, host, port)])
    (connects : exchange.Connects host port) (among : candidate ∈ exchange.chosen) :
    ∀ dial ∈ exchange.dials,
      exchange.Connects dial.2.1 dial.2.2 ∧ dial.1 ∈ exchange.chosen := by
  intro dial here
  rw [dialed] at here
  rw [List.mem_singleton.mp here]
  exact ⟨connects, among⟩

/-- What was done is what was asked for. -/
theorem Course.served (course : exchange.Course crates)
    (isolated : exchange.arrived.Routes (asked crates exchange.request) →
      ∀ choice ∈ exchange.choices,
        choice.table.Registered (asked crates exchange.request).region choice.candidate) :
    exchange.Served crates := by
  cases course with
  | index atStage unchosen undialed =>
      have unsent : exchange.transmissions = [] := by rw [transmissions, atStage]
      refine ⟨isolated, by simp [undialed], by simp [undialed], .inl unsent, ?_⟩
      rw [atStage]
      rintro _ ⟨⟩
      exact ⟨unchosen, undialed, unsent⟩
  | refused atStage early unchosen undialed =>
      have unsent : exchange.transmissions = [] := by rw [transmissions, atStage]
      refine ⟨isolated, by simp [undialed], by simp [undialed], .inl unsent, ?_⟩
      rw [atStage]
      rintro _ ⟨⟩
      refine ⟨?_, fun _ => ⟨unchosen, undialed, unsent⟩⟩
      rcases early with status | status | rfl
      · simp [status]
      · simp [status]
      · decide
  | picking atStage connects unchosen undialed =>
      have unsent : exchange.transmissions = [] := by rw [transmissions, atStage]
      refine ⟨isolated, by simp [undialed], by simp [undialed], .inl unsent, ?_⟩
      rw [atStage]
      rintro _ ⟨⟩
  | dialing atStage connects dialed among =>
      have unsent : exchange.transmissions = [] := by rw [transmissions, atStage]
      refine ⟨isolated, by simp [dialed], dialed_only dialed connects among, .inl unsent, ?_⟩
      rw [atStage]
      rintro _ ⟨⟩
  | @dialed candidate host port atStage connects dialed among =>
      have unsent : exchange.transmissions = [] := by
        rcases atStage with here | ⟨reason, here⟩
        · rw [transmissions, here]
        · rw [transmissions, here]
      refine ⟨isolated, by simp [dialed], dialed_only dialed connects among, .inl unsent, ?_⟩
      rcases atStage with here | ⟨reason, here⟩
      · rw [here]
        rintro _ ⟨⟩
        exact ⟨host, port, connects, dialed, among⟩
      · rw [here]
        rintro _ ⟨⟩
        exact ⟨by simp [HandleError.status], fun other => absurd rfl other⟩
  | @calling transport call atStage undialed forwards metered under =>
      have sent : exchange.transmissions = call.transmissions := by rw [transmissions, atStage]
      refine ⟨isolated, by simp [undialed], by simp [undialed], .inr ?_, ?_⟩
      · refine ⟨transport, call.request, forwards, ?_, ?_⟩
        · rw [sent, ← List.length_map Upstream.Transmission.sent]
          exact metered.within
        · rw [sent]
          intro transmission among
          exact ⟨under.sent transmission among,
            metered.sent_request (List.mem_map_of_mem among)⟩
      · rw [atStage]
        intro answer given
        cases atPhase : call.phase with
        | selecting => simp [HandleStage.answer, atPhase] at given
        | building candidate => simp [HandleStage.answer, atPhase] at given
        | sending candidate => simp [HandleStage.answer, atPhase] at given
        | done result =>
            cases result with
            | ok both =>
                obtain ⟨candidate, response⟩ := both
                have same : answer = .response candidate response := by
                  simpa [HandleStage.answer, atPhase, eq_comm] using given
                obtain ⟨among, latest⟩ := under.responded candidate response atPhase
                rw [same]
                exact ⟨among, undialed, sent ▸ latest⟩
            | error error =>
                have same : answer = .refused (.forward error.message) := by
                  simpa [HandleStage.answer, atPhase, eq_comm] using given
                rw [same]
                exact ⟨by simp [HandleError.status], fun other => absurd rfl other⟩

end Exchange

/-- Every exchange is served. -/
def Service.Serves (crates : Crates) (service : Service τ ρ) : Prop :=
  ∀ exchange ∈ service.exchanges, exchange.Served crates

/-- In every run of the server, with any number of requests at once and regions
that come and change at any time, what is done for a request is what it asks for: a
request whose region had a route for it when it came only ever gets exits that came
with a region of that name, a tunnel is dialed once at most and to the very host and
port, what is sent is the request for its target, and no answer says more than was
done. -/
theorem Service.requests_served (crates : Crates) (defaultForward : Option RotatingTransport)
    (steps : List (ServiceStep τ ρ)) :
    (run (step crates) (start defaultForward) steps).Serves crates := by
  have kept (service : Service τ ρ) (action : ServiceStep τ ρ) (held : service.Sound crates) :
      (service.step crates action).Sound crates :=
    sound_step held action
  have held : (run (step crates) (start defaultForward) steps).Sound crates :=
    run_always kept steps (sound_start crates defaultForward)
  intro exchange among
  exact (held.course exchange among).served (held.bound exchange among).isolated

/-- One region, a request that its credentials send there, and an unknown path. -/
def usSteps : List (ServiceStep Nat Nat) :=
  (RegionTable.oneRegion.map ServiceStep.regions) ++
    [.arrive usForms.direct, .arrive ⟨⟨.get, [], []⟩, ⟨none, none, "/", none⟩⟩,
      .look 0 false (fun _ => true), .client 0 none, .reply 0 (.ok 200)]

theorem Service.requests_served_us :
    (run (step usCrates) (start none) usSteps).Serves usCrates ∧
      (run (step usCrates) (start none) usSteps).exchanges.map Exchange.chosen =
        [[⟨"ssh://US", 3, 0, .ssh⟩], []] ∧
      ((run (step usCrates) (start none) usSteps).exchanges.map fun exchange =>
        exchange.transmissions.map fun transmission => transmission.exit.key) =
        [["ssh://US"], []] :=
  ⟨requests_served usCrates none usSteps, by decide +kernel, by decide +kernel⟩

end Unroxy.Proxy
