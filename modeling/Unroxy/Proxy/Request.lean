import Mathlib.Data.List.Basic
import Unroxy.Lib.Run
import Unroxy.Proxy.Select

/-!
Owns `RotatingTransport::request` of `upstream.rs`: the attempts for one request,
with the exits they choose and what they send.

A step is a turn of `ready_candidate`, the call of `client` or the end of `send`.
What the pool holds, which tunnels are ready, whether the deadline has passed and
how `send` ends is the step's. How `client` ends is a parameter, one outcome for
each attempt.

Does not own the cache of clients, which `client` fills and `evict` empties.
-/

namespace Unroxy.Proxy

open Unroxy.Lib

variable {τ ρ : Type}

inductive Method where
  | get
  | head
  | other (name : String)
deriving DecidableEq, Repr

namespace Upstream

/-- `Error` of `upstream.rs`. -/
inductive Error where
  | noUpstream
  | request (reason : String)
deriving DecidableEq, Repr

def Error.message : Error → String
  | .noUpstream => "no upstream proxies available"
  | .request reason => "upstream request failed: " ++ reason

def maxAttempts : Nat := 6

/-- The request that `request` is given. A body is what it yields. -/
structure Request where
  method : Method
  uri : String
  host : Option String
  headers : List (String × String)
  body : List UInt8
deriving DecidableEq, Repr

namespace Request

def targetHost (self : Request) : String := (self.host.getD "").toLower

def retryable (self : Request) : Bool :=
  match self.method with
  | .get | .head => true
  | .other _ => false

def attempts (self : Request) : Nat := if self.retryable then maxAttempts else 1

end Request

/-- What `send` is passed, beside the client. -/
structure Sent where
  method : Method
  uri : String
  headers : List (String × String)
  body : List UInt8
  targetHost : String
deriving DecidableEq, Repr

/-- The request as it was given. -/
def Request.original (self : Request) : Sent where
  method := self.method
  uri := self.uri
  headers := self.headers
  body := self.body
  targetHost := self.targetHost

/-- A call of `send`, with the exit that its client goes through. -/
structure Transmission (τ : Type) where
  exit : Candidate τ
  sent : Sent
deriving DecidableEq, Repr

/-- A candidate's key, and the list it was chosen from. -/
structure Selection (τ : Type) where
  key : String
  candidates : List (Candidate τ)
deriving DecidableEq, Repr

inductive Phase (τ ρ : Type) where
  /-- In the loop of `ready_candidate`. -/
  | selecting
  /-- Before `client`. -/
  | building (candidate : Candidate τ)
  /-- In `send`. -/
  | sending (candidate : Candidate τ)
  | done (result : Except Error (Candidate τ × ρ))

/-- A call of `request`. The last two fields record what it did, the latest first;
no step reads them. -/
structure Call (τ ρ : Type) where
  request : Request
  /-- The attempts that are over. -/
  attempt : Nat
  body : Option (List UInt8)
  tried : List String
  last : Option Error
  phase : Phase τ ρ
  selections : List (Selection τ)
  transmissions : List (Transmission τ)

inductive Step (τ ρ : Type) where
  /-- A turn of `ready_candidate`. -/
  | look (late : Bool) (candidates : List (Candidate τ)) (isReady : Candidate τ → Bool)
  | client
  | reply (outcome : Except Error ρ)

namespace Call

/-- What was sent, the latest first. -/
def sends (self : Call τ ρ) : List Sent := self.transmissions.map Transmission.sent

/-- The call begins. -/
def new (request : Request) : Call τ ρ where
  request
  attempt := 0
  body := some request.body
  tried := []
  last := none
  phase := .selecting
  selections := []
  transmissions := []

/-- `ready_candidate` fails, and `request` with it. -/
def refuse (self : Call τ ρ) : Call τ ρ :=
  { self with phase := .done (.error (self.last.getD .noUpstream)) }

/-- The attempt is over, and the loop goes on or ends. -/
def retry (self : Call τ ρ) (error : Error) : Call τ ρ :=
  { self with
    attempt := self.attempt + 1
    last := some error
    phase :=
      if self.attempt + 1 < self.request.attempts then .selecting else .done (.error error) }

/-- `ready_candidate` returns this candidate. -/
def select (self : Call τ ρ) (candidate : Candidate τ) (candidates : List (Candidate τ)) :
    Call τ ρ :=
  { self with
    phase := .building candidate
    selections := { key := candidate.key, candidates } :: self.selections }

/-- The call of `send`. The body is there for the first one only. -/
def send (self : Call τ ρ) (candidate : Candidate τ) : Call τ ρ :=
  let payload := self.body.getD []
  { self with
    body := none
    phase := .sending candidate
    transmissions :=
      { exit := candidate, sent := { self.request.original with body := payload } } ::
        self.transmissions }

def look (self : Call τ ρ) (late : Bool) (candidates : List (Candidate τ))
    (isReady : Candidate τ → Bool) : Call τ ρ :=
  if late then
    self.refuse
  else
    match readyCandidateTurn isReady self.tried candidates with
    | .none => self.refuse
    | .again => self
    | .found candidate => self.select candidate candidates

/-- `client`, and the call of `send` if there is one. -/
def client (clients : Nat → Option Error) (self : Call τ ρ) (candidate : Candidate τ) :
    Call τ ρ :=
  match clients self.attempt with
  | some error => self.retry error
  | none => self.send candidate

def reply (self : Call τ ρ) (candidate : Candidate τ) : Except Error ρ → Call τ ρ
  | .ok response => { self with phase := .done (.ok (candidate, response)) }
  | .error error => { self with tried := self.tried ++ [candidate.key] }.retry error

/-- A step that is not the next one of this call is someone else's. -/
def step (clients : Nat → Option Error) (self : Call τ ρ) (next : Step τ ρ) : Call τ ρ :=
  match self.phase, next with
  | .selecting, .look late candidates isReady => self.look late candidates isReady
  | .building candidate, .client => self.client clients candidate
  | .sending candidate, .reply outcome => self.reply candidate outcome
  | _, _ => self

@[simp] theorem sends_send (call : Call τ ρ) (candidate : Candidate τ) :
    (call.send candidate).sends =
      { call.request.original with body := call.body.getD [] } :: call.sends := rfl

/-! ### The cases of a step -/

inductive Stepped (clients : Nat → Option Error) (call : Call τ ρ) : Call τ ρ → Prop where
  | rests : Stepped clients call call
  | refuses (atPhase : call.phase = .selecting) : Stepped clients call call.refuse
  | selects {candidate : Candidate τ} {candidates : List (Candidate τ)}
      {isReady : Candidate τ → Bool} (atPhase : call.phase = .selecting)
      (found : readyCandidateTurn isReady call.tried candidates = .found candidate) :
      Stepped clients call (call.select candidate candidates)
  | unbuilt {candidate : Candidate τ} {error : Error} (atPhase : call.phase = .building candidate)
      (failed : clients call.attempt = some error) : Stepped clients call (call.retry error)
  | sends {candidate : Candidate τ} (atPhase : call.phase = .building candidate) :
      Stepped clients call (call.send candidate)
  | responds {candidate : Candidate τ} {response : ρ} (atPhase : call.phase = .sending candidate) :
      Stepped clients call { call with phase := .done (.ok (candidate, response)) }
  | fails {candidate : Candidate τ} {error : Error} (atPhase : call.phase = .sending candidate) :
      Stepped clients call ({ call with tried := call.tried ++ [candidate.key] }.retry error)

theorem stepped (clients : Nat → Option Error) (call : Call τ ρ) (next : Step τ ρ) :
    Stepped clients call (call.step clients next) := by
  unfold step
  split
  case h_1 late candidates isReady atPhase =>
    unfold look
    split
    · exact .refuses atPhase
    · split
      · exact .refuses atPhase
      · exact .rests
      · next found => exact .selects atPhase found
  case h_2 candidate atPhase =>
    unfold client
    split
    · next error failed => exact .unbuilt atPhase failed
    · exact .sends atPhase
  case h_3 candidate outcome atPhase =>
    cases outcome with
    | ok response => exact .responds atPhase
    | error error => exact .fails atPhase
  case h_4 => exact .rests

theorem Stepped.request {clients : Nat → Option Error} {call later : Call τ ρ}
    (stepped : Stepped clients call later) : later.request = call.request := by
  cases stepped with
  | rests => rfl
  | refuses _ => rfl
  | selects _ _ => rfl
  | unbuilt _ _ => rfl
  | sends _ => rfl
  | responds _ => rfl
  | fails _ => rfl

/-! ### What is sent -/

/-- What is left to send, and how often it was sent. -/
structure Metered (call : Call τ ρ) : Prop where
  sent : call.sends = [] ∧ call.body = some call.request.body ∨
    call.body = none ∧ ∃ again, call.sends =
      List.replicate again { call.request.original with body := [] } ++ [call.request.original]
  within : call.sends.length ≤ call.request.attempts
  waiting : call.phase = .selecting ∨ (∃ candidate, call.phase = .building candidate) →
    call.attempt < call.request.attempts ∧ call.sends.length ≤ call.attempt
  sending : ∀ candidate, call.phase = .sending candidate →
    call.attempt < call.request.attempts ∧ call.sends.length ≤ call.attempt + 1

theorem attempts_pos (request : Request) : 0 < request.attempts := by
  unfold Request.attempts maxAttempts
  split
  · decide
  · decide

theorem metered_new (request : Request) : (new request : Call τ ρ).Metered where
  sent := .inl ⟨rfl, rfl⟩
  within := Nat.zero_le _
  waiting := fun _ => ⟨attempts_pos request, Nat.le_refl 0⟩
  sending := by
    intro candidate impossible
    cases impossible

theorem Metered.finish {call : Call τ ρ} (metered : call.Metered)
    (result : Except Error (Candidate τ × ρ)) :
    Metered { call with phase := .done result } where
  sent := metered.sent
  within := metered.within
  waiting := by
    rintro (impossible | ⟨candidate, impossible⟩)
    · cases impossible
    · cases impossible
  sending := by
    intro candidate impossible
    cases impossible

theorem Metered.retry {call : Call τ ρ} (metered : call.Metered)
    (used : call.sends.length ≤ call.attempt + 1) (tried : List String) (error : Error) :
    ({ call with tried }.retry error).Metered := by
  refine ⟨metered.sent, metered.within, ?_, ?_⟩
  · intro waits
    unfold Call.retry at waits ⊢
    dsimp only at waits ⊢
    split at waits
    · next more => exact ⟨more, used⟩
    · rcases waits with impossible | ⟨candidate, impossible⟩
      · cases impossible
      · cases impossible
  · intro candidate sends
    unfold Call.retry at sends
    dsimp only at sends
    split at sends
    · cases sends
    · cases sends

theorem Stepped.metered {clients : Nat → Option Error} {call later : Call τ ρ}
    (stepped : Stepped clients call later) (metered : call.Metered) : later.Metered := by
  cases stepped with
  | rests => exact metered
  | refuses atPhase => exact metered.finish _
  | selects atPhase found =>
      refine ⟨metered.sent, metered.within, fun _ => metered.waiting (.inl atPhase), ?_⟩
      intro candidate impossible
      cases impossible
  | unbuilt atPhase failed =>
      have before := metered.waiting (.inr ⟨_, atPhase⟩)
      exact metered.retry (by omega) call.tried _
  | sends atPhase =>
      have before := metered.waiting (.inr ⟨_, atPhase⟩)
      have once : call.sends.length + 1 ≤ call.attempt + 1 := Nat.succ_le_succ before.2
      refine ⟨.inr ⟨rfl, ?_⟩, Nat.le_trans once before.1, ?_, fun _ _ => ⟨before.1, once⟩⟩
      · rcases metered.sent with ⟨unsent, whole⟩ | ⟨gone, again, sent⟩
        · refine ⟨0, ?_⟩
          rw [sends_send, unsent, whole]
          rfl
        · refine ⟨again + 1, ?_⟩
          rw [sends_send, gone, sent]
          rfl
      · rintro (impossible | ⟨candidate, impossible⟩)
        · cases impossible
        · cases impossible
  | responds atPhase => exact metered.finish _
  | fails atPhase =>
      have before := metered.sending _ atPhase
      exact metered.retry before.2 _ _

/-- Every attempt sends the request as it was given, and a request that may not be
retried is sent at most once. -/
def SameRequest (call : Call τ ρ) : Prop :=
  (∀ sent ∈ call.sends, sent = call.request.original) ∧
    (call.request.retryable = false → call.sends.length ≤ 1)

theorem Metered.once {call : Call τ ρ} (metered : call.Metered)
    (final : call.request.retryable = false) : call.sends.length ≤ 1 := by
  have attempts : call.request.attempts = 1 := by
    unfold Request.attempts
    rw [final]
    rfl
  exact attempts ▸ metered.within

/-- A body that is empty, or sent once only, is not missed. -/
theorem Metered.sameRequest {call : Call τ ρ} (metered : call.Metered)
    (plain : call.request.retryable = true → call.request.body = []) : call.SameRequest := by
  refine ⟨?_, metered.once⟩
  intro sent member
  rcases metered.sent with ⟨unsent, -⟩ | ⟨-, again, all⟩
  · rw [unsent] at member
    cases member
  · rw [all] at member
    rcases List.mem_append.mp member with repeated | first
    · rw [List.eq_of_mem_replicate repeated]
      cases retryable : call.request.retryable with
      | true =>
          rw [← plain retryable]
          rfl
      | false =>
          -- A single send leaves no room for a repeated one.
          have single := metered.once retryable
          rw [all, List.length_append, List.length_replicate, List.length_singleton] at single
          have none : again = 0 := by omega
          rw [none] at repeated
          cases repeated
    · exact List.mem_singleton.mp first

theorem run_metered (clients : Nat → Option Error) (request : Request)
    (steps : List (Step τ ρ)) :
    (run (step clients) (new request) steps).Metered ∧
      (run (step clients) (new request) steps).request = request := by
  have kept : ∀ (call : Call τ ρ) (next : Step τ ρ), (call.Metered ∧ call.request = request) →
      ((call.step clients next).Metered ∧ (call.step clients next).request = request) := by
    intro call next held
    have stepped := call.stepped clients next
    exact ⟨stepped.metered held.1, stepped.request.trans held.2⟩
  exact run_always kept steps ⟨metered_new request, rfl⟩

section Resend

variable [Inhabited τ]

/-- An exit. -/
def someCandidate (key : String) : Candidate τ :=
  { key, tunnel := default, priority := 0, protocol := .ssh }

/-- Two attempts with the only exit, of which the first fails in `send`. -/
def sentTwice : List (Step τ ρ) :=
  [.look false [someCandidate "a"] (fun _ => true), .client, .reply (.error (.request "reset")),
    .look false [someCandidate "a"] (fun _ => true), .client]

theorem sends_sentTwice {request : Request} (retryable : request.retryable = true) :
    (run (step fun _ => none) (new request : Call τ ρ) sentTwice).sends =
      [{ request.original with body := [] }, request.original] := by
  have several : request.attempts = 6 := if_pos retryable
  simp [sentTwice, run, step, look, select, client, send, reply, retry, new, readyCandidateTurn,
    firstReady, someCandidate, several]
  rfl

end Resend

/-- A request is always the same when it is sent again exactly if it is not sent
again, or has no body. -/
theorem same_request_iff [Inhabited τ] (request : Request) :
    (∀ (clients : Nat → Option Error) (steps : List (Step τ ρ)),
      (run (step clients) (new request) steps).SameRequest) ↔
        (request.retryable = true → request.body = []) := by
  constructor
  · intro same retryable
    have again := (same (fun _ => none) sentTwice).1
    rw [sends_sentTwice retryable, (run_metered _ request _).2] at again
    have equal := again _ List.mem_cons_self
    exact (congrArg Sent.body equal).symm
  · intro plain clients steps
    obtain ⟨metered, given⟩ := run_metered clients request steps
    apply metered.sameRequest
    rw [given]
    exact plain

/-- A GET request with a body of one byte, whose first attempt fails. -/
theorem body_lost_on_retry :
    ¬ ∀ (request : Request) (clients : Nat → Option Error) (steps : List (Step Unit Unit)),
      (run (step clients) (new request) steps).SameRequest := by
  intro same
  have again := (same ⟨.get, "http://example.com/", some "example.com", [], [1]⟩ (fun _ => none)
    sentTwice).1
  revert again
  decide

/-! ### Which exits are chosen -/

/-- An exit is chosen again only from a list in which every exit was chosen
before. -/
def Rotates (selections : List (Selection τ)) : Prop :=
  ∀ later selection earlier, selections = later ++ selection :: earlier →
    selection.key ∈ earlier.map Selection.key →
    ∀ candidate ∈ selection.candidates, candidate.key ∈ earlier.map Selection.key

/-- `client` fails in no attempt but the last. -/
def Built (clients : Nat → Option Error) (request : Request) : Prop :=
  ∀ attempt, attempt + 1 < request.attempts → clients attempt = none

def chosen (call : Call τ ρ) : List String := call.selections.map Selection.key

/-- The exits chosen so far are those tried, and the one under way. -/
structure Tracked (call : Call τ ρ) : Prop where
  rotates : Rotates call.selections
  tried : ∀ key ∈ call.tried, key ∈ call.chosen
  selecting : call.phase = .selecting → ∀ key ∈ call.chosen, key ∈ call.tried
  under : ∀ candidate, call.phase = .building candidate ∨ call.phase = .sending candidate →
    candidate.key ∈ call.chosen ∧ ∀ key ∈ call.chosen, key ∈ call.tried ∨ key = candidate.key

theorem Rotates.cons {selections : List (Selection τ)} {selection : Selection τ}
    (rotates : Rotates selections)
    (own : selection.key ∈ selections.map Selection.key →
      ∀ candidate ∈ selection.candidates, candidate.key ∈ selections.map Selection.key) :
    Rotates (selection :: selections) := by
  intro later other earlier split
  cases later with
  | nil =>
      injection split with same rest
      subst same rest
      exact own
  | cons newest later =>
      injection split with same rest
      exact rotates later other earlier rest

theorem tracked_new (request : Request) : (new request : Call τ ρ).Tracked where
  rotates := by
    intro later selection earlier split
    simp [new] at split
  tried := by simp [new]
  selecting := by simp [new, chosen]
  under := by simp [new]

theorem Tracked.finish {call : Call τ ρ} (tracked : call.Tracked)
    (result : Except Error (Candidate τ × ρ)) :
    Tracked { call with phase := .done result } where
  rotates := tracked.rotates
  tried := tracked.tried
  selecting := by simp
  under := by simp

theorem Stepped.tracked {clients : Nat → Option Error} {call later : Call τ ρ}
    (stepped : Stepped clients call later) (built : Built clients call.request)
    (tracked : call.Tracked) : later.Tracked := by
  cases stepped with
  | rests => exact tracked
  | refuses atPhase => exact tracked.finish _
  | @selects candidate candidates isReady atPhase found =>
      have same := tracked.selecting atPhase
      refine ⟨tracked.rotates.cons ?_, ?_, ?_, ?_⟩
      · intro again other member
        exact tracked.tried _ (readyCandidateTurn_found found (same _ again) other member)
      · exact fun key member => List.mem_cons_of_mem _ (tracked.tried key member)
      · intro impossible
        cases impossible
      · intro other under
        have here : other = candidate := by
          rcases under with built | sent
          · cases built
            rfl
          · cases sent
        rw [here]
        refine ⟨List.mem_cons_self, ?_⟩
        intro key member
        rcases List.mem_cons.mp member with rfl | old
        · exact .inr rfl
        · exact .inl (same key old)
  | @unbuilt candidate error atPhase failed =>
      have last : ¬ call.attempt + 1 < call.request.attempts := by
        intro more
        rw [built call.attempt more] at failed
        cases failed
      unfold retry
      rw [if_neg last]
      exact ⟨tracked.rotates, tracked.tried, by simp, by simp⟩
  | sends atPhase =>
      have under := tracked.under _ (.inl atPhase)
      refine ⟨tracked.rotates, tracked.tried, by simp [send], ?_⟩
      intro other otherUnder
      rcases otherUnder with impossible | here
      · cases impossible
      · cases here
        exact under
  | responds atPhase => exact tracked.finish _
  | fails atPhase =>
      obtain ⟨own, others⟩ := tracked.under _ (.inr atPhase)
      refine ⟨tracked.rotates, ?_, ?_, ?_⟩
      · intro key member
        rcases List.mem_append.mp member with old | new
        · exact tracked.tried key old
        · rw [List.mem_singleton.mp new]
          exact own
      · intro _ key member
        rcases others key member with old | new
        · exact List.mem_append_left _ old
        · rw [new]
          exact List.mem_append_right _ (List.mem_singleton_self _)
      · intro other otherUnder
        unfold retry at otherUnder
        dsimp only at otherUnder
        split at otherUnder
        · simp at otherUnder
        · simp at otherUnder

theorem run_tracked {clients : Nat → Option Error} {request : Request}
    (built : Built clients request) (steps : List (Step τ ρ)) :
    (run (step clients) (new request : Call τ ρ) steps).Tracked := by
  have kept : ∀ (call : Call τ ρ) (next : Step τ ρ), (call.Tracked ∧ call.request = request) →
      ((call.step clients next).Tracked ∧ (call.step clients next).request = request) := by
    intro call next held
    have stepped := call.stepped clients next
    have builtHere : Built clients call.request := held.2 ▸ built
    exact ⟨stepped.tracked builtHere held.1, stepped.request.trans held.2⟩
  exact (run_always kept steps ⟨tracked_new request, rfl⟩).1

/-! ### A client that fails brings its exit back -/

theorem step_look (clients : Nat → Option Error) (call : Call τ ρ)
    (atPhase : call.phase = .selecting) {candidates : List (Candidate τ)}
    {isReady : Candidate τ → Bool} {candidate : Candidate τ}
    (found : readyCandidateTurn isReady call.tried candidates = .found candidate) :
    call.step clients (.look false candidates isReady) = call.select candidate candidates := by
  unfold step
  rw [atPhase]
  dsimp only
  unfold look
  rw [found]
  rfl

/-- `client` fails for the candidate that was just chosen. -/
theorem step_unbuilt {clients : Nat → Option Error} (call : Call τ ρ) (candidate : Candidate τ)
    (candidates : List (Candidate τ)) {error : Error}
    (failed : clients call.attempt = some error)
    (more : call.attempt + 1 < call.request.attempts) :
    (call.select candidate candidates).step clients .client =
      { call.select candidate candidates with
        attempt := call.attempt + 1, last := some error, phase := .selecting } := by
  change (call.select candidate candidates).client clients candidate = _
  unfold client
  change (match clients call.attempt with
    | some error => _
    | none => _) = _
  rw [failed]
  have goesOn : ((call.select candidate candidates).retry error).phase = .selecting := if_pos more
  rw [← goesOn]
  rfl

theorem step_send {clients : Nat → Option Error} (call : Call τ ρ) (candidate : Candidate τ)
    (candidates : List (Candidate τ)) (built : clients call.attempt = none) :
    (call.select candidate candidates).step clients .client =
      (call.select candidate candidates).send candidate := by
  change (call.select candidate candidates).client clients candidate = _
  unfold client
  change (match clients call.attempt with
    | some error => _
    | none => _) = _
  rw [built]

section Again

variable [Inhabited τ]

/-- An attempt with one exit that fails, in `client` or in `send`. -/
def failingRound : List (Step τ ρ) :=
  [.look false [someCandidate "first"] (fun _ => true), .client, .reply (.error (.request "reset"))]

/-- So far only one exit was there. -/
structure OneExit (call : Call τ ρ) (attempt : Nat) : Prop where
  phase : call.phase = .selecting
  attempt : call.attempt = attempt
  tried : ∀ key ∈ call.tried, key = "first"
  chosen : ∀ key ∈ call.chosen, key = "first"

/-- The only exit is chosen, whether it was tried or not. -/
theorem readyCandidateTurn_only (skip : List String) (key : String) :
    readyCandidateTurn (fun _ => true) skip [(someCandidate key : Candidate τ)] =
      .found (someCandidate key) := by
  unfold readyCandidateTurn firstReady
  by_cases known : key ∈ skip
  · simp [someCandidate, known]
  · simp [someCandidate, known]

theorem OneExit.round (clients : Nat → Option Error) {call : Call τ ρ} {attempt : Nat}
    (one : call.OneExit attempt) (more : attempt + 1 < call.request.attempts) :
    (run (step clients) call failingRound).OneExit (attempt + 1) := by
  obtain ⟨atPhase, rfl, tried, chosen⟩ := one
  have first : ∀ key ∈ "first" :: call.chosen, key = "first" := by
    intro key member
    rcases List.mem_cons.mp member with rfl | old
    · rfl
    · exact chosen key old
  have looked := step_look clients call atPhase (readyCandidateTurn_only call.tried "first")
  unfold failingRound
  rw [run_cons, looked, run_cons]
  cases outcome : clients call.attempt with
  | some error =>
      rw [step_unbuilt call _ _ outcome more]
      exact ⟨rfl, rfl, tried, first⟩
  | none =>
      rw [step_send call _ _ outcome, run_cons]
      refine ⟨if_pos more, rfl, ?_, first⟩
      intro key member
      rcases List.mem_append.mp member with old | new
      · exact tried key old
      · exact List.mem_singleton.mp new

/-- Every attempt can come about with one exit only. -/
theorem reach_attempt (clients : Nat → Option Error) (request : Request) {attempt : Nat}
    (before : attempt < request.attempts) :
    ∃ steps : List (Step τ ρ), (run (step clients) (new request) steps).OneExit attempt := by
  induction attempt with
  | zero =>
      refine ⟨[], rfl, rfl, ?_, ?_⟩
      · intro key member
        cases member
      · intro key member
        cases member
  | succ attempt inductionHypothesis =>
      obtain ⟨steps, one⟩ := inductionHypothesis (Nat.lt_of_succ_lt before)
      have given := (run_metered clients request steps).2
      refine ⟨steps ++ failingRound, ?_⟩
      rw [run_append]
      exact one.round clients (given.symm ▸ before)

/-- Two exits, the same twice, and `client` fails the first time. -/
def sameTwice : List (Step τ ρ) :=
  [.look false [someCandidate "a", someCandidate "b"] (fun _ => true), .client,
    .look false [someCandidate "a", someCandidate "b"] (fun _ => true)]

theorem OneExit.again {clients : Nat → Option Error} {call : Call τ ρ} {attempt : Nat}
    {error : Error} (one : call.OneExit attempt) (failed : clients attempt = some error)
    (more : attempt + 1 < call.request.attempts) :
    ¬ Rotates (run (step clients) call sameTwice).selections := by
  obtain ⟨atPhase, rfl, tried, chosen⟩ := one
  have untried : ∀ key, key ≠ "first" → key ∉ call.tried :=
    fun key different member => different (tried key member)
  have found : readyCandidateTurn (fun _ => true) call.tried
      [(someCandidate "a" : Candidate τ), someCandidate "b"] = .found (someCandidate "a") := by
    unfold readyCandidateTurn firstReady
    simp [someCandidate, untried "a" (by decide), untried "b" (by decide)]
  unfold sameTwice
  rw [run_cons, step_look clients call atPhase found, run_cons,
    step_unbuilt call _ _ failed more, run_cons, step_look clients { call.select _ _ with
      attempt := call.attempt + 1, last := some error, phase := .selecting } rfl found]
  intro rotates
  have known := rotates [] _ _ rfl List.mem_cons_self (someCandidate "b")
    (List.mem_cons_of_mem _ List.mem_cons_self)
  rcases List.mem_cons.mp known with same | old
  · change "b" = "a" at same
    exact absurd same (by decide)
  · exact absurd (chosen "b" old) (by decide)

end Again

/-- Whatever the pool holds and however `send` ends, no exit is chosen again while
there is another one, exactly if `client` fails in no attempt but the last. -/
theorem retries_rotate_iff [Inhabited τ] (request : Request) (clients : Nat → Option Error) :
    (∀ steps : List (Step τ ρ),
      Rotates (run (step clients) (new request) steps).selections) ↔ Built clients request := by
  constructor
  · intro rotates attempt more
    cases outcome : clients attempt with
    | none => rfl
    | some error =>
        obtain ⟨steps, one⟩ := reach_attempt (τ := τ) (ρ := ρ) clients request
          (Nat.lt_of_succ_lt more)
        have given := (run_metered clients request steps).2
        have again := rotates (steps ++ sameTwice)
        rw [run_append] at again
        exact absurd again (one.again outcome (given.symm ▸ more))
  · intro built steps
    exact (run_tracked built steps).rotates

/-- A GET request, and a tunnel that has lost its address by the time `client` asks. -/
theorem exit_chosen_twice :
    ¬ ∀ (request : Request) (clients : Nat → Option Error) (steps : List (Step Unit Unit)),
      Rotates (run (step clients) (new request) steps).selections := by
  intro rotates
  have known := rotates ⟨.get, "http://example.com/", some "example.com", [], []⟩
    (fun attempt => if attempt = 0 then some .noUpstream else none) sameTwice [] _ _ rfl
    (by decide) (someCandidate "b") (by decide)
  revert known
  decide

end Call

end Upstream

end Unroxy.Proxy
