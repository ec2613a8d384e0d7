import Unroxy.Vpn.Interleaving

/-!
Owns what an account publishes to those who read it without the tunnel lock:
`ready`, `generation` and `socks_port`, and the client that is cached for a
generation.

A reader that loads the generation and then the port sees two moments. Between
`fetch_add` and the store of 0 in `reap` the new generation stands beside the old
port; a client built from these two outlives the port.

Does not own who holds a tunnel.
-/

namespace Unroxy.Vpn

open Unroxy.Lib

/-- The flags of an account say whether it has a tunnel, and agree. -/
structure Agrees (account : Account) : Prop where
  ready : account.slot.isSome ↔ account.ready
  port : account.ready ↔ account.socksPort ≠ 0
  bridgeReady : account.bridgeReady = account.ready
  isReady : account.isReady = account.ready
  activeTunnels : account.activeTunnels = if account.ready then 1 else 0
  proxyUrl : account.proxyUrl.isSome = account.ready

theorem Account.Consistent.agrees {account : Account} (consistent : account.Consistent) :
    Agrees account := by
  have ready : account.bridgeReady = account.ready := by
    rw [consistent.bridgeReady, consistent.ready]
  have port : account.ready ↔ account.socksPort ≠ 0 := by
    rw [consistent.ready, ne_eq, consistent.bridge, Option.isSome_iff_ne_none]
  refine ⟨by rw [consistent.ready], port, ready, ready, ?_, ?_⟩
  · rw [Account.activeTunnels]
    cases account.ready <;> rfl
  · unfold Account.proxyUrl
    cases set : account.ready with
    | true => simp [port.mp set]
    | false => simpa [set] using port

namespace Machine

/-- `reap` has raised the generation, and not yet cleared the port. -/
def window (machine : Machine) : Bool :=
  match machine.locked with
  | some (.retirePort _) => true
  | _ => false

/-- What a step can do to the generation and the port. -/
inductive Published (before after : Machine) : Prop where
  | same (generation : after.account.generation = before.account.generation)
      (port : after.account.socksPort = before.account.socksPort)
      (window : after.window → before.window)
  | closed (generation : after.account.generation = before.account.generation + 1)
  | opened (generation : after.account.generation = before.account.generation)
      (port : before.account.socksPort = 0)
  | cleared (generation : after.account.generation = before.account.generation)
      (window : before.window)

theorem published_enterLive (machine : Machine) (worker : Nat) (dials : Bool) :
    Published machine (machine.enterLive worker dials) := by
  unfold enterLive
  split
  · exact .same rfl rfl fun opens => by cases opens
  · split
    · exact .same rfl rfl id
    · exact .same rfl rfl fun opens => by cases opens

theorem published_enterReap (machine : Machine) (worker : Nat) :
    Published machine (machine.enterReap worker) := by
  unfold enterReap
  split
  · exact .same rfl rfl fun opens => by cases opens
  · exact .same rfl rfl id

theorem published_work (machine : Machine) (worker : Nat) (success : Bool) :
    Published machine (machine.work worker success) := by
  unfold work
  split
  · split
    · exact machine.published_enterLive worker false
    · exact .same rfl rfl id
  · split
    · exact machine.published_enterLive worker true
    · exact .same rfl rfl id
  · split
    · exact machine.published_enterReap worker
    · exact .same rfl rfl id
  all_goals exact .same rfl rfl id

theorem published_unlock (machine : Machine) (account : Account) (dials : Bool) (id : Nat)
    (generation : account.generation = machine.account.generation)
    (port : account.socksPort = machine.account.socksPort) :
    Published machine (unlock { machine with account } dials id) := by
  cases dials with
  | true => exact .same generation port fun opens => by cases opens
  | false => exact .same generation port fun opens => by cases opens

theorem published_advance {machine : Machine} (sound : machine.Sound) (config : Config) :
    Published machine (machine.advance config) := by
  unfold advance
  split
  · exact .same rfl rfl id
  · exact .same rfl rfl id
  · exact .same rfl rfl id
  · exact machine.published_unlock _ _ _ rfl rfl
  · exact .same rfl rfl fun opens => by cases opens
  · exact .same rfl rfl fun opens => by cases opens
  · next held =>
      have during := sound.during held
      exact .opened rfl (not_not.mp fun set => Bool.false_ne_true (during.bridge.mp set))
  · exact machine.published_unlock _ _ _ rfl rfl
  · exact .same rfl rfl fun opens => by cases opens
  · exact .same rfl rfl fun opens => by cases opens
  · exact .same rfl rfl fun opens => by cases opens
  · exact .closed rfl
  · split
    · exact .same rfl rfl fun opens => by cases opens
    · exact .same rfl rfl fun opens => by cases opens
  · dsimp only
    split
    · exact .same rfl rfl fun opens => by cases opens
    · exact .same rfl rfl fun opens => by cases opens
  · split
    · exact .same rfl rfl fun opens => by cases opens
    · exact .same rfl rfl fun opens => by cases opens
  · exact .same rfl rfl fun opens => by cases opens
  · exact .same rfl rfl fun opens => by cases opens
  · exact .same rfl rfl fun opens => by cases opens
  · exact .closed rfl
  · next held => exact .cleared rfl (by rw [window, held])
  · exact .same rfl rfl fun opens => by cases opens

theorem published_step {machine : Machine} (sound : machine.Sound) (config : Config)
    (action : Action) : Published machine (step config machine action) := by
  cases action with
  | tick elapsed => exact .same rfl rfl id
  | adjust wall => exact .same rfl rfl id
  | warm => exact .same rfl rfl id
  | dial => exact .same rfl rfl id
  | reap => exact .same rfl rfl id
  | work worker success => exact machine.published_work worker success
  | leave worker =>
      obtain ⟨workers, same⟩ := machine.leave_frame worker
      rw [step, same]
      exact .same rfl rfl id
  | advance => exact published_advance sound config
  | connected success =>
      rw [step, connected]
      split
      · split
        · exact .same rfl rfl fun opens => by cases opens
        · exact .same rfl rfl fun opens => by cases opens
      · exact .same rfl rfl id
  | bound port =>
      change Published machine (machine.bound port)
      unfold bound
      split
      · exact .same rfl rfl fun opens => by cases opens
      · exact .same rfl rfl fun opens => by cases opens
      · exact .same rfl rfl id
  | abandon =>
      rw [step, abandon]
      split
      · exact .same rfl rfl fun opens => by cases opens
      · exact .same rfl rfl fun opens => by cases opens
      · exact .same rfl rfl id
  | accept id =>
      rw [step]
      split
      · exact .same rfl rfl fun opens => opens
      · exact .same rfl rfl fun opens => opens
  | client => exact .same rfl rfl id
  | call call success =>
      obtain ⟨calls, cacheHolder, cached, same⟩ := machine.turn_frame call success
      rw [step, same]
      exact .same rfl rfl id
  | evict =>
      rw [step]
      split
      · exact .same rfl rfl id
      · exact .same rfl rfl id

/-! ### A port belongs to its generation -/

/-- If this is still the generation, this is still the port. -/
structure Current (machine : Machine) (generation : Nat) (port : UInt16) : Prop where
  bound : port ≠ 0
  past : generation ≤ machine.account.generation
  now : generation = machine.account.generation →
    machine.account.socksPort = port ∧ machine.window = false

theorem Current.published {before after : Machine} {generation : Nat} {port : UInt16}
    (current : before.Current generation port) (published : Published before after) :
    after.Current generation port := by
  have past := current.past
  refine ⟨current.bound, ?_, ?_⟩
  · cases published with
    | same same _ _ => rwa [same]
    | closed next =>
        rw [next]
        omega
    | opened same _ => rwa [same]
    | cleared same _ => rwa [same]
  · intro isNow
    cases published with
    | same same port window =>
        obtain ⟨held, shut⟩ := current.now (isNow.trans same)
        refine ⟨port.trans held, ?_⟩
        rw [Bool.eq_false_iff] at shut ⊢
        exact fun opens => shut (window opens)
    | closed next => omega
    | opened same empty =>
        have held := (current.now (isNow.trans same)).1
        rw [empty] at held
        exact absurd held.symm current.bound
    | cleared same opens =>
        rw [(current.now (isNow.trans same)).2] at opens
        cases opens

theorem current_run {machine : Machine} (sound : machine.Sound) {generation : Nat}
    {port : UInt16} (current : machine.Current generation port) (config : Config)
    (steps : List Action) : (run (step config) machine steps).Current generation port := by
  have kept (machine : Machine) (action : Action)
      (held : machine.Sound ∧ machine.Current generation port) :
      (step config machine action).Sound ∧ (step config machine action).Current generation port :=
    ⟨sound_step held.1 config action, held.2.published (published_step held.1 config action)⟩
  exact (run_always kept steps ⟨sound, current⟩).2

/-- Whenever nobody has the tunnel lock the flags agree, and the port is the same
as in an earlier state of the same generation. -/
theorem flags_agree (config : Config) (instant wall : Nat) (steps later : List Action) :
    let first := run (step config) (new instant wall) steps
    let second := run (step config) (new instant wall) (steps ++ later)
    (first.locked = none → Agrees first.account) ∧
      (first.locked = none → second.locked = none →
        first.account.generation = second.account.generation →
        first.account.socksPort ≠ 0 → second.account.socksPort ≠ 0 →
        first.account.socksPort = second.account.socksPort) := by
  intro first second
  have sound : first.Sound := sound_run config instant wall steps
  refine ⟨fun free => (sound.consistent free).agrees, ?_⟩
  intro free _ sameGeneration bound _
  have here : first.Current first.account.generation first.account.socksPort :=
    ⟨bound, Nat.le_refl _, fun _ => ⟨rfl, by rw [window, free]⟩⟩
  have there : second.Current first.account.generation first.account.socksPort := by
    have reached := current_run sound here config later
    rwa [← run_append] at reached
  exact (there.now sameGeneration).1.symm

/-- A tunnel that came up, twice looked at. -/
theorem flags_agree_up :
    Agrees (run (step Config.default) (new 0 0) (upSteps 0 firstPort)).account := by
  apply (flags_agree Config.default 0 0 _ [.tick 1000]).1
  decide

/-! ### The cached client -/

/-- The client is one for the port of its generation. -/
def Fresh (machine : Machine) (cached : CachedClient) : Prop :=
  ∃ port, cached.url = bridgeUrl port ∧ machine.Current cached.generation port

theorem Fresh.published {before after : Machine} {cached : CachedClient}
    (fresh : before.Fresh cached) (published : Published before after) : after.Fresh cached := by
  obtain ⟨port, url, current⟩ := fresh
  exact ⟨port, url, current.published published⟩

theorem Fresh.proxyUrl {machine : Machine} {cached : CachedClient} (fresh : machine.Fresh cached)
    (now : cached.generation = machine.account.generation) :
    machine.account.proxyUrl = some cached.url := by
  obtain ⟨port, url, current⟩ := fresh
  have same := (current.now now).1
  rw [Account.proxyUrl, same, if_neg current.bound, url]

/-- What a call has loaded so far. -/
def CallFresh (machine : Machine) : Call → Prop
  | .loaded generation | .missed generation => generation ≤ machine.account.generation
  | .building generation url => machine.Fresh { generation, url }
  | .called | .hit _ | .done => True

/-- Every call, and the entry of the cache. -/
structure Cached (machine : Machine) : Prop where
  calls : ∀ call ∈ machine.calls, machine.CallFresh call
  entry : ∀ cached ∈ machine.cached, machine.Fresh cached

theorem CallFresh.published {before after : Machine} {call : Call}
    (fresh : before.CallFresh call) (published : Published before after) :
    after.CallFresh call := by
  have later : before.account.generation ≤ after.account.generation := by
    cases published with
    | same same _ _ => exact Nat.le_of_eq same.symm
    | closed next =>
        rw [next]
        exact Nat.le_succ _
    | opened same _ => exact Nat.le_of_eq same.symm
    | cleared same _ => exact Nat.le_of_eq same.symm
  cases call with
  | called => trivial
  | loaded generation => exact Nat.le_trans fresh later
  | missed generation => exact Nat.le_trans fresh later
  | building generation url => exact Fresh.published fresh published
  | hit cached => trivial
  | done => trivial

theorem Cached.published {before after : Machine} (cached : before.Cached)
    (published : Published before after) (calls : after.calls = before.calls)
    (entry : after.cached = before.cached) : after.Cached where
  calls := by
    rw [calls]
    intro call member
    exact (cached.calls call member).published published
  entry := by
    rw [entry]
    intro client member
    exact (cached.entry client member).published published

/-- Calls and the cache change, and nothing they depend on. -/
theorem Cached.replace {machine : Machine} {calls : List Call} {entry : Option CachedClient}
    (fresh : ∀ call ∈ calls, machine.CallFresh call)
    (entryFresh : ∀ client ∈ entry, machine.Fresh client) (cacheHolder : Option Nat) :
    Cached { machine with calls, cacheHolder, cached := entry } := by
  have published : Published machine { machine with calls, cacheHolder, cached := entry } :=
    .same rfl rfl id
  constructor
  · intro call member
    exact (fresh call member).published published
  · intro client member
    exact (entryFresh client member).published published

/-- A call loads the port of a generation that `reap` has just raised. -/
def Rushes (machine : Machine) : Action → Prop
  | .call call _ => machine.window ∧
      machine.calls[call]? = some (.missed machine.account.generation)
  | _ => False

instance Rushes.decidable (machine : Machine) : ∀ action, Decidable (machine.Rushes action)
  | .call call _ => inferInstanceAs (Decidable (machine.window ∧
      machine.calls[call]? = some (.missed machine.account.generation)))
  | .tick _ | .adjust _ | .warm | .dial | .reap | .work _ _ | .leave _ | .advance | .connected _
  | .bound _ | .abandon | .accept _ | .client | .evict => .isFalse id

private theorem calls_set {machine : Machine} (cached : machine.Cached) (call : Nat)
    (next : Call) (fresh : machine.CallFresh next) :
    ∀ present ∈ machine.calls.set call next, machine.CallFresh present := by
  intro present member
  rcases List.mem_or_eq_of_mem_set member with old | new
  · exact cached.calls present old
  · rw [new]
    exact fresh

/-- The load of the port, outside the window or for an older generation. -/
theorem fresh_load {machine : Machine} {generation : Nat}
    (past : generation ≤ machine.account.generation)
    (settled : ¬ (machine.window ∧ generation = machine.account.generation)) {url : String}
    (loads : machine.account.proxyUrl = some url) : machine.Fresh { generation, url } := by
  unfold Account.proxyUrl at loads
  split at loads
  · cases loads
  · next bound =>
      refine ⟨machine.account.socksPort, (Option.some.inj loads).symm, bound, past, ?_⟩
      intro isNow
      refine ⟨rfl, ?_⟩
      rw [Bool.eq_false_iff]
      exact fun opens => settled ⟨opens, isNow⟩

theorem cached_turn {machine : Machine} (cached : machine.Cached) (call : Nat) (success : Bool)
    (settled : ¬ machine.Rushes (.call call success)) : (machine.turn call success).Cached := by
  have moves (next : Call) (fresh : machine.CallFresh next) (cacheHolder : Option Nat) :
      Cached { machine with calls := machine.calls.set call next, cacheHolder } :=
    .replace (calls_set cached call next fresh) cached.entry cacheHolder
  unfold turn
  dsimp only
  split
  · apply moves (.loaded machine.account.generation) _ machine.cacheHolder
    exact Nat.le_refl machine.account.generation
  · next generation found =>
      have past : machine.CallFresh (.loaded generation) :=
        cached.calls _ (List.mem_of_getElem? found)
      split
      · exact cached
      · split
        · next client held =>
            split
            · exact held ▸ moves (.hit client) trivial machine.cacheHolder
            · exact held ▸ moves (.missed generation) past (some call)
        · next held => exact held ▸ moves (.missed generation) past (some call)
  · next generation found =>
      have past : machine.CallFresh (.missed generation) :=
        cached.calls _ (List.mem_of_getElem? found)
      split
      · next url loads =>
          apply moves (.building generation url) _ machine.cacheHolder
          apply fresh_load past _ loads
          intro hasty
          exact settled ⟨hasty.1, hasty.2 ▸ found⟩
      · exact moves .done trivial none
  · next generation url found =>
      have fresh : machine.CallFresh (.building generation url) :=
        cached.calls _ (List.mem_of_getElem? found)
      split
      · apply Cached.replace (calls_set cached call .done trivial)
        intro client member
        cases member
        exact fresh
      · exact moves .done trivial none
  · exact cached
  · exact cached
  · exact cached

/-- Outside a call of `client`, calls and the cache are left alone. -/
theorem work_calls (machine : Machine) (worker : Nat) (success : Bool) :
    (machine.work worker success).calls = machine.calls ∧
      (machine.work worker success).cached = machine.cached := by
  unfold work enterLive enterReap
  split
  · split
    · split
      · exact ⟨rfl, rfl⟩
      · split <;> exact ⟨rfl, rfl⟩
    · exact ⟨rfl, rfl⟩
  · split
    · split
      · exact ⟨rfl, rfl⟩
      · split <;> exact ⟨rfl, rfl⟩
    · exact ⟨rfl, rfl⟩
  · split
    · split <;> exact ⟨rfl, rfl⟩
    · exact ⟨rfl, rfl⟩
  all_goals exact ⟨rfl, rfl⟩

theorem advance_calls (machine : Machine) (config : Config) :
    (machine.advance config).calls = machine.calls ∧
      (machine.advance config).cached = machine.cached := by
  have unlocks (account : Account) (dials : Bool) (id : Nat) :
      (unlock { machine with account } dials id).calls = machine.calls ∧
        (unlock { machine with account } dials id).cached = machine.cached := by
    cases dials <;> exact ⟨rfl, rfl⟩
  unfold advance
  split
  case h_4 => exact unlocks _ _ _
  case h_8 => exact unlocks _ _ _
  case h_13 => split <;> exact ⟨rfl, rfl⟩
  case h_14 =>
    dsimp only
    split <;> exact ⟨rfl, rfl⟩
  case h_15 => split <;> exact ⟨rfl, rfl⟩
  all_goals exact ⟨rfl, rfl⟩

theorem cached_step {machine : Machine} (sound : machine.Sound) (cached : machine.Cached)
    (config : Config) {action : Action} (settled : ¬ machine.Rushes action) :
    (step config machine action).Cached := by
  have published := published_step sound config action
  cases action with
  | tick elapsed => exact cached.published published rfl rfl
  | adjust wall => exact cached.published published rfl rfl
  | warm => exact cached.published published rfl rfl
  | dial => exact cached.published published rfl rfl
  | reap => exact cached.published published rfl rfl
  | work worker success =>
      obtain ⟨calls, entry⟩ := machine.work_calls worker success
      exact cached.published published calls entry
  | leave worker =>
      obtain ⟨workers, same⟩ := machine.leave_frame worker
      rw [step, same] at published ⊢
      exact cached.published published rfl rfl
  | advance =>
      obtain ⟨calls, entry⟩ := machine.advance_calls config
      exact cached.published published calls entry
  | connected success =>
      apply cached.published published
      · rw [step, connected]
        split
        · split <;> rfl
        · rfl
      · rw [step, connected]
        split
        · split <;> rfl
        · rfl
  | bound port =>
      apply cached.published published
      · change (machine.bound port).calls = machine.calls
        unfold bound
        split <;> rfl
      · change (machine.bound port).cached = machine.cached
        unfold bound
        split <;> rfl
  | abandon =>
      apply cached.published published
      · rw [step, abandon]
        split <;> rfl
      · rw [step, abandon]
        split <;> rfl
  | accept id =>
      apply cached.published published
      · rw [step]
        split <;> rfl
      · rw [step]
        split <;> rfl
  | client =>
      apply Cached.replace _ cached.entry
      intro call member
      rcases List.mem_append.mp member with old | new
      · exact cached.calls call old
      · rw [List.mem_singleton.mp new]
        trivial
  | call call success => exact cached_turn cached call success settled
  | evict =>
      rw [step]
      split
      · exact cached
      · apply Cached.replace cached.calls
        intro client member
        cases member

theorem cached_run (config : Config) (instant wall : Nat) (steps : List Action)
    (settled : Along (step config) (fun machine action => ¬ machine.Rushes action)
      (new instant wall) steps) : (run (step config) (new instant wall) steps).Cached := by
  have kept (machine : Machine) (action : Action) (held : machine.Sound ∧ machine.Cached)
      (allowed : ¬ machine.Rushes action) :
      (step config machine action).Sound ∧ (step config machine action).Cached :=
    ⟨sound_step held.1 config action, cached_step held.1 held.2 config allowed⟩
  have start : (new instant wall).Cached := by
    constructor
    · intro call member
      cases member
    · intro client member
      cases member
  have sound : (new instant wall).Sound := Account.consistent_new
  exact (run_invariant kept steps ⟨sound, start⟩ settled).2

/-- The next step of this call returns this entry of the cache. -/
def Returns (machine : Machine) (call : Nat) (cached : CachedClient) : Prop :=
  (∃ generation, machine.calls[call]? = some (.loaded generation)) ∧
    ∀ success, (machine.turn call success).calls[call]? = some (.hit cached)

theorem Returns.entry {machine : Machine} {call : Nat} {cached : CachedClient}
    (returns : machine.Returns call cached) : machine.cached = some cached := by
  obtain ⟨⟨generation, found⟩, hits⟩ := returns
  have inside := (List.getElem?_eq_some_iff.mp found).1
  have hit := hits true
  unfold turn at hit
  rw [found] at hit
  dsimp only at hit
  split at hit
  · rw [found] at hit
    cases hit
  · split at hit
    · next client held =>
        split at hit
        · rw [List.getElem?_set_self inside] at hit
          cases hit
          exact held
        · rw [List.getElem?_set_self inside] at hit
          cases hit
    · rw [List.getElem?_set_self inside] at hit
      cases hit

/-- Neither `connect` nor `reap` is under way. -/
def settled (machine : Machine) : Bool :=
  match machine.locked with
  | none | some (.found ..) => true
  | _ => false

/-- If no call loads a port in the window, a client that is returned for the
account's generation was built for its address. -/
theorem returned_client_current (config : Config) (instant wall : Nat) (steps : List Action)
    (patient : Along (step config) (fun machine action => ¬ machine.Rushes action)
      (new instant wall) steps) (call : Nat) (cached : CachedClient)
    (returns : (run (step config) (new instant wall) steps).Returns call cached)
    (now : cached.generation =
      (run (step config) (new instant wall) steps).account.generation) :
    (run (step config) (new instant wall) steps).account.proxyUrl = some cached.url :=
  ((cached_run config instant wall steps patient).entry cached returns.entry).proxyUrl now

/-- A tunnel is retired, up to the window. -/
def windowSteps : List Action :=
  upSteps 0 firstPort ++ reapSteps 1 ++ [.tick 300000] ++ (reapSteps 2).take 7

/-- A call builds its client in the window, and the tunnel comes up again on another
port. -/
def staleSteps : List Action :=
  windowSteps ++ [.client, .call 0 true, .call 0 true, .call 0 true, .call 0 true, .advance,
    .advance] ++ upSteps 3 secondPort ++ [.client, .call 1 true]

theorem returned_client_stale :
    ∃ steps call cached,
      (run (step Config.default) (new 0 0) steps).settled ∧
      (run (step Config.default) (new 0 0) steps).Returns call cached ∧
      cached.generation = (run (step Config.default) (new 0 0) steps).account.generation ∧
      (run (step Config.default) (new 0 0) steps).account.proxyUrl ≠ some cached.url :=
  ⟨staleSteps, 1, { generation := 1, url := bridgeUrl 4242 }, by decide,
    ⟨⟨1, by decide⟩, by decide⟩, by decide, by decide⟩

/-- The same calls, with the port loaded before the tunnel is retired. -/
theorem returned_client_current_open :
    (run (step Config.default) (new 0 0) (upSteps 0 firstPort ++ [.client, .call 0 true,
      .call 0 true, .call 0 true, .call 0 true, .client, .call 1 true])).account.proxyUrl =
        some (bridgeUrl 4242) := by
  apply returned_client_current Config.default 0 0 _ (by decide) 1
    { generation := 0, url := bridgeUrl 4242 }
  · exact ⟨⟨0, by decide⟩, by decide⟩
  · decide

theorem turn_called {machine : Machine} {call : Nat} (success : Bool)
    (found : machine.calls[call]? = some .called) :
    machine.turn call success =
      { machine with calls := machine.calls.set call (.loaded machine.account.generation) } := by
  rw [turn, found]

theorem turn_missed {machine : Machine} {call generation : Nat} (success : Bool) {url : String}
    (found : machine.calls[call]? = some (.missed generation))
    (loads : machine.account.proxyUrl = some url) :
    machine.turn call success =
      { machine with calls := machine.calls.set call (.building generation url) } := by
  rw [turn, found]
  dsimp only
  rw [loads]

theorem turn_building {machine : Machine} {call generation : Nat} {url : String}
    (found : machine.calls[call]? = some (.building generation url)) :
    machine.turn call true =
      { machine with
        calls := machine.calls.set call .done
        cacheHolder := none
        cached := some { generation, url } } := by
  rw [turn, found]
  rfl

/-- A call whose generation is in the cache returns the entry. -/
theorem returns_of_loaded {machine : Machine} {call : Nat} {cached : CachedClient}
    (found : machine.calls[call]? = some (.loaded cached.generation))
    (free : machine.cacheHolder = none) (entry : machine.cached = some cached) :
    machine.Returns call cached := by
  refine ⟨⟨_, found⟩, ?_⟩
  intro success
  rw [turn, found]
  dsimp only
  rw [free, entry]
  dsimp only
  rw [if_pos rfl]
  exact List.getElem?_set_self (List.getElem?_eq_some_iff.mp found).1

/-- What is left of a run in which a call loaded the port in the window, once the
call and `reap` are done and another call has begun. -/
theorem run_rushes {machine : Machine} (sound : machine.Sound) (config : Config) {call id : Nat}
    (held : machine.locked = some (.retirePort id))
    (found : machine.calls[call]? = some (.missed machine.account.generation)) :
    run (step config) machine [.call call true, .call call true, .advance, .advance, .client,
        .call machine.calls.length true] =
      { machine with
        account := { machine.account with socksPort := 0, slot := none }
        locked := none
        retired := machine.retired ++ [id]
        calls := machine.calls.set call .done ++ [.loaded machine.account.generation]
        cacheHolder := none
        cached := some
          { generation := machine.account.generation
            url := bridgeUrl machine.account.socksPort } } := by
  have bound : machine.account.socksPort ≠ 0 := (sound.during held).bridge.mpr rfl
  have loads : machine.account.proxyUrl = some (bridgeUrl machine.account.socksPort) :=
    if_neg bound
  have inside := (List.getElem?_eq_some_iff.mp found).1
  rw [run_cons, step, turn_missed true found loads, run_cons, step,
    turn_building (List.getElem?_set_self inside), List.set_set, run_cons, step, advance]
  dsimp only
  rw [held]
  dsimp only [goto]
  rw [run_cons, step, advance]
  dsimp only
  rw [run_cons, step, run_cons, step, turn_called]
  · simp [run]
  · simp

/-- Every load in the window can be seen to go wrong: once `reap` is done, the next
call returns a client of the port that is gone. -/
theorem stale_of_rushes {machine : Machine} (sound : machine.Sound) (config : Config)
    {call : Nat} {success : Bool} (rushes : machine.Rushes (.call call success)) :
    ∃ later other cached,
      (run (step config) machine later).settled ∧
      (run (step config) machine later).Returns other cached ∧
      cached.generation = (run (step config) machine later).account.generation ∧
      (run (step config) machine later).account.proxyUrl ≠ some cached.url := by
  obtain ⟨opens, found⟩ := rushes
  obtain ⟨id, held⟩ : ∃ id, machine.locked = some (.retirePort id) := by
    unfold window at opens
    split at opens
    · next id held => exact ⟨id, held⟩
    · cases opens
  let cached : CachedClient :=
    { generation := machine.account.generation, url := bridgeUrl machine.account.socksPort }
  refine ⟨[.call call true, .call call true, .advance, .advance, .client,
    .call machine.calls.length true], machine.calls.length, cached, ?_⟩
  rw [run_rushes sound config held found]
  refine ⟨rfl, returns_of_loaded ?_ rfl rfl, rfl, ?_⟩
  · simp [cached]
  · simp [Account.proxyUrl]

end Machine

end Unroxy.Vpn
