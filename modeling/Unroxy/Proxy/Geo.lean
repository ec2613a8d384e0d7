import Unroxy.Lib.Lru
import Unroxy.Lib.Run
import Unroxy.Lib.Text

/-!
Owns `geo.rs`: the lookups of addresses, over the two caches that they share.

A step is one access to a cache, or the end of a fetch. A fetch that fails or is
late brings nothing. `fetched` records what the fetches brought; no step reads it.

Does not own the client that fetches, and the parser of JSON.
-/

namespace Unroxy.Proxy.Geo

open Unroxy.Lib
open Unroxy.Lib.Text

def exitCacheEntries : Nat := 4096

structure Lookup where
  isp : String
  country : String
deriving DecidableEq, Repr

/-- `Lookup::default`. -/
def Lookup.empty : Lookup := { isp := "", country := "" }

/-- The fields of an answer that are read, if they are of the right kind. -/
structure Body where
  success : Option Bool
  countryCode : Option String
  isp : Option String
  org : Option String
deriving DecidableEq, Repr

def isCountry (code : String) : Bool := code.length = 2 ∧ code.toList.all Char.isUpper

/-- `fetch`, once the answer is parsed. -/
def fetch (body : Body) : Lookup :=
  let isp := body.isp.getD ""
  let isp := if isp = "" then body.org.getD "" else isp
  let code := String.ofList (upper (trim (body.countryCode.getD "").toList))
  let country := if body.success.getD false ∧ isCountry code then code else ""
  { isp, country }

/-- Where a lookup is. -/
inductive Stage where
  /-- `get` of the cache of ISPs. -/
  | isp
  /-- `get` of the cache of countries. -/
  | country (isp : Option String)
  | fetching
  /-- `put` in the cache of ISPs. -/
  | putIsp (result : Lookup)
  /-- `put` in the cache of countries. -/
  | putCountry (result : Lookup)
  | done (result : Lookup)
deriving DecidableEq, Repr

/-- A call of `lookup_within`. -/
structure Call where
  ip : String
  stage : Stage
deriving DecidableEq, Repr

structure Caches where
  isps : Lru String String exitCacheEntries
  countries : Lru String String exitCacheEntries
  calls : List Call
  fetched : List (String × Lookup)

inductive Step where
  | lookupWithin (ip : String)
  /-- The next access of a call. -/
  | advance (call : Nat)
  /-- The fetch of a call ends. -/
  | answer (call : Nat) (body : Option Body)
deriving DecidableEq, Repr

/-- Both are cached, or neither is used. -/
def afterGets (isp country : Option String) : Stage :=
  match isp, country with
  | some isp, some country => .done { isp, country }
  | _, _ => .fetching

namespace Caches

def start : Caches where
  isps := .empty
  countries := .empty
  calls := []
  fetched := []

def become (self : Caches) (call : Nat) (ip : String) (stage : Stage) : Caches :=
  { self with calls := self.calls.set call { ip, stage } }

def advance (self : Caches) (call : Nat) (ip : String) : Stage → Caches
  | .isp =>
      { self with isps := self.isps.touch ip }.become call ip (.country (self.isps.peek ip))
  | .country isp =>
      { self with countries := self.countries.touch ip }.become call ip
        (afterGets isp (self.countries.peek ip))
  | .putIsp result =>
      if result.isp = "" then self.become call ip (.putCountry result)
      else { self with isps := self.isps.put ip result.isp }.become call ip (.putCountry result)
  | .putCountry result =>
      if result.country = "" then self.become call ip (.done result)
      else
        { self with countries := self.countries.put ip result.country }.become call ip
          (.done result)
  | .fetching => self
  | .done _ => self

def answer (self : Caches) (call : Nat) (ip : String) : Stage → Option Body → Caches
  | .fetching, none => self.become call ip (.done .empty)
  | .fetching, some body =>
      { self with fetched := self.fetched ++ [(ip, fetch body)] }.become call ip
        (.putIsp (fetch body))
  | _, _ => self

def step (self : Caches) : Step → Caches
  | .lookupWithin ip =>
      { self with
        calls := self.calls ++ [{ ip, stage := if ip.isEmpty then .done .empty else .isp }] }
  | .advance call =>
      match self.calls[call]? with
      | some { ip, stage } => self.advance call ip stage
      | none => self
  | .answer call body =>
      match self.calls[call]? with
      | some { ip, stage } => self.answer call ip stage body
      | none => self

/-! ### Where results come from -/

/-- A fetch for the address brought this ISP. -/
def HasIsp (self : Caches) (ip isp : String) : Prop :=
  isp ≠ "" ∧ ∃ result, (ip, result) ∈ self.fetched ∧ result.isp = isp

def HasCountry (self : Caches) (ip country : String) : Prop :=
  country ≠ "" ∧ ∃ result, (ip, result) ∈ self.fetched ∧ result.country = country

/-- The lookup found nothing, or what one fetch for the address brought, or both
from such fetches. -/
def Sourced (self : Caches) (ip : String) (result : Lookup) : Prop :=
  result = .empty ∨ (ip, result) ∈ self.fetched ∨
    (self.HasIsp ip result.isp ∧ self.HasCountry ip result.country)

/-- What a call holds belongs to its address. -/
def Fits (self : Caches) (call : Call) : Prop :=
  match call.stage with
  | .isp => call.ip ≠ ""
  | .country isp => call.ip ≠ "" ∧ ∀ found ∈ isp, self.HasIsp call.ip found
  | .fetching => call.ip ≠ ""
  | .putIsp result => (call.ip, result) ∈ self.fetched
  | .putCountry result => (call.ip, result) ∈ self.fetched
  | .done result => self.Sourced call.ip result

structure Sound (caches : Caches) : Prop where
  isps : ∀ ip isp, caches.isps.peek ip = some isp → caches.HasIsp ip isp
  countries : ∀ ip country, caches.countries.peek ip = some country → caches.HasCountry ip country
  fetched : ∀ entry ∈ caches.fetched,
    entry.1 ≠ "" ∧ (entry.2.country = "" ∨ isCountry entry.2.country)
  calls : ∀ call ∈ caches.calls, caches.Fits call

theorem sound_start : start.Sound where
  isps := by
    intro ip isp found
    cases found
  countries := by
    intro ip country found
    cases found
  fetched := by
    intro entry among
    cases among
  calls := by
    intro call among
    cases among

theorem fetch_country (body : Body) :
    (fetch body).country = "" ∨ isCountry (fetch body).country := by
  rw [fetch]
  dsimp only
  split
  case isTrue valid => exact .inr valid.2
  case isFalse => exact .inl rfl

variable {self : Caches}

theorem Sound.become (sound : self.Sound) {call : Nat} {ip : String} {stage : Stage}
    (fits : self.Fits { ip, stage }) : (self.become call ip stage).Sound where
  isps := sound.isps
  countries := sound.countries
  fetched := sound.fetched
  calls other among := by
    rcases List.mem_or_eq_of_mem_set among with old | rfl
    · exact sound.calls other old
    · exact fits

theorem Sound.withIsps (sound : self.Sound) (isps : Lru String String exitCacheEntries)
    (known : ∀ ip isp, isps.peek ip = some isp → self.HasIsp ip isp) :
    Sound { self with isps } where
  isps := known
  countries := sound.countries
  fetched := sound.fetched
  calls := sound.calls

theorem Sound.withCountries (sound : self.Sound)
    (countries : Lru String String exitCacheEntries)
    (known : ∀ ip country, countries.peek ip = some country → self.HasCountry ip country) :
    Sound { self with countries } where
  isps := sound.isps
  countries := known
  fetched := sound.fetched
  calls := sound.calls

/-- Another fetch takes nothing away. -/
theorem HasIsp.more {ip isp : String} (has : self.HasIsp ip isp) (entry : String × Lookup) :
    HasIsp { self with fetched := self.fetched ++ [entry] } ip isp := by
  obtain ⟨filled, result, among, same⟩ := has
  exact ⟨filled, result, List.mem_append_left _ among, same⟩

theorem HasCountry.more {ip country : String} (has : self.HasCountry ip country)
    (entry : String × Lookup) :
    HasCountry { self with fetched := self.fetched ++ [entry] } ip country := by
  obtain ⟨filled, result, among, same⟩ := has
  exact ⟨filled, result, List.mem_append_left _ among, same⟩

theorem Sound.fetch (sound : self.Sound) {ip : String} (filled : ip ≠ "") (body : Body) :
    Sound { self with fetched := self.fetched ++ [(ip, Geo.fetch body)] } := by
  refine ⟨fun name found there => (sound.isps name found there).more _,
    fun name found there => (sound.countries name found there).more _, ?_, ?_⟩
  · intro entry among
    rcases List.mem_append.mp among with old | new
    · exact sound.fetched entry old
    · rw [List.mem_singleton.mp new]
      exact ⟨filled, fetch_country body⟩
  · intro call among
    have fits := sound.calls call among
    obtain ⟨name, stage⟩ := call
    cases stage with
    | isp => exact fits
    | country found => exact ⟨fits.1, fun value there => (fits.2 value there).more _⟩
    | fetching => exact fits
    | putIsp result => exact List.mem_append_left _ fits
    | putCountry result => exact List.mem_append_left _ fits
    | done result =>
        exact fits.imp_right fun found => found.imp (List.mem_append_left _)
          fun both => ⟨both.1.more _, both.2.more _⟩

/-- One access keeps the caches sound. -/
theorem Sound.advance (sound : self.Sound) {call : Nat} {ip : String} {stage : Stage}
    (fits : self.Fits { ip, stage }) : (self.advance call ip stage).Sound := by
  have room : 0 < exitCacheEntries := by decide
  cases stage with
  | isp =>
      have touched := sound.withIsps (self.isps.touch ip) fun name found there =>
        sound.isps name found (Lru.peek_touch_eq_some room there)
      exact touched.become ⟨fits, fun found there => sound.isps ip found there⟩
  | country isp =>
      have touched := sound.withCountries (self.countries.touch ip)
        fun name found there => sound.countries name found (Lru.peek_touch_eq_some room there)
      apply touched.become
      unfold afterGets
      split
      case h_1 isp country there =>
        exact .inr (.inr ⟨fits.2 isp rfl, sound.countries ip country there⟩)
      case h_2 => exact fits.1
  | putIsp result =>
      rw [Caches.advance]
      split
      case isTrue => exact sound.become fits
      case isFalse filled =>
        refine Sound.become (sound.withIsps _ fun name found there => ?_) fits
        rcases Lru.peek_put_eq_some self.isps room there with ⟨rfl, rfl⟩ | before
        · exact ⟨filled, result, fits, rfl⟩
        · exact sound.isps name found before
  | putCountry result =>
      rw [Caches.advance]
      split
      case isTrue => exact sound.become (.inr (.inl fits))
      case isFalse filled =>
        refine Sound.become (sound.withCountries _ fun name found there => ?_) (.inr (.inl fits))
        rcases Lru.peek_put_eq_some self.countries room there with ⟨rfl, rfl⟩ | before
        · exact ⟨filled, result, fits, rfl⟩
        · exact sound.countries name found before
  | fetching => exact sound
  | done result => exact sound

theorem Sound.step (sound : self.Sound) (action : Step) : (self.step action).Sound := by
  cases action with
  | lookupWithin ip =>
      refine ⟨sound.isps, sound.countries, sound.fetched, ?_⟩
      intro call among
      rcases List.mem_append.mp among with old | new
      · exact sound.calls call old
      · rw [List.mem_singleton.mp new]
        by_cases empty : ip.isEmpty = true
        · rw [if_pos empty]
          exact .inl rfl
        · rw [if_neg empty]
          simpa [Fits] using empty
  | advance call =>
      rw [Caches.step]
      split
      case h_1 there => exact sound.advance (sound.calls _ (List.mem_of_getElem? there))
      case h_2 => exact sound
  | answer call body =>
      rw [Caches.step]
      split
      case h_1 ip stage there =>
        have fits := sound.calls _ (List.mem_of_getElem? there)
        unfold Caches.answer
        split
        case h_1 => exact sound.become (.inl rfl)
        case h_2 body =>
          exact (sound.fetch fits body).become (List.mem_append_right _ List.mem_cons_self)
        case h_3 => exact sound
      case h_2 => exact sound

theorem run_sound (steps : List Step) : (run step start steps).Sound := by
  have kept (caches : Caches) (action : Step) (sound : caches.Sound) :
      (caches.step action).Sound := sound.step action
  exact run_always kept steps sound_start

/-- A lookup ends with nothing, with what one fetch for its own address brought, or
with an ISP and a country from two such fetches, and a country is two letters.
Nothing empty is cached, and nothing but what a fetch for that address brought. -/
structure Honest (caches : Caches) : Prop where
  results : ∀ call ∈ caches.calls, ∀ result, call.stage = .done result →
    caches.Sourced call.ip result ∧ (result.country = "" ∨ isCountry result.country)
  isps : ∀ ip isp, caches.isps.peek ip = some isp → caches.HasIsp ip isp
  countries : ∀ ip country, caches.countries.peek ip = some country →
    caches.HasCountry ip country

/-- However any number of lookups run into each other, and whatever their fetches
bring. -/
theorem lookups_honest (steps : List Step) : Honest (run step start steps) := by
  have sound := run_sound steps
  refine ⟨?_, sound.isps, sound.countries⟩
  intro call among result done
  have sourced := sound.calls call among
  rw [Fits, done] at sourced
  refine ⟨sourced, ?_⟩
  rcases sourced with rfl | one | ⟨-, -, other, fetched, same⟩
  · exact .inl rfl
  · exact (sound.fetched _ one).2
  · rw [← same]
    exact (sound.fetched _ fetched).2

/-! ### What is cached is not fetched again -/

/-- The address that a step puts in a cache or gets from one. -/
def uses (self : Caches) : Step → Option String
  | .lookupWithin _ => none
  | .advance call => self.calls[call]?.map Call.ip
  | .answer _ _ => none

/-- Both names of the address are cached, and used after all but the others. -/
structure Cached (caches : Caches) (ip : String) (others : List String) : Prop where
  isps : caches.isps.Recent ip others
  countries : caches.countries.Recent ip others

/-- The lookup has not fetched, and has found what it asked for. -/
def Unfetched : Stage → Prop
  | .isp => True
  | .country isp => ∃ found, isp = some found ∧ found ≠ ""
  | .done result => result.isp ≠ "" ∧ result.country ≠ ""
  | _ => False

/-- The lookups for the address that began at `since` or later. -/
structure Settled (caches : Caches) (ip : String) (others : List String) (since : Nat) : Prop where
  sound : caches.Sound
  cached : caches.Cached ip others
  size : since ≤ caches.calls.length
  later : ∀ call found, since ≤ call → caches.calls[call]? = some found → found.ip = ip →
    Unfetched found.stage

variable {ip : String} {others : List String} {since : Nat}

theorem Settled.filled (settled : self.Settled ip others since) : ip ≠ "" := by
  obtain ⟨isp, there⟩ := settled.cached.isps.peek
  obtain ⟨-, result, among, -⟩ := settled.sound.isps ip isp there
  exact (settled.sound.fetched _ among).1

/-- A call goes on. -/
theorem Settled.later_become (settled : self.Settled ip others since) {call : Nat} {name : String}
    {stage : Stage} (unfetched : since ≤ call → name = ip → Unfetched stage) :
    ∀ other found, since ≤ other →
      (self.calls.set call { ip := name, stage })[other]? = some found → found.ip = ip →
        Unfetched found.stage := by
  intro other found late there same
  rw [List.getElem?_set] at there
  split at there
  case isTrue here =>
    split at there
    case isTrue =>
      cases there
      exact unfetched (here ▸ late) same
    case isFalse => cases there
  case isFalse => exact settled.later other found late there same

theorem Cached.advance (cached : self.Cached ip others) {call : Nat} {name : String}
    (used : name = ip ∨ name ∈ others) (few : others.length < exitCacheEntries) (stage : Stage) :
    (self.advance call name stage).Cached ip others := by
  have room : 0 < exitCacheEntries := by decide
  have put {cache : Lru String String exitCacheEntries} (recent : cache.Recent ip others)
      (value : String) : (cache.put name value).Recent ip others := by
    by_cases same : name = ip
    · subst same
      exact Lru.recent_put_self room
    · exact recent.put (used.resolve_left same) same few
  cases stage with
  | isp => exact ⟨cached.isps.touch used few, cached.countries⟩
  | country isp => exact ⟨cached.isps, cached.countries.touch used few⟩
  | putIsp result =>
      rw [Caches.advance]
      split
      · exact ⟨cached.isps, cached.countries⟩
      · exact ⟨put cached.isps _, cached.countries⟩
  | putCountry result =>
      rw [Caches.advance]
      split
      · exact ⟨cached.isps, cached.countries⟩
      · exact ⟨cached.isps, put cached.countries _⟩
  | fetching => exact cached
  | done result => exact cached

/-- Where an access leads a call. -/
def next (self : Caches) (name : String) : Stage → Stage
  | .isp => .country (self.isps.peek name)
  | .country isp => afterGets isp (self.countries.peek name)
  | .putIsp result => .putCountry result
  | .putCountry result => .done result
  | stage => stage

theorem calls_advance (call : Nat) (name : String) (stage : Stage) :
    (self.advance call name stage).calls = self.calls ∨
      (self.advance call name stage).calls =
        self.calls.set call { ip := name, stage := self.next name stage } := by
  cases stage with
  | isp => exact .inr rfl
  | country isp => exact .inr rfl
  | putIsp result =>
      rw [Caches.advance]
      split
      · exact .inr rfl
      · exact .inr rfl
  | putCountry result =>
      rw [Caches.advance]
      split
      · exact .inr rfl
      · exact .inr rfl
  | fetching => exact .inl rfl
  | done result => exact .inl rfl

/-- A lookup that finds the address in both caches does not fetch. -/
theorem Settled.unfetched_next (settled : self.Settled ip others since) {stage : Stage}
    (unfetched : Unfetched stage) : Unfetched (self.next ip stage) := by
  obtain ⟨isp, ispThere⟩ := settled.cached.isps.peek
  obtain ⟨country, countryThere⟩ := settled.cached.countries.peek
  cases stage with
  | isp => exact ⟨isp, ispThere, (settled.sound.isps ip isp ispThere).1⟩
  | country found =>
      obtain ⟨value, rfl, filled⟩ := unfetched
      rw [next, countryThere]
      exact ⟨filled, (settled.sound.countries ip country countryThere).1⟩
  | done result => exact unfetched
  | fetching => exact unfetched.elim
  | putIsp result => exact unfetched.elim
  | putCountry result => exact unfetched.elim

theorem Settled.advance (settled : self.Settled ip others since) {call : Nat} {name : String}
    {stage : Stage} (there : self.calls[call]? = some { ip := name, stage })
    (used : name = ip ∨ name ∈ others) (few : others.length < exitCacheEntries) :
    (self.advance call name stage).Settled ip others since := by
  have sound : (self.advance call name stage).Sound :=
    settled.sound.advance (settled.sound.calls _ (List.mem_of_getElem? there))
  have cached : (self.advance call name stage).Cached ip others :=
    settled.cached.advance used few stage
  rcases self.calls_advance call name stage with same | moved
  · exact ⟨sound, cached, same ▸ settled.size, same ▸ settled.later⟩
  · refine ⟨sound, cached, ?_, ?_⟩
    · rw [moved, List.length_set]
      exact settled.size
    · rw [moved]
      apply settled.later_become
      rintro late rfl
      exact settled.unfetched_next (settled.later call _ late there rfl)

theorem Settled.step (settled : self.Settled ip others since) (action : Step)
    (used : ∀ name ∈ self.uses action, name = ip ∨ name ∈ others)
    (few : others.length < exitCacheEntries) : (self.step action).Settled ip others since := by
  have sound := settled.sound.step action
  cases action with
  | lookupWithin name =>
      refine ⟨sound, ⟨settled.cached.isps, settled.cached.countries⟩, ?_, ?_⟩
      · rw [Caches.step, List.length_append]
        exact Nat.le_add_right_of_le settled.size
      · intro call found late there same
        rw [Caches.step] at there
        rcases Nat.lt_or_ge call self.calls.length with old | new
        · rw [List.getElem?_append_left old] at there
          exact settled.later call found late there same
        · rw [List.getElem?_append_right new] at there
          rw [List.mem_singleton.mp (List.mem_of_getElem? there)] at same ⊢
          have filled : ¬ name.isEmpty := by
            rw [String.isEmpty_iff, show name = ip from same]
            exact settled.filled
          rw [if_neg filled]
          trivial
  | advance call =>
      rw [Caches.step]
      split
      case h_1 name stage there =>
        exact settled.advance there (used name (by rw [uses, there]; rfl)) few
      case h_2 => exact settled
  | answer call body =>
      rw [Caches.step] at sound ⊢
      split
      case h_1 name stage there =>
        rw [there] at sound
        -- A lookup that is fetching began before, or is for another address.
        have elsewhere : stage = .fetching → ∀ next, since ≤ call → name = ip → Unfetched next := by
          rintro rfl next late rfl
          exact (settled.later call _ late there rfl).elim
        unfold Caches.answer at sound ⊢
        split
        case h_1 =>
          refine ⟨sound, ⟨settled.cached.isps, settled.cached.countries⟩, ?_,
            settled.later_become (elsewhere rfl _)⟩
          exact (List.length_set ..).symm ▸ settled.size
        case h_2 body =>
          refine ⟨sound, ⟨settled.cached.isps, settled.cached.countries⟩, ?_,
            settled.later_become (elsewhere rfl _)⟩
          exact (List.length_set ..).symm ▸ settled.size
        case h_3 => exact settled
      case h_2 => exact settled

/-- Once both names of an address are cached, no lookup for it that begins later
fetches, or ends with less, while fewer other addresses are looked up than there is
room for, whatever the other lookups do in between. -/
theorem cached_settles (steps later : List Step) (ip : String) (others : List String)
    (few : others.length < exitCacheEntries)
    (cached : (run step start steps).Cached ip others)
    (used : Along step (fun caches action =>
      ∀ name ∈ caches.uses action, name = ip ∨ name ∈ others) (run step start steps) later) :
    (run step start (steps ++ later)).Cached ip others ∧
      ∀ call found, (run step start steps).calls.length ≤ call →
        (run step start (steps ++ later)).calls[call]? = some found → found.ip = ip →
          Unfetched found.stage := by
  have begins : (run step start steps).Settled ip others (run step start steps).calls.length := by
    refine ⟨run_sound steps, cached, Nat.le_refl _, ?_⟩
    intro call found late there
    rw [List.getElem?_eq_none late] at there
    cases there
  have kept (caches : Caches) (action : Step)
      (settled : caches.Settled ip others (run step start steps).calls.length)
      (used : ∀ name ∈ caches.uses action, name = ip ∨ name ∈ others) :
      (caches.step action).Settled ip others (run step start steps).calls.length :=
    settled.step action used few
  have ends := run_invariant kept later begins used
  rw [run_append]
  exact ⟨ends.cached, ends.later⟩

/-- A lookup that fetches both names. -/
def firstLookup : List Step :=
  [.lookupWithin "203.0.113.9", .advance 0, .advance 0,
    .answer 0 (some ⟨some true, some " sg", some "", some "ExampleOrg"⟩), .advance 0, .advance 0]

/-- It again, while another address is looked up in vain. -/
def secondLookup : List Step :=
  [.lookupWithin "198.51.100.4", .lookupWithin "203.0.113.9", .advance 1, .advance 2, .advance 1,
    .answer 1 none, .advance 2]

theorem cached_settles_second :
    ∃ call ∈ (run step start (firstLookup ++ secondLookup)).calls[2]?, Unfetched call.stage := by
  have cached : (run step start firstLookup).Cached "203.0.113.9" ["198.51.100.4"] :=
    ⟨⟨[], "ExampleOrg", [], by decide, by decide⟩, ⟨[], "SG", [], by decide, by decide⟩⟩
  have settles := cached_settles firstLookup secondLookup "203.0.113.9" ["198.51.100.4"]
    (by decide) cached (by decide)
  have ends : (run step start (firstLookup ++ secondLookup)).calls[2]? =
      some ⟨"203.0.113.9", .done ⟨"ExampleOrg", "SG"⟩⟩ := by decide
  exact ⟨_, ends, settles.2 2 _ (by decide) ends rfl⟩

end Caches

end Unroxy.Proxy.Geo
