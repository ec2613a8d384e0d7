import Unroxy.Lib.IpReader
import Unroxy.OpenVpn.Profile

/-!
Owns `parse_push` of `openvpn/control.rs`: what the elements of a push reply set.

`settingOf` is what one element sets, on its own; an `ifconfig` element sets both
addresses, to none if they are not there. The reply is the fold over its elements, and
`parsePush_eq` says which element each field comes from.

Does not own what the session does with the result.
-/

namespace Unroxy.OpenVpn

open Unroxy.Lib.IpReader (parseIpv4)
open Unroxy.Lib.Text

/-- An IPv4 address by its four octets. -/
abbrev Ipv4Addr := List Nat

structure Pushed where
  cipher : Option Cipher
  peerId : Option PeerId
  localAddr : Option Ipv4Addr
  remote : Option Ipv4Addr
deriving DecidableEq, Repr

def Pushed.default : Pushed := ⟨none, none, none, none⟩

/-- One turn of the loop. -/
def Pushed.read (pushed : Pushed) (element : List Char) : Pushed :=
  let line := trim element
  match stripStart "peer-id ".toList line with
  | some peer =>
      match parseUnsigned UInt32.size (trim peer) with
      | some id => { pushed with peerId := some ⟨UInt32.ofNat id⟩ }
      | none => pushed
  | none =>
      match stripStart "cipher ".toList line with
      | some name =>
          match Cipher.parse (String.ofList name) with
          | some cipher => { pushed with cipher := some cipher }
          | none => pushed
      | none =>
          match stripStart "data-ciphers ".toList line with
          | some names =>
              -- The first name that is known, and none after it.
              match (names.splitOn ':').findSome? fun name => Cipher.parse (String.ofList name) with
              | some parsed => { pushed with cipher := some parsed }
              | none => pushed
          | none =>
              match stripStart "ifconfig ".toList line with
              | some rest =>
                  let parts := splitWhitespace rest
                  { pushed with
                    localAddr := parts[0]?.bind parseIpv4
                    remote := parts[1]?.bind parseIpv4 }
              | none => pushed

def parsePush (reply : String) : Pushed :=
  (reply.toList.splitOn ',').foldl Pushed.read .default

example : parsePush "PUSH_REPLY,ifconfig 10.8.0.6 255.255.255.0, peer-id 3" =
    ⟨none, some ⟨3⟩, some [10, 8, 0, 6], some [255, 255, 255, 0]⟩ := by
  decide

/-! ### What one element sets -/

inductive Setting where
  | peerId (id : PeerId)
  | cipher (suite : Cipher)
  | ifconfig (localAddr remote : Option Ipv4Addr)
  | nothing
deriving DecidableEq, Repr

namespace Setting

def peerId? : Setting → Option PeerId
  | .peerId id => some id
  | _ => none

def cipher? : Setting → Option Cipher
  | .cipher suite => some suite
  | _ => none

/-- Both addresses, there or not. -/
def addresses? : Setting → Option (Option Ipv4Addr × Option Ipv4Addr)
  | .ifconfig localAddr remote => some (localAddr, remote)
  | _ => none

/-- The address of a well-formed `ifconfig`. -/
def address? : Setting → Option Ipv4Addr
  | .ifconfig localAddr _ => localAddr
  | _ => none

end Setting

/-- `Pushed::default` with only what the element sets. -/
def settingOf (element : List Char) : Setting :=
  let line := trim element
  match stripStart "peer-id ".toList line with
  | some peer => ((parseUnsigned UInt32.size (trim peer)).map fun id =>
      .peerId ⟨UInt32.ofNat id⟩).getD .nothing
  | none =>
      match stripStart "cipher ".toList line with
      | some name => ((Cipher.parse (String.ofList name)).map .cipher).getD .nothing
      | none =>
          match stripStart "data-ciphers ".toList line with
          | some names =>
              (((names.splitOn ':').findSome? fun name => Cipher.parse (String.ofList name)).map
                .cipher).getD .nothing
          | none =>
              match stripStart "ifconfig ".toList line with
              | some rest =>
                  let parts := splitWhitespace rest
                  .ifconfig (parts[0]?.bind parseIpv4) (parts[1]?.bind parseIpv4)
              | none => .nothing

def Pushed.set (pushed : Pushed) : Setting → Pushed
  | .peerId id => { pushed with peerId := some id }
  | .cipher suite => { pushed with cipher := some suite }
  | .ifconfig localAddr remote => { pushed with localAddr, remote }
  | .nothing => pushed

theorem Pushed.read_eq (pushed : Pushed) (element : List Char) :
    pushed.read element = pushed.set (settingOf element) := by
  unfold Pushed.read settingOf
  dsimp only
  split
  next peer _ =>
    cases parseUnsigned UInt32.size (trim peer) with
    | none => rfl
    | some id => rfl
  next =>
    split
    next name _ =>
      cases Cipher.parse (String.ofList name) with
      | none => rfl
      | some cipher => rfl
    next =>
      split
      next names _ =>
        cases (names.splitOn ':').findSome? fun name => Cipher.parse (String.ofList name) with
        | none => rfl
        | some parsed => rfl
      next =>
        split
        next => rfl
        next => rfl

/-! ### Which element each field comes from -/

section Last

variable {α : Type}

/-- What the last of the elements that set something of a kind sets. -/
def lastOf (pick : Setting → Option α) (elements : List (List Char)) : Option α :=
  (elements.filterMap fun element => pick (settingOf element)).getLast?

@[simp] theorem lastOf_append (pick : Setting → Option α) (front back : List (List Char)) :
    lastOf pick (front ++ back) = (lastOf pick back).or (lastOf pick front) := by
  simp [lastOf, List.getLast?_append]

@[simp] theorem lastOf_cons (pick : Setting → Option α) (element : List Char)
    (rest : List (List Char)) :
    lastOf pick (element :: rest) = (lastOf pick rest).or (pick (settingOf element)) := by
  have single : lastOf pick [element] = pick (settingOf element) := by
    cases here : pick (settingOf element) <;> simp [lastOf, here]
  rw [← single, ← lastOf_append, List.singleton_append]

/-- The addresses of the last `ifconfig`, well-formed or not. -/
def addressesOf (elements : List (List Char)) : Option Ipv4Addr × Option Ipv4Addr :=
  (lastOf Setting.addresses? elements).getD (none, none)

theorem foldl_read (elements : List (List Char)) :
    elements.foldl Pushed.read .default =
      { cipher := lastOf Setting.cipher? elements
        peerId := lastOf Setting.peerId? elements
        localAddr := (addressesOf elements).1
        remote := (addressesOf elements).2 } := by
  induction elements using List.reverseRecOn with
  | nil => rfl
  | append_singleton front element inductionHypothesis =>
      rw [List.foldl_append, List.foldl_cons, List.foldl_nil, inductionHypothesis,
        Pushed.read_eq]
      simp only [addressesOf, lastOf_append, lastOf_cons]
      cases settingOf element with
      | peerId id => rfl
      | cipher suite => rfl
      | ifconfig localAddr remote => rfl
      | nothing => rfl

theorem parsePush_eq (reply : String) :
    parsePush reply =
      { cipher := lastOf Setting.cipher? (reply.toList.splitOn ',')
        peerId := lastOf Setting.peerId? (reply.toList.splitOn ',')
        localAddr := (addressesOf (reply.toList.splitOn ',')).1
        remote := (addressesOf (reply.toList.splitOn ',')).2 } :=
  foldl_read _

end Last

/-! ### Elements whose value does not parse -/

inductive Malformed (element : List Char) : Prop where
  | peerId (value : List Char) (named : stripStart "peer-id ".toList (trim element) = some value)
      (unparsed : parseUnsigned UInt32.size (trim value) = none)
  | cipher (name : List Char) (named : stripStart "cipher ".toList (trim element) = some name)
      (unparsed : Cipher.parse (String.ofList name) = none)
  | dataCiphers (names : List Char)
      (named : stripStart "data-ciphers ".toList (trim element) = some names)
      (unparsed : ∀ name ∈ names.splitOn ':', Cipher.parse (String.ofList name) = none)
  | ifconfig (rest : List Char) (named : stripStart "ifconfig ".toList (trim element) = some rest)
      (unparsed : (splitWhitespace rest)[0]?.bind parseIpv4 = none)
  | unknown (unnamed : ∀ name ∈ ["peer-id ", "cipher ", "data-ciphers ", "ifconfig "],
      stripStart name.toList (trim element) = none)

/-- Such an element sets nothing, unless it is an `ifconfig`. -/
theorem Malformed.setting {element : List Char} (malformed : Malformed element) :
    settingOf element = .nothing ∨ ∃ remote, settingOf element = .ifconfig none remote := by
  cases malformed with
  | peerId value named unparsed =>
      left
      simp only [settingOf, named, unparsed]
      rfl
  | cipher name named unparsed =>
      left
      have noPeer : stripStart "peer-id ".toList (trim element) = none :=
        stripStart_eq_none named (by decide)
      simp only [settingOf, noPeer, named, unparsed]
      rfl
  | dataCiphers names named unparsed =>
      left
      have noPeer : stripStart "peer-id ".toList (trim element) = none :=
        stripStart_eq_none named (by decide)
      have noCipher : stripStart "cipher ".toList (trim element) = none :=
        stripStart_eq_none named (by decide)
      have unknown : ((names.splitOn ':').findSome? fun name =>
          Cipher.parse (String.ofList name)) = none := List.findSome?_eq_none_iff.mpr unparsed
      simp only [settingOf, noPeer, noCipher, named, unknown]
      rfl
  | ifconfig rest named unparsed =>
      right
      have noPeer : stripStart "peer-id ".toList (trim element) = none :=
        stripStart_eq_none named (by decide)
      have noCipher : stripStart "cipher ".toList (trim element) = none :=
        stripStart_eq_none named (by decide)
      have noCiphers : stripStart "data-ciphers ".toList (trim element) = none :=
        stripStart_eq_none named (by decide)
      simp only [settingOf, noPeer, noCipher, noCiphers, named, unparsed]
      exact ⟨_, rfl⟩
  | unknown unnamed =>
      left
      have noPeer := unnamed "peer-id " (by decide)
      have noCipher := unnamed "cipher " (by decide)
      have noCiphers := unnamed "data-ciphers " (by decide)
      have noIfconfig := unnamed "ifconfig " (by decide)
      simp only [settingOf, noPeer, noCipher, noCiphers, noIfconfig]

/-- The reply with these elements. -/
def joined (elements : List (List Char)) : String := String.ofList ([','].intercalate elements)

/-- Where an inserted `ifconfig` without an address changes nothing: one comes after it,
or the last one before it has no address either and the same second one. -/
def Spared (front : List (List Char)) (element : List Char) (back : List (List Char)) : Prop :=
  ∀ remote, settingOf element = .ifconfig none remote →
    (∃ later ∈ back, (settingOf later).addresses? ≠ none) ∨ addressesOf front = (none, remote)

section Insertion

variable {reply : String} {front back : List (List Char)} {element : List Char}

theorem splitOn_joined (cut : reply.toList.splitOn ',' = front ++ back) (plain : ',' ∉ element) :
    (joined (front ++ element :: back)).toList.splitOn ',' = front ++ element :: back := by
  have plainAll : ∀ part ∈ front ++ element :: back, ',' ∉ part := by
    intro part isPart
    rw [List.mem_append, List.mem_cons] at isPart
    rcases isPart with inFront | rfl | inBack
    · exact notMem_of_mem_splitOn (cut ▸ List.mem_append_left back inFront)
    · exact plain
    · exact notMem_of_mem_splitOn (cut ▸ List.mem_append_right front inBack)
  rw [joined, String.toList_ofList, List.splitOn_intercalate ',' plainAll (by simp)]

theorem lastOf_eq_none_iff {α : Type} {pick : Setting → Option α} {elements : List (List Char)} :
    lastOf pick elements = none ↔ ∀ element ∈ elements, pick (settingOf element) = none := by
  rw [lastOf, List.getLast?_eq_none_iff, List.filterMap_eq_nil_iff]

/-- The addresses after an `ifconfig` without an address was inserted. -/
theorem addressesOf_insert_iff {remote : Option Ipv4Addr}
    (broken : settingOf element = .ifconfig none remote) :
    addressesOf (front ++ element :: back) = addressesOf (front ++ back) ↔
      (∃ later ∈ back, (settingOf later).addresses? ≠ none) ∨
        addressesOf front = (none, remote) := by
  have here : (settingOf element).addresses? = some (none, remote) := by rw [broken]; rfl
  simp only [addressesOf, lastOf_append, lastOf_cons, here]
  cases after : lastOf Setting.addresses? back with
  | some addresses =>
      have follows : ∃ later ∈ back, (settingOf later).addresses? ≠ none := by
        by_contra none
        push Not at none
        rw [lastOf_eq_none_iff.mpr none] at after
        cases after
      simp [follows]
  | none =>
      have nothing : ¬ ∃ later ∈ back, (settingOf later).addresses? ≠ none := by
        rintro ⟨later, isLater, sets⟩
        exact sets (lastOf_eq_none_iff.mp after later isLater)
      rw [or_iff_right nothing]
      simp only [Option.none_or, Option.some_or, Option.getD_some]
      exact eq_comm

/-- An element whose value does not parse changes nothing exactly where it is spared. -/
theorem parsePush_insert_iff (cut : reply.toList.splitOn ',' = front ++ back)
    (plain : ',' ∉ element) (malformed : Malformed element) :
    parsePush (joined (front ++ element :: back)) = parsePush reply ↔
      Spared front element back := by
  rw [parsePush_eq, parsePush_eq, splitOn_joined cut plain, cut]
  rcases malformed.setting with nothing | ⟨remote, broken⟩
  · have spared : Spared front element back := by
      intro remote broken
      rw [nothing] at broken
      cases broken
    simp only [spared, addressesOf, lastOf_append, lastOf_cons, nothing,
      Setting.cipher?, Setting.peerId?, Setting.addresses?, Option.or_none]
  · have sameAddresses := @addressesOf_insert_iff front back element remote broken
    have spared_iff : Spared front element back ↔
        addressesOf (front ++ element :: back) = addressesOf (front ++ back) := by
      rw [sameAddresses]
      constructor
      · exact fun spared => spared remote broken
      · intro spared other same
        rw [broken] at same
        cases same
        exact spared
    rw [spared_iff, Prod.ext_iff]
    simp [lastOf_append, lastOf_cons, broken, Setting.cipher?, Setting.peerId?]

end Insertion

/-! ### The last well-formed element -/

/-- The fields are those of the last well-formed elements. -/
def FromLast (pushed : Pushed) (elements : List (List Char)) : Prop :=
  pushed.cipher = lastOf Setting.cipher? elements ∧
    pushed.peerId = lastOf Setting.peerId? elements ∧
    pushed.localAddr = lastOf Setting.address? elements

/-- If the last `ifconfig` has no address then no `ifconfig` has one. -/
def EndsWell (elements : List (List Char)) : Prop :=
  ∀ remote, lastOf Setting.addresses? elements = some (none, remote) →
    ∀ element ∈ elements, (settingOf element).address? = none

section FromLast

variable {elements : List (List Char)}

theorem lastOf_address_eq_some {address : Ipv4Addr} {remote : Option Ipv4Addr}
    (last : lastOf Setting.addresses? elements = some (some address, remote)) :
    lastOf Setting.address? elements = some address := by
  induction elements using List.reverseRecOn with
  | nil => cases last
  | append_singleton front element inductionHypothesis =>
      rw [lastOf_append, lastOf_cons] at last ⊢
      cases setting : settingOf element with
      | ifconfig localAddr other =>
          rw [setting] at last
          cases last
          rfl
      | peerId id =>
          rw [setting] at last
          exact inductionHypothesis last
      | cipher suite =>
          rw [setting] at last
          exact inductionHypothesis last
      | nothing =>
          rw [setting] at last
          exact inductionHypothesis last

theorem address_eq_none_of_addresses {setting : Setting} (unset : setting.addresses? = none) :
    setting.address? = none := by
  cases setting with
  | ifconfig localAddr remote => cases unset
  | peerId id => rfl
  | cipher suite => rfl
  | nothing => rfl

theorem addressesOf_eq_iff :
    (addressesOf elements).1 = lastOf Setting.address? elements ↔ EndsWell elements := by
  unfold EndsWell addressesOf
  cases last : lastOf Setting.addresses? elements with
  | none =>
      have unset : lastOf Setting.address? elements = none := by
        rw [lastOf_eq_none_iff] at last ⊢
        exact fun element member => address_eq_none_of_addresses (last element member)
      simp [unset]
  | some addresses =>
      obtain ⟨localAddr, remote⟩ := addresses
      cases localAddr with
      | some address => simp [lastOf_address_eq_some last]
      | none =>
          rw [← lastOf_eq_none_iff]
          simp [eq_comm]

theorem fromLast_iff (reply : String) :
    FromLast (parsePush reply) (reply.toList.splitOn ',') ↔
      EndsWell (reply.toList.splitOn ',') := by
  rw [parsePush_eq, ← addressesOf_eq_iff]
  simp [FromLast]

end FromLast

/-- When an element whose value does not parse is a no-op, and when the result is that
of the last well-formed elements. -/
theorem parsePush_iff (reply : String) :
    (∀ (front back : List (List Char)) (element : List Char),
      reply.toList.splitOn ',' = front ++ back → ',' ∉ element → Malformed element →
        (parsePush (joined (front ++ element :: back)) = parsePush reply ↔
          Spared front element back)) ∧
      (FromLast (parsePush reply) (reply.toList.splitOn ',') ↔
        EndsWell (reply.toList.splitOn ',')) :=
  ⟨fun _ _ _ => parsePush_insert_iff, fromLast_iff reply⟩

/-- An `ifconfig` without an address before one with an address. -/
theorem parsePush_early_ifconfig :
    Malformed "ifconfig dhcp".toList ∧
      parsePush (joined ["PUSH_REPLY".toList, "ifconfig dhcp".toList,
          "ifconfig 10.8.0.6 255.255.255.0".toList]) =
        parsePush "PUSH_REPLY,ifconfig 10.8.0.6 255.255.255.0" := by
  have malformed : Malformed "ifconfig dhcp".toList :=
    .ifconfig "dhcp".toList (by decide) (by decide)
  refine ⟨malformed, ?_⟩
  apply ((parsePush_iff "PUSH_REPLY,ifconfig 10.8.0.6 255.255.255.0").1 ["PUSH_REPLY".toList]
    ["ifconfig 10.8.0.6 255.255.255.0".toList] "ifconfig dhcp".toList (by decide) (by decide)
    malformed).mpr
  intro remote broken
  exact .inl ⟨_, List.mem_singleton_self _, by decide⟩

/-- The addresses of an `ifconfig` are lost if one without an address comes after it. -/
theorem parsePush_late_ifconfig :
    Malformed "ifconfig dhcp".toList ∧
      (parsePush "PUSH_REPLY,ifconfig 10.8.0.6 255.255.255.0").localAddr = some [10, 8, 0, 6] ∧
      parsePush (joined ["PUSH_REPLY".toList, "ifconfig 10.8.0.6 255.255.255.0".toList,
        "ifconfig dhcp".toList]) = .default ∧
      ¬ FromLast (parsePush "PUSH_REPLY,ifconfig 10.8.0.6 255.255.255.0,ifconfig dhcp")
        ["PUSH_REPLY".toList, "ifconfig 10.8.0.6 255.255.255.0".toList, "ifconfig dhcp".toList] :=
  ⟨.ifconfig "dhcp".toList (by decide) (by decide), by decide, by decide,
    fun last => absurd last.2.2 (by decide)⟩

end Unroxy.OpenVpn
