import Mathlib.Data.List.Sort
import Unroxy.Lib.Dedup
import Unroxy.OpenVpn.Profile

/-!
Owns `Account::profile` of `vpn/account.rs`: the profile, and above all the list of
servers, that an embedded account stands for.

`sort_by_key` is a stable sort, and `dedup_by` compares a server with the last one
that was kept.

Does not own how the accounts are read from their files.
-/

namespace Unroxy.Vpn.Embedded

open Unroxy.Lib.Dedup
open Unroxy.Lib.Text
open Unroxy.OpenVpn (Auth Cipher Credentials Profile Protocol Server)

inductive Error where
  | account (message : String)
deriving DecidableEq, Repr

def Error.message : Error → String
  | .account message => "account: " ++ message

structure Remote where
  port : Option UInt16
  protocol : Option String
deriving DecidableEq, Repr

structure Account where
  cipher : Option String
  auth : Option String
  ca : String
  cert : String
  key : String
  remotes : List Remote
deriving DecidableEq, Repr

def protocolOf : Option String → Protocol
  | some "tcp" | some "tcp-client" | some "tcp-server" => .tcp
  | _ => .udp

/-- A PEM block ends with a newline. -/
def pem (value label : String) : String :=
  let value := trim value.toList
  let first := ("-----BEGIN " ++ label ++ "-----").toList
  let last := ("-----END " ++ label ++ "-----").toList
  if first.isPrefixOf value ∧ last.isSuffixOf value then String.ofList (value ++ ['\n'])
  else String.ofList value

/-- The key that servers are sorted by. -/
def notUdp (server : Server) : Bool := server.protocol ≠ .udp

namespace Account

def cipherOf (self : Account) : Except Error Cipher :=
  match self.cipher with
  | some name =>
      match Cipher.parse name with
      | some cipher => .ok cipher
      | none => .error (.account ("cipher " ++ name))
  | none => .ok .aes256Gcm

/-- The servers of the remotes, in their order. -/
def remoteServers (self : Account) (host : String) : List Server :=
  let servers := self.remotes.map fun remote =>
    { host, port := remote.port.getD 1194, protocol := protocolOf remote.protocol : Server }
  if servers = [] then [{ host, port := 1194, protocol := .udp }] else servers

def servers (self : Account) (host : String) : List Server :=
  dedupBy (fun a b => a.port == b.port && a.protocol == b.protocol)
    ((self.remoteServers host).insertionSort fun a b => notUdp a ≤ notUdp b)

def profile (self : Account) (host : String) : Except Error Profile :=
  match self.cipherOf with
  | .error error => .error error
  | .ok cipher =>
      .ok
        { servers := self.servers host
          cipher
          auth := (self.auth.bind Auth.parse).getD .sha1
          credentials :=
            { ca := pem self.ca "CERTIFICATE"
              cert := pem self.cert "CERTIFICATE"
              key := pem self.key "PRIVATE KEY" } }

end Account

/-- The default cipher is what its name is read as. -/
example : Cipher.parse "AES-256-GCM" = some .aes256Gcm := by
  decide

/-! ### The sort -/

section Sorting

variable {server : Server}

theorem orderedInsert_udp (udp : notUdp server = false) (rest : List Server) :
    rest.orderedInsert (fun a b => notUdp a ≤ notUdp b) server = server :: rest := by
  cases rest with
  | nil => rfl
  | cons first rest => simp [udp]

theorem orderedInsert_tcp (tcp : notUdp server = true) {front back : List Server}
    (frontUdp : ∀ other ∈ front, notUdp other = false)
    (backTcp : ∀ other ∈ back, notUdp other = true) :
    (front ++ back).orderedInsert (fun a b => notUdp a ≤ notUdp b) server =
      front ++ server :: back := by
  induction front with
  | nil =>
      cases back with
      | nil => rfl
      | cons first back => simp [tcp, backTcp first List.mem_cons_self]
  | cons first front inductionHypothesis =>
      have later := inductionHypothesis fun other member =>
        frontUdp other (List.mem_cons_of_mem _ member)
      simp [tcp, frontUdp first List.mem_cons_self, later]

/-- A stable sort by one bit puts those without it first. -/
theorem insertionSort_notUdp (servers : List Server) :
    servers.insertionSort (fun a b => notUdp a ≤ notUdp b) =
      servers.filter (fun server => !notUdp server) ++ servers.filter notUdp := by
  induction servers with
  | nil => rfl
  | cons server servers inductionHypothesis =>
      rw [List.insertionSort_cons, inductionHypothesis]
      by_cases tcp : notUdp server = true
      · have frontUdp : ∀ other ∈ servers.filter (fun server => !notUdp server),
            notUdp other = false := by
          intro other member
          simpa using List.of_mem_filter member
        have backTcp : ∀ other ∈ servers.filter notUdp, notUdp other = true :=
          fun other member => List.of_mem_filter member
        rw [orderedInsert_tcp tcp frontUdp backTcp]
        simp [tcp]
      · rw [Bool.not_eq_true] at tcp
        rw [orderedInsert_udp tcp]
        simp [tcp]

end Sorting

/-! ### The pairs of port and protocol -/

def pairOf (server : Server) : UInt16 × Protocol := (server.port, server.protocol)

/-- What the account asks for, with its defaults, in the order of its remotes. -/
def Account.wanted (self : Account) : List (UInt16 × Protocol) :=
  if self.remotes = [] then [(1194, .udp)]
  else self.remotes.map fun remote => (remote.port.getD 1194, protocolOf remote.protocol)

def ofProtocol (protocol : Protocol) (pairs : List (UInt16 × Protocol)) :
    List (UInt16 × Protocol) :=
  pairs.filter fun pair => pair.2 = protocol

theorem map_pairOf_remoteServers (account : Account) (host : String) :
    (account.remoteServers host).map pairOf = account.wanted := by
  by_cases empty : account.remotes = []
  · simp [Account.remoteServers, Account.wanted, empty, pairOf]
  · simp [Account.remoteServers, Account.wanted, empty, pairOf]

theorem map_pairOf_servers (account : Account) (host : String) :
    (account.servers host).map pairOf =
      dedup (ofProtocol .udp account.wanted ++ ofProtocol .tcp account.wanted) := by
  have byPair : ∀ a b : Server,
      (a.port == b.port && a.protocol == b.protocol) ↔ pairOf a = pairOf b := by
    simp [pairOf]
  have sameUdp : (fun server => !notUdp server) =
      (fun pair : UInt16 × Protocol => decide (pair.2 = .udp)) ∘ pairOf := by
    funext server
    cases protocol : server.protocol with
    | udp => simp [notUdp, pairOf, protocol]
    | tcp => simp [notUdp, pairOf, protocol]
  have sameTcp : notUdp = (fun pair : UInt16 × Protocol => decide (pair.2 = .tcp)) ∘ pairOf := by
    funext server
    cases protocol : server.protocol with
    | udp => simp [notUdp, pairOf, protocol]
    | tcp => simp [notUdp, pairOf, protocol]
  rw [Account.servers, map_dedupBy pairOf byPair, insertionSort_notUdp, List.map_append, sameUdp,
    sameTcp, ← List.filter_map, ← List.filter_map, map_pairOf_remoteServers]
  rfl

/-- The pairs are those that are wanted, each of them once, UDP first, and otherwise
in the order of first occurrence. -/
structure Listed (wanted pairs : List (UInt16 × Protocol)) : Prop where
  filled : pairs ≠ []
  distinct : pairs.Nodup
  exact : ∀ pair, pair ∈ pairs ↔ pair ∈ wanted
  udpFirst : pairs.Pairwise fun first second => ¬ (first.2 = .tcp ∧ second.2 = .udp)
  ordered : pairs.Pairwise fun first second =>
    first.2 = second.2 → wanted.idxOf first < wanted.idxOf second

section Listing

variable {wanted : List (UInt16 × Protocol)}

theorem mem_ofProtocol {protocol : Protocol} {pair : UInt16 × Protocol} :
    pair ∈ ofProtocol protocol wanted ↔ pair ∈ wanted ∧ pair.2 = protocol := by
  simp [ofProtocol, List.mem_filter]

theorem mem_sorted {pair : UInt16 × Protocol} :
    pair ∈ ofProtocol .udp wanted ++ ofProtocol .tcp wanted ↔ pair ∈ wanted := by
  rw [List.mem_append, mem_ofProtocol, mem_ofProtocol, ← and_or_left]
  apply and_iff_left
  cases pair.2 with
  | udp => exact .inl rfl
  | tcp => exact .inr rfl

theorem sorted_apart : ∀ pair ∈ ofProtocol .udp wanted, pair ∉ ofProtocol .tcp wanted := by
  intro pair isUdp isTcp
  have udp := (mem_ofProtocol.mp isUdp).2
  rw [(mem_ofProtocol.mp isTcp).2] at udp
  cases udp

theorem sorted_udpFirst :
    (ofProtocol .udp wanted ++ ofProtocol .tcp wanted).Pairwise
      fun first second => ¬ (first.2 = .tcp ∧ second.2 = .udp) := by
  refine List.pairwise_append.mpr ⟨?_, ?_, ?_⟩
  · apply List.pairwise_of_forall_mem_list
    rintro first isFirst second - ⟨tcp, -⟩
    rw [(mem_ofProtocol.mp isFirst).2] at tcp
    cases tcp
  · apply List.pairwise_of_forall_mem_list
    rintro first - second isSecond ⟨-, udp⟩
    rw [(mem_ofProtocol.mp isSecond).2] at udp
    cases udp
  · rintro first isFirst second - ⟨tcp, -⟩
    rw [(mem_ofProtocol.mp isFirst).2] at tcp
    cases tcp

/-- Of one protocol, the sort keeps the order of first occurrence. -/
theorem idxOf_lt_of_sorted {first second : UInt16 × Protocol} (isFirst : first ∈ wanted)
    (isSecond : second ∈ wanted) (same : first.2 = second.2)
    (before : (ofProtocol .udp wanted ++ ofProtocol .tcp wanted).idxOf first <
      (ofProtocol .udp wanted ++ ofProtocol .tcp wanted).idxOf second) :
    wanted.idxOf first < wanted.idxOf second := by
  have within : (ofProtocol first.2 wanted).idxOf first <
      (ofProtocol first.2 wanted).idxOf second := by
    have firstHere : first ∈ ofProtocol first.2 wanted := mem_ofProtocol.mpr ⟨isFirst, rfl⟩
    have secondHere : second ∈ ofProtocol first.2 wanted :=
      mem_ofProtocol.mpr ⟨isSecond, same.symm⟩
    cases protocol : first.2 with
    | udp =>
        rw [protocol] at firstHere secondHere
        rwa [List.idxOf_append_of_mem firstHere, List.idxOf_append_of_mem secondHere] at before
    | tcp =>
        rw [protocol] at firstHere secondHere
        have firstAbsent : first ∉ ofProtocol .udp wanted :=
          fun inUdp => sorted_apart first inUdp firstHere
        have secondAbsent : second ∉ ofProtocol .udp wanted :=
          fun inUdp => sorted_apart second inUdp secondHere
        rw [List.idxOf_append_of_notMem firstAbsent, List.idxOf_append_of_notMem secondAbsent]
          at before
        omega
  exact idxOf_lt_of_filter (decide_eq_true rfl) (decide_eq_true same.symm) within

theorem listed_iff (filled : wanted ≠ []) :
    Listed wanted (dedup (ofProtocol .udp wanted ++ ofProtocol .tcp wanted)) ↔
      ∀ protocol, Grouped (ofProtocol protocol wanted) := by
  constructor
  · intro listed protocol
    obtain ⟨udp, tcp⟩ := (nodup_dedup_iff.mp listed.distinct).of_append
    cases protocol with
    | udp => exact udp
    | tcp => exact tcp
  · intro grouped
    have all : Grouped (ofProtocol .udp wanted ++ ofProtocol .tcp wanted) :=
      Grouped.append sorted_apart (grouped .udp) (grouped .tcp)
    have members : ∀ pair,
        pair ∈ dedup (ofProtocol .udp wanted ++ ofProtocol .tcp wanted) ↔ pair ∈ wanted :=
      fun pair => mem_dedup.trans mem_sorted
    exact
      { filled := by
          intro empty
          obtain ⟨pair, isPair⟩ := List.exists_mem_of_ne_nil wanted filled
          have inside := (members pair).mpr isPair
          rw [empty] at inside
          cases inside
        distinct := nodup_dedup_iff.mpr all
        exact := members
        udpFirst := sorted_udpFirst.sublist (dedup_sublist _)
        ordered := by
          apply all.pairwise_idxOf.imp_of_mem
          intro first second isFirst isSecond before same
          exact idxOf_lt_of_sorted ((members first).mp isFirst) ((members second).mp isSecond) same
            before }

end Listing

theorem Account.wanted_filled (account : Account) : account.wanted ≠ [] := by
  unfold Account.wanted
  split
  next => exact List.cons_ne_nil _ _
  next remotes => simpa using remotes

/-- An account with a valid cipher has a profile. The servers of the profile are listed
as wanted exactly if the remotes of a protocol with the same port stand together. -/
theorem profile_listed_iff (account : Account) (host : String)
    (valid : ∀ name ∈ account.cipher, Cipher.parse name ≠ none) :
    ∃ profile, account.profile host = .ok profile ∧
      (Listed account.wanted (profile.servers.map pairOf) ↔
        ∀ protocol, Grouped (ofProtocol protocol account.wanted)) := by
  obtain ⟨cipher, known⟩ : ∃ cipher, account.cipherOf = .ok cipher := by
    unfold Account.cipherOf
    split
    next name given =>
      obtain ⟨cipher, parsed⟩ := Option.ne_none_iff_exists'.mp (valid name given)
      rw [parsed]
      exact ⟨cipher, rfl⟩
    next => exact ⟨_, rfl⟩
  simp only [Account.profile, known]
  refine ⟨_, rfl, ?_⟩
  rw [map_pairOf_servers]
  exact listed_iff account.wanted_filled

def threeRemotes : Account where
  cipher := some "aes-128-gcm"
  auth := none
  ca := ""
  cert := ""
  key := ""
  remotes := [⟨some 443, some "tcp"⟩, ⟨none, none⟩, ⟨some 443, some "udp"⟩]

theorem threeRemotes_listed :
    threeRemotes.wanted = [(443, .tcp), (1194, .udp), (443, .udp)] ∧
      ∃ profile, threeRemotes.profile "192.0.2.1" = .ok profile ∧
        Listed threeRemotes.wanted (profile.servers.map pairOf) := by
  have valid : ∀ name ∈ threeRemotes.cipher, Cipher.parse name ≠ none := by decide
  obtain ⟨profile, made, listed⟩ := profile_listed_iff threeRemotes "192.0.2.1" valid
  refine ⟨by decide, profile, made, listed.mpr ?_⟩
  intro protocol
  apply nodup_dedup_iff.mp
  cases protocol with
  | udp => decide
  | tcp => decide

/-- The first port comes back after another one. -/
def portTwice : Account where
  cipher := none
  auth := none
  ca := ""
  cert := ""
  key := ""
  remotes := [⟨some 1194, none⟩, ⟨some 443, none⟩, ⟨some 1194, none⟩]

theorem portTwice_not_listed :
    (portTwice.profile "192.0.2.1").map (fun profile => profile.servers.map pairOf) =
        .ok [(1194, .udp), (443, .udp), (1194, .udp)] ∧
      ¬ Listed portTwice.wanted [(1194, .udp), (443, .udp), (1194, .udp)] :=
  ⟨by decide, fun listed => absurd listed.distinct (by decide)⟩

end Unroxy.Vpn.Embedded
