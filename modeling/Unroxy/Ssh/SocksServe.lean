import Unroxy.Lib.Dialogue
import Unroxy.Ssh.Socks

/-!
Owns both SOCKS servers as programs over their client's bytes: `handle` of
`ssh/socks.rs` and `serve_socks` of `vpn/provider.rs`.

The two read the same and differ in how they reach the host. `Socks.handle` is
what of the input decides what they dial.

Does not own `copy_bidirectional`: a program that ends with `relay` leaves it the
input it has not read.
-/

namespace Unroxy.Ssh.Socks

open Unroxy.Lib
open Unroxy.Lib.Address
open Unroxy.Lib.Utf8
open Unroxy.Proxy (Host)
open Dialogue

/-- How a server ends: it drops the connection or copies in both directions. -/
inductive Ending where
  | drop
  | relay
deriving DecidableEq, Repr

/-- The answer to the greeting. -/
def noAuthentication : List UInt8 := [0x05, 0x00]

def succeeded : List UInt8 := [0x05, 0x00, 0x00, 0x01, 0, 0, 0, 0, 0, 0]

def failed : List UInt8 := [0x05, 0x01, 0x00, 0x01, 0, 0, 0, 0, 0, 0]

section Reading

variable {κ : Type} {ρ : κ → Type}

/-- The `match` on the kind of the address. -/
def serveHost (kind : UInt8) (next : String → Dialogue UInt8 κ ρ Ending) :
    Dialogue UInt8 κ ρ Ending :=
  match kind with
  | 0x01 => .read 4 fun address =>
      next (ipv4Text (address.getD 0 0) (address.getD 1 0) (address.getD 2 0) (address.getD 3 0))
  | 0x04 => .read 16 fun address => next (ipv6Text address)
  | 0x03 => .read 1 fun length =>
      .read (length.getD 0 0).toNat fun address => next (decodeLossy address)
  | _ => .done .drop

variable (dial : String → UInt16 → Dialogue UInt8 κ ρ Ending)

def servePort (host : String) : Dialogue UInt8 κ ρ Ending :=
  .read 2 fun port =>
    dial host (UInt16.ofNat ((port.getD 0 0).toNat * 256 + (port.getD 1 0).toNat))

def afterRequest (request : List UInt8) : Dialogue UInt8 κ ρ Ending :=
  if request.getD 0 0 ≠ 0x05 ∨ request.getD 1 0 ≠ 0x01 then .done .drop
  else serveHost (request.getD 3 0) (servePort dial)

def afterMethods (_ : List UInt8) : Dialogue UInt8 κ ρ Ending :=
  .write noAuthentication (.read 4 (afterRequest dial))

def afterGreeting (greeting : List UInt8) : Dialogue UInt8 κ ρ Ending :=
  if greeting.getD 0 0 ≠ 0x05 then .done .drop
  else .read (greeting.getD 1 0).toNat (afterMethods dial)

/-- What both servers do until they know where to go. -/
def serve : Dialogue UInt8 κ ρ Ending := .read 2 (afterGreeting dial)

end Reading

/-! ### The two servers -/

inductive SshQuestion (σ : Type) where
  | pickSession
  | dial (session : σ) (host : String) (port : UInt16)
  | recordExit (host : String) (session : σ)
deriving DecidableEq, Repr

abbrev SshQuestion.Answer {σ : Type} : SshQuestion σ → Type
  | .pickSession => Option σ
  | .dial _ _ _ => Bool
  | .recordExit _ _ => Unit

/-- `handle` of `ssh/socks.rs`, once the host is known. -/
def sshDial {σ : Type} (host : String) (port : UInt16) :
    Dialogue UInt8 (SshQuestion σ) SshQuestion.Answer Ending :=
  .ask .pickSession fun
    | none => .write failed (.done .drop)
    | some session => .ask (.dial session host port) fun
      | false => .write failed (.done .drop)
      | true => .write succeeded (.ask (.recordExit host session) fun _ => .done .relay)

/-- `handle` of `ssh/socks.rs`. -/
def handleClient (σ : Type) : Dialogue UInt8 (SshQuestion σ) SshQuestion.Answer Ending :=
  serve sshDial

inductive VpnQuestion where
  | dial (host : String) (port : UInt16)
deriving DecidableEq, Repr

abbrev VpnQuestion.Answer : VpnQuestion → Type
  | .dial _ _ => Bool

/-- `serve_socks` of `vpn/provider.rs`, once the host is known. -/
def vpnDial (host : String) (port : UInt16) :
    Dialogue UInt8 VpnQuestion VpnQuestion.Answer Ending :=
  .ask (.dial host port) fun
    | true => .write succeeded (.done .relay)
    | false => .write failed (.done .drop)

/-- `serve_socks` of `vpn/provider.rs`. -/
def serveSocks : Dialogue UInt8 VpnQuestion VpnQuestion.Answer Ending := serve vpnDial

/-! ### What is read -/

/-- The greeting is there as a whole. -/
def greeted : List UInt8 → Bool
  | version :: count :: rest => version = 0x05 ∧ count.toNat ≤ rest.length
  | _ => false

section Reading

variable {κ : Type} {ρ : κ → Type} (answer : (question : κ) → ρ question)
  (dial : String → UInt16 → Dialogue UInt8 κ ρ Ending)

private theorem readExact_some {count : Nat} {input front rest : List UInt8}
    (found : readExact count input = some (front, rest)) :
    front.length = count ∧ front ++ rest = input := by
  unfold readExact at found
  split at found
  case isTrue enough =>
    cases found
    exact ⟨List.length_take_of_le enough, List.take_append_drop count input⟩
  case isFalse => cases found

private theorem readExact_none {count : Nat} {input : List UInt8}
    (found : readExact count input = none) : input.length < count := by
  unfold readExact at found
  split at found
  case isTrue => cases found
  case isFalse less => omega

private theorem exists_two {input : List UInt8} (enough : 2 ≤ input.length) :
    ∃ a b rest, input = a :: b :: rest := by
  obtain ⟨a, others, rfl⟩ := List.exists_cons_of_length_pos (Nat.zero_lt_of_lt enough)
  obtain ⟨b, rest, rfl⟩ := List.exists_cons_of_length_pos (Nat.le_of_succ_le_succ enough)
  exact ⟨a, b, rest, rfl⟩

private theorem exists_four {input : List UInt8} (enough : 4 ≤ input.length) :
    ∃ a b c d rest, input = a :: b :: c :: d :: rest := by
  obtain ⟨a, b, others, rfl⟩ := exists_two (Nat.le_trans (by decide) enough)
  obtain ⟨c, d, rest, rfl⟩ := exists_two (Nat.le_of_succ_le_succ (Nat.le_of_succ_le_succ enough))
  exact ⟨a, b, c, d, rest, rfl⟩

/-- The host is read as `readHost` reads it. -/
private theorem advance_serveHost {kind : UInt8} {next : String → Dialogue UInt8 κ ρ Ending}
    {input rest : List UInt8} {host : String} (found : readHost kind input = some (host, rest)) :
    advance answer (serveHost kind next) input = advance answer (next host) rest := by
  unfold readHost at found
  split at found
  case h_1 =>
    split at found
    case h_1 a b c d others =>
      cases found
      exact @advance_read _ _ _ _ answer 4 _ [a, b, c, d] rest rfl
    case h_2 => cases found
  case h_2 =>
    obtain ⟨⟨address, others⟩, read, same⟩ := Option.map_eq_some_iff.mp found
    cases same
    obtain ⟨size, rfl⟩ := readExact_some read
    exact advance_read answer size
  case h_3 =>
    split at found
    case h_1 length others =>
      obtain ⟨⟨address, behind⟩, read, same⟩ := Option.map_eq_some_iff.mp found
      cases same
      obtain ⟨size, rfl⟩ := readExact_some read
      exact (@advance_read _ _ _ _ answer 1 _ [length] (address ++ rest) rfl).trans
        (advance_read answer size)
    case h_2 => cases found
  case h_4 => cases found

/-- Where `readHost` finds no host the server reads on or drops the client. -/
private theorem said_serveHost {kind : UInt8} {next : String → Dialogue UInt8 κ ρ Ending}
    {input : List UInt8} (missing : readHost kind input = none) :
    (advance answer (serveHost kind next) input).said = [] := by
  unfold readHost at missing
  split at missing
  case h_1 =>
    split at missing
    case h_1 => cases missing
    case h_2 few =>
      rcases Nat.lt_or_ge input.length 4 with short | enough
      · exact congrArg Talk.said (advance_short answer short)
      · obtain ⟨a, b, c, d, others, rfl⟩ := exists_four enough
        exact absurd rfl (few a b c d others)
  case h_2 =>
    have short := readExact_none (Option.map_eq_none_iff.mp missing)
    exact congrArg Talk.said (advance_short answer short)
  case h_3 =>
    split at missing
    case h_1 length others =>
      have short := readExact_none (Option.map_eq_none_iff.mp missing)
      have first := @advance_read _ _ _ _ answer 1
        (fun length => .read (length.getD 0 0).toNat fun address => next (decodeLossy address))
        [length] others rfl
      exact (congrArg Talk.said first).trans (congrArg Talk.said (advance_short answer short))
    case h_2 => exact congrArg Talk.said (advance_short answer (Nat.zero_lt_one))
  case h_4 first second third =>
    unfold serveHost
    split
    case h_1 => exact absurd rfl first
    case h_2 => exact absurd rfl second
    case h_3 => exact absurd rfl third
    case h_4 => rfl

/-- A request whose address and port are there is dialled, with what is behind
it still unread. -/
private theorem advance_address {version command reserved kind high low : UInt8}
    {others rest : List UInt8} {host : String} (valid : ¬ (version ≠ 0x05 ∨ command ≠ 0x01))
    (read : readHost kind others = some (host, high :: low :: rest)) :
    advance answer (.read 4 (afterRequest dial))
        (version :: command :: reserved :: kind :: others) =
      advance answer (dial host (UInt16.ofNat (high.toNat * 256 + low.toNat))) rest := by
  calc advance answer (.read 4 (afterRequest dial))
        (version :: command :: reserved :: kind :: others)
      = advance answer (afterRequest dial [version, command, reserved, kind]) others :=
        @advance_read _ _ _ _ answer 4 _ [version, command, reserved, kind] others rfl
    _ = advance answer (serveHost kind (servePort dial)) others :=
        congrArg (advance answer · others) (if_neg valid)
    _ = advance answer (servePort dial host) (high :: low :: rest) :=
        advance_serveHost answer read
    _ = _ := @advance_read _ _ _ _ answer 2 _ [high, low] rest rfl

/-- What `readRequest` reads is dialled. -/
private theorem advance_request {input : List UInt8} {host : String} {port : UInt16}
    (found : readRequest input = some (host, port)) :
    ∃ rest, advance answer (.read 4 (afterRequest dial)) input =
      advance answer (dial host port) rest := by
  unfold readRequest at found
  split at found
  case h_1 version command reserved kind others =>
    split at found
    case isTrue => cases found
    case isFalse valid =>
      split at found
      case h_1 name high low rest read =>
        cases found
        exact ⟨rest, advance_address answer dial valid read⟩
      case h_2 => cases found
  case h_2 => cases found

/-- Where `readRequest` reads nothing, nothing is said. -/
private theorem said_request {input : List UInt8} (missing : readRequest input = none) :
    (advance answer (.read 4 (afterRequest dial)) input).said = [] := by
  rcases Nat.lt_or_ge input.length 4 with short | enough
  · exact congrArg Talk.said (advance_short answer short)
  · obtain ⟨version, command, reserved, kind, others, rfl⟩ := exists_four enough
    have first : advance answer (.read 4 (afterRequest dial))
        (version :: command :: reserved :: kind :: others) =
          advance answer (afterRequest dial [version, command, reserved, kind]) others :=
      @advance_read _ _ _ _ answer 4 _ [version, command, reserved, kind] others rfl
    rw [first]
    unfold readRequest at missing
    dsimp only at missing
    by_cases invalid : version ≠ 0x05 ∨ command ≠ 0x01
    · have dropped : afterRequest dial [version, command, reserved, kind] = .done .drop :=
        if_pos invalid
      rw [dropped]
      rfl
    · have valid : afterRequest dial [version, command, reserved, kind] =
          serveHost kind (servePort dial) := if_neg invalid
      rw [valid]
      rw [if_neg invalid] at missing
      rcases read : readHost kind others with _ | ⟨host, rest⟩
      · exact said_serveHost answer read
      · rw [advance_serveHost answer read]
        rw [read] at missing
        rcases Nat.lt_or_ge rest.length 2 with short | enough
        · exact congrArg Talk.said (advance_short answer short)
        · obtain ⟨high, low, more, rfl⟩ := exists_two enough
          cases missing

/-- The greeting is answered once it is there as a whole. -/
private theorem advance_greeting {version count : UInt8} {input methods rest : List UInt8}
    (valid : version = 0x05) (read : readExact count.toNat input = some (methods, rest)) :
    advance answer (serve dial) (version :: count :: input) =
      (advance answer (.read 4 (afterRequest dial)) rest).after [.wrote noAuthentication] := by
  obtain ⟨size, rfl⟩ := readExact_some read
  calc advance answer (serve dial) (version :: count :: (methods ++ rest))
      = advance answer (afterGreeting dial [version, count]) (methods ++ rest) :=
        @advance_read _ _ _ _ answer 2 _ [version, count] (methods ++ rest) rfl
    _ = advance answer (.read count.toNat (afterMethods dial)) (methods ++ rest) :=
        congrArg (advance answer · (methods ++ rest)) (if_neg fun wrong => wrong valid)
    _ = advance answer (afterMethods dial methods) rest := advance_read answer size
    _ = _ := rfl

/-- What `handle` finds is dialled. -/
theorem advance_serve {input : List UInt8} {host : String} {port : UInt16}
    (found : handle input = some (host, port)) :
    ∃ rest, advance answer (serve dial) input =
      (advance answer (dial host port) rest).after [.wrote noAuthentication] := by
  unfold handle at found
  split at found
  case h_1 version count input =>
    split at found
    case isTrue => cases found
    case isFalse valid =>
      split at found
      case h_1 methods others read =>
        obtain ⟨rest, same⟩ := advance_request answer dial found
        refine ⟨rest, ?_⟩
        rw [advance_greeting answer dial (not_not.mp valid) read, same]
      case h_2 => cases found
  case h_2 => cases found

/-- Where `handle` finds nothing, nothing is dialled and only a greeting answered. -/
theorem quiet_serve {input : List UInt8} (missing : handle input = none) :
    (advance answer (serve dial) input).said =
      if greeted input then [.wrote noAuthentication] else [] := by
  rcases Nat.lt_or_ge input.length 2 with short | enough
  · have silent : greeted input = false := by
      rcases input with _ | ⟨version, _ | ⟨count, rest⟩⟩
      · rfl
      · rfl
      · exact absurd short (by simp)
    rw [silent, if_neg Bool.false_ne_true]
    exact congrArg Talk.said (advance_short answer short)
  · obtain ⟨version, count, others, rfl⟩ := exists_two enough
    have first : advance answer (serve dial) (version :: count :: others) =
        advance answer (afterGreeting dial [version, count]) others :=
      @advance_read _ _ _ _ answer 2 _ [version, count] others rfl
    by_cases valid : version = 0x05
    · unfold handle at missing
      dsimp only at missing
      rw [if_neg fun wrong => wrong valid] at missing
      rcases read : readExact count.toNat others with _ | ⟨methods, rest⟩
      · have waits : afterGreeting dial [version, count] =
            .read count.toNat (afterMethods dial) := if_neg fun wrong => wrong valid
        have silent : ¬ greeted (version :: count :: others) = true := by
          simp only [greeted, decide_eq_true_eq]
          exact fun whole => Nat.not_le.mpr (readExact_none read) whole.2
        rw [first, waits, if_neg silent]
        exact congrArg Talk.said (advance_short answer (readExact_none read))
      · rw [read] at missing
        have whole : greeted (version :: count :: others) = true := by
          obtain ⟨size, rfl⟩ := readExact_some read
          simp only [greeted, decide_eq_true_eq, List.length_append]
          exact ⟨valid, by omega⟩
        rw [advance_greeting answer dial valid read, if_pos whole, Talk.after,
          said_request answer dial missing]
        rfl
    · have dropped : afterGreeting dial [version, count] = .done .drop := if_pos valid
      have silent : ¬ greeted (version :: count :: others) = true := by
        simp only [greeted, decide_eq_true_eq]
        exact fun whole => valid whole.1
      rw [first, dropped, if_neg silent]
      rfl

/-- What a client asks for is dialled, and what it sends too early is left. -/
theorem advance_ask (client : SocksClient) (host : Host) (port : UInt16) (more : List UInt8) :
    advance answer (serve dial) (client.ask host port ++ more) =
      (advance answer (dial host.text port) more).after [.wrote noAuthentication] := by
  let high := UInt8.ofNat (port.toNat / 256)
  let low := UInt8.ofNat (port.toNat % 256)
  have number : UInt16.ofNat (high.toNat * 256 + low.toNat) = port := by
    have bound := port.toNat_lt
    apply UInt16.toNat_inj.mp
    simp only [high, low, UInt16.toNat_ofNat', UInt8.toNat_ofNat']
    omega
  have cut : client.ask host port ++ more =
      0x05 :: UInt8.ofNat client.methods.length :: (client.methods ++
        (0x05 :: 0x01 :: 0x00 :: (addressBytes client.asName host ++ high :: low :: more))) := by
    simp [SocksClient.ask, high, low]
  have request : advance answer (.read 4 (afterRequest dial))
      (0x05 :: 0x01 :: 0x00 :: (addressBytes client.asName host ++ high :: low :: more)) =
        advance answer (dial host.text port) more := by
    have valid : ¬ ((0x05 : UInt8) ≠ 0x05 ∨ (0x01 : UInt8) ≠ 0x01) := by decide
    unfold addressBytes
    split
    case h_1 a b c d _ =>
      have read : readHost 0x01 (a :: b :: c :: d :: high :: low :: more) =
          some (Host.text (.ipv4 a b c d), high :: low :: more) := rfl
      rw [← number]
      exact advance_address answer dial valid read
    case h_2 =>
      rw [← number]
      exact advance_address answer dial valid (readHost_name _ (high :: low :: more))
  rw [cut, advance_greeting answer dial rfl (readExact_append _ _ client.few), request]

end Reading

/-! ### What the servers say -/

section Servers

variable {σ : Type} (answer : (question : SshQuestion σ) → question.Answer)

/-- Whether the SSH server reaches the host. -/
def reaches (host : String) (port : UInt16) : Bool :=
  match answer .pickSession with
  | none => false
  | some session => answer (.dial session host port)

/-- The VPN server where it reaches what the SSH server reaches. -/
def alike : (question : VpnQuestion) → question.Answer
  | .dial host port => reaches answer host port

/-- All bytes written to the client. -/
def written {κ : Type} (said : List (Said UInt8 κ)) : List UInt8 :=
  said.flatMap fun
    | .wrote bytes => bytes
    | .asked _ => []

/-- What the SSH server says from the dialling on, how it ends and what it leaves. -/
def sshAnswers (host : String) (port : UInt16) (rest : List UInt8) :
    Talk UInt8 (SshQuestion σ) SshQuestion.Answer Ending :=
  match answer .pickSession with
  | none => ⟨[.asked .pickSession, .wrote failed], .done .drop, rest⟩
  | some session =>
      match answer (.dial session host port) with
      | false =>
          ⟨[.asked .pickSession, .asked (.dial session host port), .wrote failed],
            .done .drop, rest⟩
      | true =>
          ⟨[.asked .pickSession, .asked (.dial session host port), .wrote succeeded,
            .asked (.recordExit host session)], .done .relay, rest⟩

theorem advance_sshDial (host : String) (port : UInt16) (rest : List UInt8) :
    advance answer (sshDial host port) rest = sshAnswers answer host port rest := by
  rw [sshDial, advance, sshAnswers]
  cases answer .pickSession with
  | none => rfl
  | some session =>
      dsimp only
      rw [advance]
      cases answer (.dial session host port) <;> rfl

/-- What the VPN server says from the dialling on, how it ends and what it leaves. -/
def vpnAnswers (answer : (question : VpnQuestion) → question.Answer) (host : String)
    (port : UInt16) (rest : List UInt8) : Talk UInt8 VpnQuestion VpnQuestion.Answer Ending :=
  match answer (.dial host port) with
  | true => ⟨[.asked (.dial host port), .wrote succeeded], .done .relay, rest⟩
  | false => ⟨[.asked (.dial host port), .wrote failed], .done .drop, rest⟩

theorem advance_vpnDial (answer : (question : VpnQuestion) → question.Answer) (host : String)
    (port : UInt16) (rest : List UInt8) :
    advance answer (vpnDial host port) rest = vpnAnswers answer host port rest := by
  rw [vpnDial, advance, vpnAnswers]
  cases answer (.dial host port) <;> rfl

/-- A client that asks for a host and a port in any of its ways, and whose bytes
come in any pieces with anything behind them, has exactly this conversation with
either server: the host and the port are dialled as they are, the reply says
whether that went well, and what is behind the request is left for the host. -/
theorem serves_client (answer : (question : SshQuestion σ) → question.Answer)
    (answer' : (question : VpnQuestion) → question.Answer) (client : SocksClient) (host : Host)
    (port : UInt16) (more : List UInt8) :
    ∀ chunks, chunks.flatten = client.ask host port ++ more →
      run (Talk.feed answer) (advance answer (handleClient σ) []) chunks =
          (sshAnswers answer host.text port more).after [.wrote noAuthentication] ∧
        run (Talk.feed answer') (advance answer' serveSocks []) chunks =
          (vpnAnswers answer' host.text port more).after [.wrote noAuthentication] := by
  intro chunks whole
  rw [run_feed, run_feed, whole, handleClient, serveSocks, advance_ask, advance_ask,
    advance_sshDial, advance_vpnDial]
  exact ⟨rfl, rfl⟩

/-- One session, and every host is reached. -/
def everywhere : (question : SshQuestion Unit) → question.Answer
  | .pickSession => some ()
  | .dial _ _ _ => true
  | .recordExit _ _ => ()

theorem serves_client_pieces :
    (run (Talk.feed everywhere) (advance everywhere (handleClient Unit) [])
      [[5, 1], [0, 5, 1, 0], [1, 1, 2, 3, 4, 1], [187, 22]]).said =
      [.wrote noAuthentication, .asked .pickSession, .asked (.dial () "1.2.3.4" 443),
        .wrote succeeded, .asked (.recordExit "1.2.3.4" ())] :=
  congrArg Talk.said (serves_client everywhere (alike everywhere) ⟨[0], by decide, false⟩
    (.ipv4 1 2 3 4) 443 [22] _ (by decide)).1

/-- Whatever a client sends, in whatever pieces: the servers dial exactly the
host and the port that `handle` reads, not before all of the request is there, and
write the same bytes if they reach the same hosts. -/
theorem servers_agree (chunks : List (List UInt8)) :
    (∀ session host port, .asked (.dial session host port) ∈
        (run (Talk.feed answer) (advance answer (handleClient σ) []) chunks).said ↔
      answer .pickSession = some session ∧ handle chunks.flatten = some (host, port)) ∧
    (∀ host port, .asked (.dial host port) ∈
        (run (Talk.feed (alike answer)) (advance (alike answer) serveSocks []) chunks).said ↔
      handle chunks.flatten = some (host, port)) ∧
    written (run (Talk.feed answer) (advance answer (handleClient σ) []) chunks).said =
      written
        (run (Talk.feed (alike answer)) (advance (alike answer) serveSocks []) chunks).said := by
  rw [run_feed, run_feed, handleClient, serveSocks]
  rcases found : handle chunks.flatten with _ | ⟨host, port⟩
  · rw [quiet_serve answer _ found, quiet_serve (alike answer) _ found]
    split <;> simp [written]
  · obtain ⟨rest, ssh⟩ := advance_serve answer sshDial found
    obtain ⟨rest', vpn⟩ := advance_serve (alike answer) vpnDial found
    rw [ssh, vpn, advance_sshDial, advance_vpnDial, sshAnswers, vpnAnswers]
    simp only [alike, reaches]
    cases answer .pickSession with
    | none => simp [Talk.after, written, eq_comm]
    | some session =>
        cases reached : answer (.dial session host port) with
        | false => simp [reached, Talk.after, written, eq_comm]
        | true => simp [reached, Talk.after, written, eq_comm]

end Servers

end Unroxy.Ssh.Socks
