import Unroxy.Lib.Address
import Unroxy.Lib.Utf8
import Unroxy.Proxy.Target

/-!
Owns the first part of `handle` in `ssh/socks.rs`: how the host and the port that a
client asks for are read.

What the client sends is a list of bytes, and `read_exact` fails where it ends. The
answer to the greeting changes nothing that is read. `SocksClient` is what the
HTTP client sends for a host and a port, if it is told to leave names to the proxy.

Does not own what happens once the host is read.
-/

namespace Unroxy.Ssh.Socks

open Unroxy.Lib.Address
open Unroxy.Lib.Utf8
open Unroxy.Proxy (Host)

def readExact (count : Nat) (input : List UInt8) : Option (List UInt8 × List UInt8) :=
  if count ≤ input.length then some (input.take count, input.drop count) else none

/-- The address by its kind, and what comes after it. -/
def readHost (kind : UInt8) (input : List UInt8) : Option (String × List UInt8) :=
  match kind with
  | 0x01 =>
      match input with
      | a :: b :: c :: d :: rest => some (ipv4Text a b c d, rest)
      | _ => none
  | 0x04 => (readExact 16 input).map fun (address, rest) => (ipv6Text address, rest)
  | 0x03 =>
      match input with
      | length :: rest =>
          (readExact length.toNat rest).map fun (address, rest) => (decodeLossy address, rest)
      | [] => none
  | _ => none

def readRequest : List UInt8 → Option (String × UInt16)
  | version :: command :: _ :: kind :: rest =>
      if version ≠ 0x05 ∨ command ≠ 0x01 then
        none
      else
        match readHost kind rest with
        | some (host, high :: low :: _) => some (host, UInt16.ofNat (high.toNat * 256 + low.toNat))
        | _ => none
  | _ => none

/-- The host and the port that `handle` dials, if it gets so far. -/
def handle : List UInt8 → Option (String × UInt16)
  | version :: count :: rest =>
      if version ≠ 0x05 then
        none
      else
        match readExact count.toNat rest with
        | some (_, rest) => readRequest rest
        | none => none
  | _ => none

/-! ### What is sent is what is read -/

/-- How a client offers its methods, and whether it sends an IPv4 address as a
name. -/
structure SocksClient where
  methods : List UInt8
  few : methods.length < 256
  asName : Bool

/-- The kind of the address, and the address. -/
def addressBytes (asName : Bool) (host : Host) : List UInt8 :=
  match asName, host with
  | false, .ipv4 a b c d => [0x01, a, b, c, d]
  | _, host => 0x03 :: UInt8.ofNat host.text.length :: asciiBytes host.text

def SocksClient.ask (self : SocksClient) (host : Host) (port : UInt16) : List UInt8 :=
  0x05 :: UInt8.ofNat self.methods.length :: (self.methods ++
    (0x05 :: 0x01 :: 0x00 :: addressBytes self.asName host ++
      [UInt8.ofNat (port.toNat / 256), UInt8.ofNat (port.toNat % 256)]))

theorem readExact_append (front rest : List UInt8) (short : front.length < 256) :
    readExact (UInt8.ofNat front.length).toNat (front ++ rest) = some (front, rest) := by
  have count : (UInt8.ofNat front.length).toNat = front.length := by
    simp only [UInt8.toNat_ofNat']
    omega
  rw [count]
  simp [readExact]

theorem readHost_name (host : Host) (rest : List UInt8) :
    readHost 0x03 (UInt8.ofNat host.text.length :: asciiBytes host.text ++ rest) =
      some (host.text, rest) := by
  have size : (asciiBytes host.text).length = host.text.length := by
    rw [asciiBytes, List.length_map, String.length_toList]
  have short : (asciiBytes host.text).length < 256 := by
    have bound := host.short
    omega
  have whole := readExact_append (asciiBytes host.text) rest short
  rw [size] at whole
  change (readExact _ (asciiBytes host.text ++ rest)).map _ = _
  rw [whole, Option.map_some]
  dsimp only
  rw [decodeLossy_asciiBytes (ascii_of_hostChar host.plain)]

theorem readRequest_address (asName : Bool) (host : Host) (high low : UInt8) :
    readRequest (0x05 :: 0x01 :: 0x00 :: addressBytes asName host ++ [high, low]) =
      some (host.text, UInt16.ofNat (high.toNat * 256 + low.toNat)) := by
  unfold addressBytes
  split
  · rfl
  · change (match readHost 0x03 (UInt8.ofNat host.text.length :: asciiBytes host.text ++ _) with
      | some (host, high :: low :: _) => some (host, UInt16.ofNat (high.toNat * 256 + low.toNat))
      | _ => none) = _
    rw [readHost_name]

theorem handle_ask (client : SocksClient) (host : Host) (port : UInt16) :
    handle (client.ask host port) = some (host.text, port) := by
  have offered := readExact_append client.methods
    (0x05 :: 0x01 :: 0x00 :: addressBytes client.asName host ++
      [UInt8.ofNat (port.toNat / 256), UInt8.ofNat (port.toNat % 256)]) client.few
  have number : UInt16.ofNat ((UInt8.ofNat (port.toNat / 256)).toNat * 256 +
      (UInt8.ofNat (port.toNat % 256)).toNat) = port := by
    have bound := port.toNat_lt
    apply UInt16.toNat_inj.mp
    simp only [UInt16.toNat_ofNat', UInt8.toNat_ofNat']
    omega
  change (match readExact (UInt8.ofNat client.methods.length).toNat (client.methods ++ _) with
    | some (_, rest) => readRequest rest
    | none => none) = _
  rw [offered]
  dsimp only
  rw [readRequest_address, number]

end Unroxy.Ssh.Socks
