import Unroxy.Lib.Text
import Unroxy.OpenVpn.Config

/-!
Owns what `openvpn/config.rs` says of a profile: `Protocol`, `Server`, `Credentials`
and `Profile`, and how the names of ciphers and digests are read.

Does not own where the names come from.
-/

namespace Unroxy.OpenVpn

open Unroxy.Lib.Text

inductive Protocol where
  | udp
  | tcp
deriving DecidableEq, Repr

/-- A name as it is compared: trimmed and in upper case. -/
def canonical (name : String) : String := String.ofList (upper (trim name.toList))

def Auth.parse (name : String) : Option Auth :=
  match canonical name with
  | "SHA1" => some .sha1
  | "SHA256" => some .sha256
  | "SHA512" => some .sha512
  | _ => none

def Cipher.parse (name : String) : Option Cipher :=
  match canonical name with
  | "AES-256-GCM" => some .aes256Gcm
  | "AES-128-GCM" => some .aes128Gcm
  | "AES-256-CBC" => some .aes256Cbc
  | "AES-128-CBC" => some .aes128Cbc
  | _ => none

structure Server where
  host : String
  port : UInt16
  protocol : Protocol
deriving DecidableEq, Repr

structure Credentials where
  ca : String
  cert : String
  key : String
deriving DecidableEq, Repr

structure Profile where
  servers : List Server
  cipher : Cipher
  auth : Auth
  credentials : Credentials
deriving DecidableEq, Repr

example : Cipher.parse " aes-128-gcm\n" = some .aes128Gcm := by
  decide

end Unroxy.OpenVpn
