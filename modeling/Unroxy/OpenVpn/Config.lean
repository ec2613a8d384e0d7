import Unroxy.Lib.Bytes

/-!
Owns the enumerations of `openvpn/config.rs`, `PeerId` of
`openvpn/crypto/packet.rs` and the error type of `openvpn/error.rs`.

Does not own profiles, servers or credentials: they only name a peer.
-/

namespace Unroxy.OpenVpn

inductive Auth where
  | sha1
  | sha256
  | sha512
deriving DecidableEq, Repr

def Auth.size : Auth → Nat
  | .sha1 => 20
  | .sha256 => 32
  | .sha512 => 64

def Auth.asStr : Auth → String
  | .sha1 => "SHA1"
  | .sha256 => "SHA256"
  | .sha512 => "SHA512"

inductive Cipher where
  | aes256Gcm
  | aes128Gcm
  | aes256Cbc
  | aes128Cbc
deriving DecidableEq, Repr

def Cipher.isAead : Cipher → Bool
  | .aes256Gcm | .aes128Gcm => true
  | .aes256Cbc | .aes128Cbc => false

def Cipher.keyLen : Cipher → Nat
  | .aes256Gcm | .aes256Cbc => 32
  | .aes128Gcm | .aes128Cbc => 16

def Cipher.ivLen (cipher : Cipher) : Nat :=
  if cipher.isAead then 12 else 16

structure PeerId where
  id : UInt32
deriving DecidableEq, Repr

def PeerId.none : PeerId := ⟨0⟩

/-- `openvpn::Error`; the payload is the text the code puts in it. -/
inductive Error where
  | account (message : String)
  | tls (message : String)
  | control (message : String)
  | data (message : String)
  | timeout
  | auth
  | transport (message : String)
  | socket
deriving DecidableEq, Repr

end Unroxy.OpenVpn
