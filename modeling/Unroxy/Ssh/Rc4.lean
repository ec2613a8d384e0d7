import Unroxy.Lib.Keystream
import Unroxy.Lib.Sha1

/-!
Owns `Rc4` and `derive_key` of `ssh/ossh.rs`.

SHA-1 is a parameter, of which only the size of the digest is known.
-/

namespace Unroxy.Ssh

open Unroxy.Lib

structure Rc4 where
  s : Vector UInt8 256
  i : UInt8
  j : UInt8
deriving DecidableEq, Repr

namespace Rc4

/-- `s.swap(i, j)`. -/
def swap (s : Vector UInt8 256) (i j : Fin 256) : Vector UInt8 256 :=
  (s.set i (s.get j)).set j (s.get i)

/-- One turn of the loop of `new`. -/
def schedule (key : Bytes) (state : Vector UInt8 256 × UInt8) (i : Fin 256) :
    Vector UInt8 256 × UInt8 :=
  let (s, j) := state
  let j := j + s.get i + key.getD (i % key.length) 0
  (swap s i j.toFin, j)

/-- `Rc4::new`, for a key that is not empty. -/
def new (key : Bytes) : Rc4 where
  s := ((List.finRange 256).foldl (schedule key) (Vector.ofFn fun i => UInt8.ofFin i, 0)).1
  i := 0
  j := 0

/-- The next byte of the keystream. -/
def next (self : Rc4) : UInt8 × Rc4 :=
  let i := self.i + 1
  let j := self.j + self.s.get i.toFin
  let s := swap self.s i.toFin j.toFin
  (s.get (s.get i.toFin + s.get j.toFin).toFin, { s, i, j })

/-- The bytes that replace those of `buf`, and the cipher behind them. -/
def apply (self : Rc4) (buf : Bytes) : Bytes × Rc4 := Keystream.apply next self buf

@[simp] theorem apply_nil (self : Rc4) : self.apply [] = ([], self) := rfl

theorem apply_append (self : Rc4) (first second : Bytes) :
    self.apply (first ++ second) =
      ((self.apply first).1 ++ ((self.apply first).2.apply second).1,
        ((self.apply first).2.apply second).2) :=
  Keystream.apply_append next self first second

@[simp] theorem apply_length (self : Rc4) (buf : Bytes) :
    (self.apply buf).1.length = buf.length :=
  Keystream.apply_length next self buf

theorem apply_apply (self : Rc4) (buf : Bytes) :
    self.apply (self.apply buf).1 = (buf, (self.apply buf).2) :=
  Keystream.apply_apply next self buf

end Rc4

def seedLength : Nat := 16
def keyLength : Nat := 16
def hashIterations : Nat := 6000

def deriveKey (sha1 : Sha1) (seed : Vector UInt8 seedLength) (keyword iv : Bytes) :
    Vector UInt8 keyLength :=
  let digest := sha1 (seed.toList ++ keyword ++ iv)
  let digest := Nat.repeat (fun digest => sha1 digest.toList) hashIterations digest
  digest.take keyLength

end Unroxy.Ssh
