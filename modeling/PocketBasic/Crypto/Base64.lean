import PocketBasic.Text.Utf8

/-!
# Base 64

Bytes written with sixty-four signs, six bits to a sign and without padding. `decode?` passes over
line breaks and drops the bits that do not fill a byte. `decodePadded?` wants the signs padded to a
multiple of four.
-/

namespace PocketBasic.Crypto

open Text (Bytes)

/-- The signs for the values from zero to sixty-three. -/
abbrev Alphabet := List Char

def standardAlphabet : Alphabet :=
  "ABCDEFGHIJKLMNOPQRSTUVWXYZabcdefghijklmnopqrstuvwxyz0123456789+/".toList

def urlAlphabet : Alphabet :=
  "ABCDEFGHIJKLMNOPQRSTUVWXYZabcdefghijklmnopqrstuvwxyz0123456789-_".toList

def hashAlphabet : Alphabet :=
  "./ABCDEFGHIJKLMNOPQRSTUVWXYZabcdefghijklmnopqrstuvwxyz0123456789".toList

namespace Alphabet

def sign (a : Alphabet) (n : Nat) : Char := a.getD (n % 64) 'A'

def value? (a : Alphabet) (c : Char) : Option Nat := a.idxOf? c

def encode (a : Alphabet) : Bytes → List Char
  | x :: y :: z :: rest =>
    let n := x.toNat * 65536 + y.toNat * 256 + z.toNat
    sign a (n / 262144) :: sign a (n / 4096) :: sign a (n / 64) :: sign a n :: encode a rest
  | [x, y] =>
    let n := x.toNat * 256 + y.toNat
    [sign a (n / 1024), sign a (n / 16), sign a (n * 4)]
  | [x] => [sign a (x.toNat / 4), sign a (x.toNat * 16)]
  | [] => []

/-- The bytes of a list of six-bit values. -/
def join? : List Nat → Option Bytes
  | a :: b :: c :: d :: rest =>
    let n := a * 262144 + b * 4096 + c * 64 + d
    (join? rest).map fun more =>
      UInt8.ofNat (n / 65536) :: UInt8.ofNat (n / 256) :: UInt8.ofNat n :: more
  | [a, b, c] =>
    let n := a * 4096 + b * 64 + c
    some [UInt8.ofNat (n / 1024), UInt8.ofNat (n / 4)]
  | [a, b] => some [UInt8.ofNat ((a * 64 + b) / 16)]
  | [_] => none
  | [] => some []

/-- The signs without the line breaks between them. -/
def signs (cs : List Char) : List Char := cs.filter fun c => c ≠ '\n' && c ≠ '\r'

def decode? (a : Alphabet) (cs : List Char) : Option Bytes :=
  ((signs cs).mapM (value? a)).bind join?

/-- The signs in front of the padding, which fills them up to a multiple of four. -/
def unpad? (cs : List Char) : Option (List Char) :=
  let body := cs.takeWhile (· ≠ '=')
  let padding := cs.drop body.length
  if cs.length % 4 = 0 && padding.length ≤ 2 && padding.all (· = '=') then some body else none

def decodePadded? (a : Alphabet) (cs : List Char) : Option Bytes :=
  (unpad? (signs cs)).bind (decode? a)

end Alphabet

end PocketBasic.Crypto
