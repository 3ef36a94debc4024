import PocketBasic.Crypto.Constants
import PocketBasic.Text.Utf8

/-!
# The SHA-2 hash functions

Messages are cut into blocks of sixteen words. SHA-256 has words of 32 bits, SHA-384 and SHA-512
have words of 64 bits; otherwise they are one function.
-/

namespace PocketBasic.Crypto

open Text (Bytes)

/-- Words of a fixed width and the mixing functions on them. -/
structure WordKind (W : Type) where
  /-- The number of bytes in a word. -/
  width : Nat
  ofNat : Nat → W
  toNat : W → Nat
  add : W → W → W
  and : W → W → W
  xor : W → W → W
  not : W → W
  sumA : W → W
  sumE : W → W
  mixEarly : W → W
  mixLate : W → W
  /-- One constant for each round. -/
  rounds : Array W

def rotate32 (x n : UInt32) : UInt32 := (x >>> n) ||| (x <<< (32 - n))

def rotate64 (x n : UInt64) : UInt64 := (x >>> n) ||| (x <<< (64 - n))

/-- Sixty-four rounds on words of 32 bits. -/
def words32 : WordKind UInt32 where
  width := 4
  ofNat := UInt32.ofNat
  toNat := UInt32.toNat
  add := (· + ·)
  and := (· &&& ·)
  xor := (· ^^^ ·)
  not := (~~~ ·)
  sumA x := rotate32 x 2 ^^^ rotate32 x 13 ^^^ rotate32 x 22
  sumE x := rotate32 x 6 ^^^ rotate32 x 11 ^^^ rotate32 x 25
  mixEarly x := rotate32 x 7 ^^^ rotate32 x 18 ^^^ (x >>> 3)
  mixLate x := rotate32 x 17 ^^^ rotate32 x 19 ^^^ (x >>> 10)
  rounds := ((primesBelow 312).map fun p => UInt32.ofNat (rootFraction 3 32 p)).toArray

/-- Eighty rounds on words of 64 bits. -/
def words64 : WordKind UInt64 where
  width := 8
  ofNat := UInt64.ofNat
  toNat := UInt64.toNat
  add := (· + ·)
  and := (· &&& ·)
  xor := (· ^^^ ·)
  not := (~~~ ·)
  sumA x := rotate64 x 28 ^^^ rotate64 x 34 ^^^ rotate64 x 39
  sumE x := rotate64 x 14 ^^^ rotate64 x 18 ^^^ rotate64 x 41
  mixEarly x := rotate64 x 1 ^^^ rotate64 x 8 ^^^ (x >>> 7)
  mixLate x := rotate64 x 19 ^^^ rotate64 x 61 ^^^ (x >>> 6)
  rounds := ((primesBelow 410).map fun p => UInt64.ofNat (rootFraction 3 64 p)).toArray

/-- A number as bytes, highest first. -/
def bigEndian : Nat → Nat → Bytes
  | 0, _ => []
  | width + 1, n => UInt8.ofNat (n / Nat.pow 256 width) :: bigEndian width n

def ofBigEndian (bytes : Bytes) : Nat := bytes.foldl (fun n b => n * 256 + b.toNat) 0

/-- A list in pieces of a length; the last one may be shorter. -/
def chunks {α : Type} (size : Nat) : Nat → List α → List (List α)
  | 0, _ => []
  | fuel + 1, l => if l.isEmpty then [] else l.take size :: chunks size fuel (l.drop size)

namespace WordKind

variable {W : Type}

/-- The working variables of the compression function. -/
structure Hash (W : Type) where
  a : W
  b : W
  c : W
  d : W
  e : W
  f : W
  g : W
  h : W

def Hash.toList (s : Hash W) : List W := [s.a, s.b, s.c, s.d, s.e, s.f, s.g, s.h]

def Hash.ofList (zero : W) (l : List W) : Hash W :=
  let w := fun i => l.getD i zero
  ⟨w 0, w 1, w 2, w 3, w 4, w 5, w 6, w 7⟩

def addHash (k : WordKind W) (s t : Hash W) : Hash W :=
  ⟨k.add s.a t.a, k.add s.b t.b, k.add s.c t.c, k.add s.d t.d, k.add s.e t.e, k.add s.f t.f,
    k.add s.g t.g, k.add s.h t.h⟩

def round (k : WordKind W) (s : Hash W) (constant word : W) : Hash W :=
  let choice := k.xor (k.and s.e s.f) (k.and (k.not s.e) s.g)
  let majority := k.xor (k.xor (k.and s.a s.b) (k.and s.a s.c)) (k.and s.b s.c)
  let t := k.add (k.add (k.add (k.add s.h (k.sumE s.e)) choice) constant) word
  let u := k.add (k.sumA s.a) majority
  ⟨k.add t u, s.a, s.b, s.c, k.add s.d t, s.e, s.f, s.g⟩

/-- Adds words to those of a block until there is one for each round. -/
def schedule (k : WordKind W) (block : Array W) : Array W :=
  (List.range (k.rounds.size - 16)).foldl (fun w i =>
    let word := fun j => w.getD j (k.ofNat 0)
    w.push (k.add (k.add (k.mixLate (word (i + 14))) (word (i + 9)))
      (k.add (k.mixEarly (word (i + 1))) (word i)))) block

def compress (k : WordKind W) (s : Hash W) (block : Array W) : Hash W :=
  let words := k.schedule block
  k.addHash s ((k.rounds.toList.zip words.toList).foldl (fun s (c, w) => k.round s c w) s)

/-- The message with a one bit, zeros and its length in bits. -/
def pad (k : WordKind W) (message : Bytes) : Bytes :=
  let block := 16 * k.width
  let used := (message.length + 1 + 2 * k.width) % block
  message ++ [0x80] ++ List.replicate ((block - used) % block) 0 ++
    bigEndian (2 * k.width) (message.length * 8)

def blocks (k : WordKind W) (message : Bytes) : List (Array W) :=
  let bytes := k.pad message
  (chunks (16 * k.width) bytes.length bytes).map fun block =>
    ((chunks k.width 16 block).map fun w => k.ofNat (ofBigEndian w)).toArray

/-- The first `words` words of the hash of a message. -/
def digest (k : WordKind W) (start : Hash W) (words : Nat) (message : Bytes) : Bytes :=
  let s := (k.blocks message).foldl k.compress start
  ((s.toList.take words).map fun w => bigEndian k.width (k.toNat w)).flatten

def startOf (k : WordKind W) (primes : List Nat) : Hash W :=
  Hash.ofList (k.ofNat 0) (primes.map fun p => k.ofNat (rootFraction 2 (8 * k.width) p))

end WordKind

def sha256Start : WordKind.Hash UInt32 := words32.startOf [2, 3, 5, 7, 11, 13, 17, 19]
def sha384Start : WordKind.Hash UInt64 := words64.startOf [23, 29, 31, 37, 41, 43, 47, 53]
def sha512Start : WordKind.Hash UInt64 := words64.startOf [2, 3, 5, 7, 11, 13, 17, 19]

def sha256 (message : Bytes) : Bytes := words32.digest sha256Start 8 message
def sha384 (message : Bytes) : Bytes := words64.digest sha384Start 6 message
def sha512 (message : Bytes) : Bytes := words64.digest sha512Start 8 message

end PocketBasic.Crypto
