import PocketBasic.Crypto.Constants
import PocketBasic.Text.Utf8

/-!
# The Blowfish cipher

The cipher works on blocks of 64 bits with a table of words, whose first eighteen are mixed in round
by round while the others stand in four boxes of 256. Without a key the table holds the digits of π;
a key is worked in by encrypting a chain of blocks and putting them in its place.
-/

namespace PocketBasic.Crypto.Blowfish

open Text (Bytes)

/-- The words of the rounds and then those of the four boxes. -/
abbrev Table := Array UInt32

def roundWords : Nat := 18
def tableWords : Nat := roundWords + 4 * 256

def piTable : Table :=
  let digits := piFraction (32 * tableWords)
  (Array.range tableWords).map fun i => UInt32.ofNat (digits >>> (32 * (tableWords - 1 - i)))

def box (t : Table) (n : Nat) (index : UInt32) : UInt32 :=
  t.getD (roundWords + 256 * n + (index &&& 0xFF).toNat) 0

def feistel (t : Table) (x : UInt32) : UInt32 :=
  ((box t 0 (x >>> 24) + box t 1 (x >>> 16)) ^^^ box t 2 (x >>> 8)) + box t 3 x

def pack (l r : UInt32) : UInt64 := (l.toUInt64 <<< 32) ||| r.toUInt64

def rounds (t : Table) : Nat → UInt32 → UInt32 → UInt64
  | 0, l, r => pack (r ^^^ t.getD 17 0) (l ^^^ t.getD 16 0)
  | n + 1, l, r =>
    let l := l ^^^ t.getD (15 - n) 0
    rounds t n (r ^^^ feistel t l) l

def encrypt (t : Table) (block : UInt64) : UInt64 :=
  rounds t 16 (block >>> 32).toUInt32 block.toUInt32

/-- A key as eighteen words. Its bytes are used over and over. -/
def keyWords (key : Bytes) : Array UInt32 :=
  let bytes := key.toArray
  let byte := fun i => (bytes.getD (i % bytes.size) 0).toUInt32
  (Array.range roundWords).map fun i =>
    (byte (4 * i) <<< 24) ||| (byte (4 * i + 1) <<< 16) ||| (byte (4 * i + 2) <<< 8) |||
      byte (4 * i + 3)

/-- Two halves of a salt that are worked in by turns. -/
structure Salt where
  first : UInt64 := 0
  second : UInt64 := 0

def Salt.swap (s : Salt) : Salt := ⟨s.second, s.first⟩

/-- Replaces the table pair by pair, from the place `i` on, with a chain of encrypted blocks. -/
def fill (salt : Salt) : Nat → Nat → UInt64 → Table → Table
  | 0, _, _, t => t
  | n + 1, i, block, t =>
    let next := encrypt t (block ^^^ salt.first)
    fill salt.swap n (i + 2) next
      ((t.setIfInBounds i (next >>> 32).toUInt32).setIfInBounds (i + 1) next.toUInt32)

/-- Works a key and a salt into a table. -/
def expand (salt : Salt) (key : Array UInt32) (t : Table) : Table :=
  let mixed := (List.range roundWords).foldl
    (fun t i => t.setIfInBounds i (t.getD i 0 ^^^ key.getD i 0)) t
  fill salt (tableWords / 2) 0 0 mixed

end PocketBasic.Crypto.Blowfish
