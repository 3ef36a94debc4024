import PocketBasic.Crypto.Sha2

/-!
# Keyed hashes

A message is hashed with a key twice over, once inside and once outside.
-/

namespace PocketBasic.Crypto

open Text (Bytes)

structure HashFunction where
  hash : Bytes → Bytes
  block : Nat

namespace HashFunction

def sha256 : HashFunction := ⟨Crypto.sha256, 64⟩
def sha384 : HashFunction := ⟨Crypto.sha384, 128⟩
def sha512 : HashFunction := ⟨Crypto.sha512, 128⟩

/-- The key filled up to a block; a longer one is hashed first. -/
def blockKey (h : HashFunction) (key : Bytes) : Bytes :=
  let short := if h.block < key.length then h.hash key else key
  short ++ List.replicate (h.block - short.length) 0

def hmac (h : HashFunction) (key message : Bytes) : Bytes :=
  let k := h.blockKey key
  let inner := h.hash (k.map (· ^^^ 0x36) ++ message)
  h.hash (k.map (· ^^^ 0x5C) ++ inner)

end HashFunction

end PocketBasic.Crypto
