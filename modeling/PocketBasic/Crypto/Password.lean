import PocketBasic.Crypto.Base64
import PocketBasic.Crypto.Blowfish
import PocketBasic.Text.Lines

/-!
# Password hashes

A password hash names its own salt and how much work it takes: the password is worked into a cipher
as often as two to the power of its cost, and the cipher then encrypts a fixed text. Only the first
72 bytes of a password count, and a longer one is not hashed.
-/

namespace PocketBasic.Crypto

open Text (Bytes)

namespace PasswordHash

def maxPassword : Nat := 72
def defaultCost : Nat := 10
def saltSigns : Nat := 22
def digestSigns : Nat := 31

def magicText : Bytes := Text.utf8 "OrpheanBeholderScryDoubt"

def word64 (bytes : Bytes) : UInt64 :=
  bytes.foldl (fun n b => (n <<< 8) ||| b.toUInt64) 0

def bytes64 (n : UInt64) : Bytes :=
  (List.range 8).map fun i => (n >>> (56 - 8 * i).toUInt64).toUInt8

def saltOf (bytes : Bytes) : Blowfish.Salt := ⟨word64 (bytes.take 8), word64 (bytes.drop 8)⟩

/-- Works two keys in by turns, so many times. -/
def stretch (key salt : Array UInt32) : Nat → Blowfish.Table → Blowfish.Table
  | 0, t => t
  | n + 1, t => stretch key salt n (Blowfish.expand {} salt (Blowfish.expand {} key t))

def encryptTimes (t : Blowfish.Table) : Nat → UInt64 → UInt64
  | 0, x => x
  | n + 1, x => encryptTimes t n (Blowfish.encrypt t x)

def digest (password salt : Bytes) (cost : Nat) : List Char :=
  let key := Blowfish.keyWords (password ++ [0])
  let table := stretch key (Blowfish.keyWords salt) (Nat.pow 2 cost)
    (Blowfish.expand (saltOf salt) key Blowfish.piTable)
  let blocks := (List.range 3).map fun i => word64 ((magicText.drop (8 * i)).take 8)
  let out := blocks.flatMap fun x => bytes64 (encryptTimes table 64 x)
  hashAlphabet.encode (out.take 23)

def twoDigits (n : Nat) : String := if n < 10 then "0" ++ toString n else toString n

def make? (password : String) (salt : Bytes) (cost : Nat) : Option String :=
  let bytes := Text.utf8 password
  if maxPassword < bytes.length then none
  else some ("$2a$" ++ twoDigits cost ++ "$" ++
    String.ofList (hashAlphabet.encode salt ++ digest bytes salt cost))

/-- The parts of a hash that are needed to compute it anew. -/
structure Parts where
  cost : Nat
  salt : Bytes
  digest : List Char

def cost? (cs : List Char) : Option Nat :=
  if cs.length = 2 && cs.all Char.isDigit then
    let n := cs.foldl (fun n c => n * 10 + (c.toNat - 48)) 0
    if 4 ≤ n && n ≤ 31 then some n else none
  else none

def parts? (hash : String) : Option Parts :=
  let cs := hash.toList
  if Text.byteLength cs < 59 then none
  else match cs with
    | '$' :: major :: rest =>
      if '2' < major then none
      else
        let body := match rest with
          | '$' :: body => body
          | _ :: body => body.tail
          | [] => []
        do
          let cost ← cost? (body.take 2)
          let signs := body.drop 3
          let salt ← hashAlphabet.decode? (signs.take saltSigns)
          pure ⟨cost, salt, (signs.drop saltSigns).take digestSigns⟩
    | _ => none

def accepts (hash password : String) : Bool :=
  match parts? hash with
  | none => false
  | some p => digest (Text.utf8 password) p.salt p.cost = p.digest

end PasswordHash

end PocketBasic.Crypto
