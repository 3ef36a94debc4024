/-!
# UTF-8

Text as bytes and back. A byte that is not part of the encoding of a character is read as the
replacement character.
-/

namespace PocketBasic.Text

abbrev Bytes := List UInt8

def utf8 (s : String) : Bytes := s.toUTF8.toList

def replacement : Char := Char.ofNat 0xFFFD

/-- The length that a first byte announces, and its part of the character. -/
def leadByte (b : Nat) : Nat × Nat :=
  if b < 0x80 then (1, b)
  else if 0xC2 ≤ b && b < 0xE0 then (2, b - 0xC0)
  else if 0xE0 ≤ b && b < 0xF0 then (3, b - 0xE0)
  else if 0xF0 ≤ b && b < 0xF5 then (4, b - 0xF0)
  else (0, 0)

def isContinuation (b : UInt8) : Bool := 0x80 ≤ b && b < 0xC0

/-- The least character that needs so many bytes. -/
def leastOfLength (n : Nat) : Nat := if n = 2 then 0x80 else if n = 3 then 0x800 else 0x10000

/-- The character at the front of a byte list and its length. -/
def frontChar (b : UInt8) (rest : Bytes) : Char × Nat :=
  let (n, top) := leadByte b.toNat
  let tail := rest.take (n - 1)
  let code := tail.foldl (fun c x => c * 64 + (x.toNat - 0x80)) top
  if n = 1 then (Char.ofNat code, 1)
  else if n = 0 || tail.length + 1 < n || !tail.all isContinuation || code < leastOfLength n ||
      !code.isValidChar then (replacement, 1)
  else (Char.ofNat code, n)

/-- The characters of a byte list; `skip` bytes at its front belong to a character before. -/
def charsOf (skip : Nat) : Bytes → List Char
  | [] => []
  | b :: rest => match skip with
    | n + 1 => charsOf n rest
    | 0 =>
      let (c, n) := frontChar b rest
      c :: charsOf (n - 1) rest

def ofUtf8 (bytes : Bytes) : String := String.ofList (charsOf 0 bytes)

end PocketBasic.Text
