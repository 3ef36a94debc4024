import PocketBasic.Text.Printable
import PocketBasic.Text.Utf8

/-!
# Quoted texts

A text between double quotes, in which quotes, backslashes and characters that cannot be printed are
written as escapes.
-/

namespace PocketBasic.Text

def hexDigits (width n : Nat) : List Char :=
  let ds := Nat.toDigits 16 n
  List.replicate (width - ds.length) '0' ++ ds

def escape (c : Char) : List Char :=
  if c = '"' then ['\\', '"']
  else if c = '\\' then ['\\', '\\']
  else if isPrintable c then [c]
  else match c.toNat with
    | 7 => ['\\', 'a']
    | 8 => ['\\', 'b']
    | 9 => ['\\', 't']
    | 10 => ['\\', 'n']
    | 11 => ['\\', 'v']
    | 12 => ['\\', 'f']
    | 13 => ['\\', 'r']
    | n =>
      if n < 32 ∨ n = 127 then '\\' :: 'x' :: hexDigits 2 n
      else if n < 0x10000 then '\\' :: 'u' :: hexDigits 4 n
      else '\\' :: 'U' :: hexDigits 8 n

def quote (s : String) : String :=
  String.ofList ('"' :: (s.toList.flatMap escape ++ ['"']))

/-- The escapes of a byte list; `skip` bytes at its front belong to a character before. A byte that
is not part of the encoding of a character is written by its number. -/
def escapeBytes (skip : Nat) : Bytes → List Char
  | [] => []
  | b :: rest => match skip with
    | n + 1 => escapeBytes n rest
    | 0 =>
      let (c, n) := frontChar b rest
      let cs := if n = 1 && 0x80 ≤ b then '\\' :: 'x' :: hexDigits 2 b.toNat else escape c
      cs ++ escapeBytes (n - 1) rest

def quoteBytes (bs : Bytes) : String :=
  String.ofList ('"' :: (escapeBytes 0 bs ++ ['"']))

end PocketBasic.Text
