/-!
# Upper case names

Names are compared in upper case. Besides the ASCII letters, the dotless i and the long s have ASCII
letters as their upper case.
-/

namespace PocketBasic.Text

/-- The upper case of a character, where it is an ASCII letter; any other character stays. -/
def upperChar (c : Char) : Char :=
  if c.toNat = 0x131 then 'I'
  else if c.toNat = 0x17F then 'S'
  else c.toUpper

def upper (s : String) : String := String.ofList (s.toList.map upperChar)

end PocketBasic.Text
