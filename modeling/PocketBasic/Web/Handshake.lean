import PocketBasic.Crypto.Base64
import PocketBasic.Web.Request
import PocketBasic.Web.Response

/-!
# The opening handshake

A request that is to become a connection has headers that ask for one, in lists of words. The server says
which sites may connect, and leaves all else to a handshake.
-/

namespace PocketBasic.Web

/-- Why a request is not turned into a connection, given the sites that may connect. -/
abbrev Handshake := (Request → Bool) → Request → Option Response

namespace Handshake

def isWordChar (c : Char) : Bool := c.isAlphanum || "!#$%&'*+-.^_`|~".toList.contains c

def isBlank (c : Char) : Bool := c = ' ' || c = '\t'

/-- The words that a header line lists, up to the first part that is not a word. -/
def words (line : String) : List (List Char) :=
  let parts := (Text.splitAt ',' line.toList).map fun part =>
    Text.dropEndWhile isBlank (part.dropWhile isBlank)
  parts.takeWhile fun part => !part.isEmpty && part.all isWordChar

/-- A line of a header lists a word, in any case. -/
def lists (r : Request) (header word : String) : Bool :=
  (r.values header).any fun line => (words line).any fun w => (String.ofList w).toLower = word

/-- A key is sixteen bytes in base 64. -/
def isKey (text : String) : Bool :=
  (Crypto.standardAlphabet.decodePadded? text.toList).any (·.length = 16)

def standard : Handshake := fun accepts r =>
  if !lists r "Connection" "upgrade" || !lists r "Upgrade" "websocket" then
    some (.text 400 "Bad Request")
  else if r.method ≠ "GET" then some (.text 405 "Method Not Allowed")
  else if !lists r "Sec-WebSocket-Version" "13" then some (.text 400 "Bad Request")
  else if !accepts r then some (.text 403 "Forbidden")
  else if !isKey (r.header "Sec-WebSocket-Key") then some (.text 400 "Bad Request")
  else none

end Handshake

end PocketBasic.Web
