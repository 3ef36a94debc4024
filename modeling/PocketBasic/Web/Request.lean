import PocketBasic.Text.Blank
import PocketBasic.Web.Url

/-!
# Requests

A request has a method, a target, headers and a body, and comes from an address. It may carry a
token in a header, a cookie or its query, looked for in this order.
-/

namespace PocketBasic.Web

structure Request where
  method : String := "GET"
  target : Target
  headers : List (String × String) := []
  /-- The address of the peer. -/
  peer : String
  /-- The host that is asked for. -/
  host : String := ""
  body : String := ""

inductive TokenFault where
  | missing
  | badHeader
deriving DecidableEq, Repr

def TokenFault.message : TokenFault → String
  | .missing => "no token found in request"
  | .badHeader => "invalid authorization header format"

namespace Request

/-- The lines of a header, in order. Its name may be written in any case. -/
def values (r : Request) (name : String) : List String :=
  (r.headers.filter (·.1.toLower = name.toLower)).map Prod.snd

/-- The first line of a header. It is empty if there is none. -/
def header (r : Request) (name : String) : String := (r.values name).headD ""

/-- The address that the request is counted for. What a proxy says goes before the peer. -/
def clientAddress (r : Request) : String :=
  let forwarded := r.header "X-Forwarded-For"
  let real := r.header "X-Real-IP"
  if !forwarded.isEmpty then
    String.ofList (Text.trimChars (forwarded.toList.takeWhile (· ≠ ',')))
  else if !real.isEmpty then real
  else r.peer

def isHeaderBlank (c : Char) : Bool := c = ' ' || c = '\t' || c = '\n' || c = '\r'

def trimBlanks (cs : List Char) : List Char :=
  Text.dropEndWhile isHeaderBlank (cs.dropWhile isHeaderBlank)

def isCookieChar (c : Char) : Bool :=
  ' ' ≤ c && c.toNat < 0x7F && c ≠ '"' && c ≠ ';' && c ≠ '\\'

def unquote (cs : List Char) : List Char :=
  match cs with
  | '"' :: rest => if rest.getLast? = some '"' then rest.dropLast else cs
  | _ => cs

/-- The value of a cookie in one part of a cookie line. -/
def cookieValue? (name : String) (part : List Char) : Option String :=
  let part := trimBlanks part
  let (key, value) := (Text.cut? '=' part).getD (part, [])
  let value := unquote value
  if trimBlanks key = name.toList && value.all isCookieChar then some (String.ofList value)
  else none

/-- The first cookie of a name in all cookie lines. -/
def cookie? (r : Request) (name : String) : Option String :=
  ((r.values "Cookie").flatMap fun line => Text.splitAt ';' line.toList).findSome? (cookieValue? name)

def queryValue? (r : Request) (name : String) : Option String :=
  (queryPairs r.target.query).lookup name

def tokenCookie : String := "session_token"

def bearer (value : String) : Except TokenFault String :=
  match Text.cut? ' ' value.toList with
  | some (scheme, token) =>
    if scheme = "Bearer".toList && !token.isEmpty then .ok (String.ofList token)
    else .error .badHeader
  | none => .error .badHeader

def isGiven (s : String) : Bool := !s.isEmpty

def token (r : Request) : Except TokenFault String :=
  let header := r.header "Authorization"
  if !header.isEmpty then bearer header
  else match (r.cookie? tokenCookie).filter isGiven with
    | some t => .ok t
    | none => match (r.queryValue? "token").filter isGiven with
      | some t => .ok t
      | none => .error .missing

end Request

end PocketBasic.Web
