import PocketBasic.Document.Json
import PocketBasic.Web.Url

/-!
# Responses
-/

namespace PocketBasic.Web

structure Response where
  status : Nat
  headers : List (String × String) := []
  body : String := ""
deriving DecidableEq, Repr

namespace Response

def json (status : Nat) (v : Json.Value) : Response :=
  { status, headers := [("Content-Type", "application/json")], body := v.render ++ "\n" }

def failure (status : Nat) (message : String) : Response :=
  json status (.object [("success", .bool false), ("message", .text message)])

def text (status : Nat) (line : String) : Response :=
  { status, headers := [("Content-Type", "text/plain; charset=utf-8")], body := line ++ "\n" }

def notFound : Response := text 404 "404 page not found"

def empty (status : Nat) : Response := { status }

def addHeader (r : Response) (name value : String) : Response :=
  { r with headers := r.headers ++ [(name, value)] }

def htmlEscape (s : String) : String :=
  String.join (s.toList.map fun c => match c with
    | '&' => "&amp;"
    | '<' => "&lt;"
    | '>' => "&gt;"
    | '"' => "&#34;"
    | '\'' => "&#39;"
    | c => String.singleton c)

/-- Sends the client to another address for good. -/
def moved (method location : String) : Response :=
  let kind := if method = "GET" || method = "HEAD" then
      [("Content-Type", "text/html; charset=utf-8")] else []
  { status := 301
    headers := ("Location", escapeNonAscii location) :: kind
    body := if method = "GET" then
      "<a href=\"" ++ htmlEscape location ++ "\">Moved Permanently</a>.\n\n" else "" }

end Response

end PocketBasic.Web
