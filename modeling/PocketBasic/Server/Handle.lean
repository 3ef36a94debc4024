import PocketBasic.Library.Api
import PocketBasic.Server.Basic

/-!
# Handling requests

The server answers requests for the program library and for sessions, and opens connections.
Sessions are ended, and connected to, with their token.
-/

namespace PocketBasic.Server

open Web (Request Response)

variable [Text.Typeface]

/-- What is new at the moment of a request. -/
structure Moment where
  /-- The time in nanoseconds. -/
  now : Int
  /-- The id for a session that is created. -/
  newId : String

def Moment.second (m : Moment) : Int := m.now.fdiv Duration.second

inductive Outcome where
  | respond (r : Response)
  /-- A connection was opened for a client. -/
  | connected (client : Nat)

/-! ### Requests from other sites -/

/-- Lets pages of all sites use some methods. -/
def allowSites (methods : String) (r : Response) : Response :=
  { r with headers :=
      [("Access-Control-Allow-Origin", "*"),
        ("Access-Control-Allow-Methods", methods ++ ", OPTIONS"),
        ("Access-Control-Allow-Headers", "Content-Type, Authorization, " ++ Access.adminHeader)] ++
      r.headers }

/-- Answers what other sites ask beforehand, and hands on all other requests. -/
def forSites (methods : String) (v : Server) (r : Request) (answer : Server × Response) :
    Server × Response :=
  if r.method = "OPTIONS" then (v, allowSites methods (.empty 200))
  else (answer.1, allowSites methods answer.2)

/-! ### Tokens -/

def authorize (v : Server) (m : Moment) (r : Request) : Except Response Access.Claims :=
  match r.token with
  | .error _ => .error (.failure 401 "unauthorized: token missing")
  | .ok token => match v.signer.validate m.second token with
    | some claims => .ok claims
    | none => .error (.failure 401 "unauthorized: invalid token")

/-! ### Sessions -/

def sessionCookie (token : String) : String :=
  Request.tokenCookie ++ "=" ++ token ++ "; Path=/; HttpOnly; SameSite=Strict"

/-- Starts the program that new sessions run; the text is its name, or empty if there is none. -/
def startDefault (v : Server) (c : Calculator) : Calculator × String :=
  let name := v.settings.getString "Calculator" "default_program" "KEYDEMO"
  if name.isEmpty || !v.offersLibrary then (c, "")
  else match v.store.get name with
    | .error _ => (c, "")
    | .ok item => match c.load item.name item.source with
      | .ok c' => (c', item.name)
      | .error _ => (c, "")

def sessionBody (id token program : String) : Json.Value :=
  .object ([("success", .bool true), ("sessionId", .text id), ("token", .text token)] ++
    if program.isEmpty then [] else [("program", .text program)])

def createSession (v : Server) (m : Moment) (r : Request) : Server × Response :=
  let address := r.clientAddress
  let limit := v.settings.getInt "Network" "max_session_requests_per_minute" 10
  match v.limits.allow "session" address limit Duration.minute m.now with
  | (limits, false) => ({ v with limits := limits }, .failure 429 "too many session requests")
  | (limits, true) =>
    let v := { v with limits := limits }
    match v.sessions.create m.newId address m.now with
    | .error _ => (v, .failure 503 "server is full, try again later")
    | .ok (sessions, s) =>
      let claims := Access.Claims.forSession s.id m.second (Access.lifetimeHours v.settings)
      let token := v.signer.sign claims
      let (calculator, program) := v.startDefault s.calculator
      let v := { v with sessions := sessions }.setCalculator s.id calculator
      (v, (Response.json 201 (sessionBody s.id token program)).addHeader "Set-Cookie"
        (sessionCookie token))

def endSession (v : Server) (m : Moment) (claims : Access.Claims) : Server × Response :=
  let v := match v.clients.client? claims.sessionId with
    | some client => v.closeConnection client closedNormally m.now
    | none => v
  match v.sessions.remove claims.sessionId with
  | (sessions, true) => ({ v with sessions := sessions }, .empty 204)
  | (_, false) => (v, .failure 404 "session not found")

def handleSession (v : Server) (m : Moment) (r : Request) : Server × Response :=
  if r.method = "POST" then v.createSession m r
  else if r.method = "DELETE" then
    match v.authorize m r with
    | .ok claims => v.endSession m claims
    | .error refusal => (v, refusal)
  else (v, .failure 405 "method not allowed")

/-! ### Connections -/

def acceptsOrigin (v : Server) (r : Request) : Bool :=
  let allowed := v.settings.getString "Network" "allowed_origins" ""
  (Text.trim allowed).isEmpty ||
    (Text.splitAt ',' allowed.toList).any fun part =>
      Text.trim (String.ofList part) = r.header "Origin"

def connectSession (v : Server) (m : Moment) (r : Request) (claims : Access.Claims) :
    Server × Outcome :=
  match v.sessions.get claims.sessionId m.now with
  | .error _ => (v, .respond (.failure 401 "session expired"))
  | .ok (sessions, s) =>
    let v := { v with sessions := sessions }
    match v.handshake v.acceptsOrigin r with
    | some refusal => (v, .respond refusal)
    | none =>
      let (v, client) := v.connect s r.clientAddress m.now
      (v, .connected client)

def handleConnection (v : Server) (m : Moment) (r : Request) : Server × Outcome :=
  if r.method = "OPTIONS" then (v, .respond (.failure 401 "unauthorized"))
  else match v.authorize m r with
    | .ok claims => v.connectSession m r claims
    | .error refusal => (v, .respond refusal)

/-! ### Routes -/

inductive Route where
  | programs
  | program (name : String)
  | session
  | connection
deriving DecidableEq, Repr

def route? (path : List Char) : Option Route :=
  match Web.steps path with
  | ["api", "programs"] => some .programs
  | ["api", "programs", name] => if name = "/" then none else some (.program name)
  | ["api", "session"] => some .session
  | ["ws"] => some .connection
  | _ => none

def withStore (v : Server) (x : Library.Store × Response) : Server × Response :=
  ({ v with store := x.1 }, x.2)

def handleRoute (v : Server) (m : Moment) (r : Request) : Route → Server × Outcome
  | .programs =>
    let (v, x) := forSites "GET, POST" v r
      (v.withStore (Library.Api.collection v.admin v.store r m.second))
    (v, .respond x)
  | .program name =>
    let (v, x) := forSites "GET, DELETE" v r
      (v.withStore (Library.Api.item v.admin v.store r name))
    (v, .respond x)
  | .session =>
    let (v, x) := forSites "POST, DELETE" v r (v.handleSession m r)
    (v, .respond x)
  | .connection => v.handleConnection m r

/-- Where a request is sent whose path is not the shortest one. -/
def cleanLocation (path query : List Char) : String :=
  String.ofList (Web.escapePath (Text.utf8 (String.ofList path)) ++
    if query.isEmpty then [] else '?' :: query)

/-- The path that a request is answered by. The shortest one is used except for tunnels. -/
def pathOf (r : Request) : List Char :=
  if r.method = "CONNECT" then r.target.path else Web.cleanPath r.target.path

def handle (v : Server) (m : Moment) (r : Request) : Server × Outcome :=
  let path := pathOf r
  if path ≠ r.target.path then
    (v, .respond (.moved r.method (cleanLocation path r.target.query)))
  else match route? path with
    | some route => v.handleRoute m r route
    | none => (v, .respond .notFound)

end PocketBasic.Server
