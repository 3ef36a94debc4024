import PocketBasic.Settings.Basic
import PocketBasic.Text.Blank
import PocketBasic.Text.Lines
import PocketBasic.Text.Quoted
import PocketBasic.Web.Address
import PocketBasic.Web.Request
import PocketBasic.Web.Response

/-!
# Serving over TLS

Certificates come from files or from Let's Encrypt. A self-signed certificate can be written to the
files. While TLS is on, requests without it can be sent to the secure address.
-/

namespace PocketBasic.Secure

structure Setup where
  enabled : Bool := false
  letsEncrypt : Bool := false
  domain : String := ""
  email : String := ""
  cacheFolder : String := ""
  certificateFile : String := ""
  keyFile : String := ""
  port : String := ""
  redirect : Bool := false
deriving DecidableEq, Repr

inductive SetupError where
  | noDomain
  | noEmail
  | noFiles
  /-- The file at this path does not hold a certificate that goes with the key. -/
  | certificate (path : String)
  | cache (path : String)
  | managed
  | unencodable (host : String)
  | unwritable (path : String)
deriving DecidableEq, Repr

def SetupError.message : SetupError → String
  | .noDomain => "domain is required when Let's Encrypt is enabled"
  | .noEmail => "letsencrypt_email is required when Let's Encrypt is enabled"
  | .noFiles => "cert_file and key_file are required for manual TLS"
  | .certificate path => "loading certificate " ++ path
  | .cache path => "creating certificate cache: mkdir " ++ path ++ ": no such file or directory"
  | .managed => "certificates are managed by Let's Encrypt"
  | .unencodable host =>
    "creating certificate: x509: " ++ Text.quote host ++ " cannot be encoded as an IA5String"
  | .unwritable path => "writing " ++ path ++ ": open " ++ path ++ ": no such file or directory"

def SetupError.servingMessage (e : SetupError) : String :=
  match e with
  | .noDomain | .noEmail | .noFiles => "TLS configuration: " ++ e.message
  | _ => e.message

namespace Setup

def ofSettings (s : Settings) : Setup :=
  { enabled := s.getBool "TLS" "enable_tls" false
    letsEncrypt := s.getBool "TLS" "enable_letsencrypt" false
    domain := s.getString "TLS" "domain" ""
    email := s.getString "TLS" "letsencrypt_email" ""
    cacheFolder := s.getString "TLS" "cert_cache_dir" "certs"
    certificateFile := s.getString "TLS" "cert_file" "certs/server.crt"
    keyFile := s.getString "TLS" "key_file" "certs/server.key"
    port := s.getString "TLS" "https_port" "8443"
    redirect := s.getBool "TLS" "force_https_redirect" false }

/-- What a setup lacks. One that is switched off lacks nothing. -/
def lack? (s : Setup) : Option SetupError :=
  if !s.enabled then none
  else if s.letsEncrypt then
    if (Text.trim s.domain).isEmpty then some .noDomain
    else if (Text.trim s.email).isEmpty then some .noEmail
    else none
  else if s.certificateFile.isEmpty || s.keyFile.isEmpty then some .noFiles
  else none

end Setup

/-! ### Certificates -/

inductive Pem where
  | certificate
  | key
deriving DecidableEq, Repr

namespace Pem

def label : Pem → String
  | .certificate => "CERTIFICATE"
  | .key => "EC PRIVATE KEY"

def firstLine (p : Pem) : String := "-----BEGIN " ++ p.label ++ "-----"

/-- A file of this kind around encoded content. -/
def armor (p : Pem) (content : String) : String :=
  p.firstLine ++ "\n" ++ content ++ "\n-----END " ++ p.label ++ "-----\n"

/-- What the text of a file shows itself to be. -/
def ofText? (text : String) : Option Pem :=
  let lines := Text.splitAt '\n' text.toList
  [certificate, key].find? fun p => lines.contains p.firstLine.toList

end Pem

abbrev Folder := List (String × Pem)

structure Subject where
  name : String
  hosts : List String
  addresses : List String
deriving DecidableEq, Repr

/-- A numeric address is not entered as a host. -/
def Subject.ofHost (host : String) : Subject :=
  match Web.NumericAddress.ofText? host with
  | some a => ⟨host, [], [a.text]⟩
  | none => ⟨host, [host], []⟩

def Subject.isAscii (s : Subject) : Bool := s.hosts.all fun h => h.toList.all (·.toNat < 128)

def Folder.write (f : Folder) (path : String) (p : Pem) : Except SetupError Folder :=
  if path.isEmpty then .error (.unwritable path) else .ok ((path, p) :: f.filter (·.1 ≠ path))

/-- The subject of a self-signed certificate for a host, if one can be made. -/
def subjectFor (s : Setup) (host : String) : Except SetupError Subject :=
  let subject := Subject.ofHost host
  if s.letsEncrypt then .error .managed
  else if !subject.isAscii then .error (.unencodable host)
  else .ok subject

def selfSign (s : Setup) (host : String) (f : Folder) : Except SetupError (Folder × Subject) := do
  let subject ← subjectFor s host
  let f₁ ← f.write s.certificateFile .certificate
  let f₂ ← f₁.write s.keyFile .key
  pure (f₂, subject)

/-! ### Serving -/

structure Front where
  setup : Setup
deriving DecidableEq, Repr

def Front.ofSetup (s : Setup) (f : Folder) : Except SetupError Front :=
  match s.lack? with
  | some e => .error e
  | none =>
    if !s.enabled then .ok ⟨s⟩
    else if s.letsEncrypt then
      if s.cacheFolder.isEmpty then .error (.cache s.cacheFolder) else .ok ⟨s⟩
    else if f.lookup s.certificateFile = some .certificate && f.lookup s.keyFile = some .key then
      .ok ⟨s⟩
    else .error (.certificate s.certificateFile)

namespace Front

def isEnabled (f : Front) : Bool := f.setup.enabled

def listenAddress (f : Front) : String := ":" ++ f.setup.port

/-- The secure address of what a request asks for. The usual port is not written. -/
def secureAddress (f : Front) (r : Web.Request) : String :=
  let port := if f.setup.port = "443" then "" else ":" ++ f.setup.port
  "https://" ++ Web.stripPort r.host ++ port ++ r.target.text

def challengePath : String := "/.well-known/acme-challenge/"

/-- The hosts that certificates are asked for. -/
def challengeHosts (f : Front) : List String :=
  [f.setup.domain.toLower, "www." ++ f.setup.domain.toLower]

/-- The response to a challenge, none of which is ever pending here. -/
def challenge? (f : Front) (r : Web.Request) : Option Web.Response :=
  if f.setup.letsEncrypt && challengePath.toList.isPrefixOf r.target.path then
    if f.challengeHosts.contains r.host then some (.text 404 "no challenge pending")
    else some (.text 403 ("host " ++ Text.quote r.host ++ " not configured"))
  else none

/-- The response to a request without TLS; nothing if it is to be served as it is. -/
def respond? (f : Front) (r : Web.Request) : Option Web.Response :=
  if !f.setup.enabled then none
  else match f.challenge? r with
    | some response => some response
    | none => if f.setup.redirect then some (.moved r.method (f.secureAddress r)) else none

end Front

end PocketBasic.Secure
