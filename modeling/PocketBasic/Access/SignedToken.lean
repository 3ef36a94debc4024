import PocketBasic.Access.Token
import PocketBasic.Crypto.Base64
import PocketBasic.Crypto.Hmac
import PocketBasic.Document.Json
import PocketBasic.Text.Lines

/-!
# Signed tokens

A token consists of a header, claims and a signature over both, each in base 64 and with points between
them.
-/

namespace PocketBasic.Access

/-! ### Signatures -/

def algorithm? : String → Option Crypto.HashFunction
  | "HS256" => some .sha256
  | "HS384" => some .sha384
  | "HS512" => some .sha512
  | _ => none

def encodeText (s : String) : List Char := Crypto.urlAlphabet.encode (Text.utf8 s)

def signature (h : Crypto.HashFunction) (secret : String) (signed : List Char) : Text.Bytes :=
  h.hmac (Text.utf8 secret) (Text.utf8 (String.ofList signed))

/-! ### Making tokens -/

def Claims.toJson (c : Claims) : Json.Value :=
  let time := fun (name : String) (t : Option Int) => match t with
    | some n => [(name, Json.ofInt n)]
    | none => []
  .object ([("sid", .text c.sessionId), ("iss", .text c.issuer), ("sub", .text c.subject)] ++
    time "exp" c.expires ++ time "nbf" c.notBefore ++ time "iat" c.issued ++
    [("jti", .text c.tokenId)])

def tokenHeader : Json.Value := .object [("alg", .text "HS256"), ("typ", .text "JWT")]

def signToken (secret : String) (c : Claims) : String :=
  let signed := encodeText tokenHeader.render ++ '.' :: encodeText c.toJson.render
  String.ofList (signed ++ '.' :: Crypto.urlAlphabet.encode (signature .sha256 secret signed))

/-! ### Reading tokens -/

/-- The whole second of a number, on a clock that starts in the year one and has 64 bits. A number
beyond 64 bits counts as the least one. -/
def clockSecond (x : Float) : Int :=
  let n : Int := match Number.Scaled.ofFloat? x with
    | none => Number.minInteger
    | some a =>
      let m : Int := if a.negative then -(a.mantissa : Int) else a.mantissa
      let whole := (m * Nat.pow 2 a.exponent.toNat).fdiv (Nat.pow 2 (-a.exponent).toNat)
      (Number.inRange? whole).getD Number.minInteger
  (n + 62135596800).bmod (Nat.pow 2 64) - 62135596800

/-- A time, given as a number or as the text of one. -/
def time? : Json.Value → Option (Option Int)
  | .number s => (Number.read? s).map (some ∘ clockSecond)
  | .text s =>
    if (Text.Scanner.parse? Json.number s.toList).isSome then
      (Number.read? s).map (some ∘ clockSecond)
    else none
  | _ => none

/-- An audience is a text or a list of texts. Nothing is done with it. -/
def audience? : Json.Value → Option Unit
  | .text _ => some ()
  | .array vs => if vs.all (fun v => v.text?.isSome) then some () else none
  | _ => none

def Claims.ofFields? (fs : Json.Fields) : Option Claims := do
  let sessionId ← Json.fieldOr "" Json.Value.text? "sid" fs
  let issuer ← Json.fieldOr "" Json.Value.text? "iss" fs
  let subject ← Json.fieldOr "" Json.Value.text? "sub" fs
  let tokenId ← Json.fieldOr "" Json.Value.text? "jti" fs
  let _ ← Json.fieldOr () audience? "aud" fs
  let expires ← Json.fieldOr none time? "exp" fs
  let notBefore ← Json.fieldOr none time? "nbf" fs
  let issued ← Json.fieldOr none time? "iat" fs
  pure { sessionId, issuer, subject, tokenId, expires, notBefore, issued }

/-- The fields of an object in base 64. -/
def objectOf? (cs : List Char) : Option Json.Fields :=
  match (Crypto.urlAlphabet.decode? cs).bind fun b => Json.parse? (Text.ofUtf8 b) with
  | some (.object fs) => some fs
  | _ => none

/-- The hash function that the header of a token names, in its last field of that name. -/
def headerAlgorithm? (fs : Json.Fields) : Option Crypto.HashFunction :=
  match fs.reverse.lookup "alg" with
  | some (.text s) => algorithm? s
  | _ => none

/-- The claims are those of a token from an issuer that is in force, in the second `now`. -/
def Claims.inForce (c : Claims) (issuer : String) (now : Int) : Bool :=
  c.issuer = issuer && c.expires.any (now < ·) && c.notBefore.all (· ≤ now)

def verifyToken? (secret issuer : String) (now : Int) (token : String) : Option Claims :=
  match Text.splitAt '.' token.toList with
  | [header, claims, sign] => do
    let h ← (objectOf? header).bind headerAlgorithm?
    let c ← (objectOf? claims).bind Claims.ofFields?
    let given ← Crypto.urlAlphabet.decode? sign
    if given = signature h secret (header ++ '.' :: claims) && c.inForce issuer now then pure c else none
  | _ => none

def TokenScheme.standard : TokenScheme := ⟨signToken, verifyToken?⟩

end PocketBasic.Access
