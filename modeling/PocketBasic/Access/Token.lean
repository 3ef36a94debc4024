import PocketBasic.Settings.Basic

/-!
# Session tokens

A token binds its bearer to a session. It is signed with a secret, was issued here, and is in force for some
time. How tokens are written and checked is left to a scheme, and that a token names a session is checked
here.
-/

namespace PocketBasic.Access

structure Claims where
  sessionId : String := ""
  issuer : String := ""
  subject : String := ""
  tokenId : String := ""
  /-- The first second in which the token is no longer in force. -/
  expires : Option Int := none
  /-- The first second in which the token is in force. -/
  notBefore : Option Int := none
  issued : Option Int := none
deriving DecidableEq, Repr

structure TokenScheme where
  sign : (secret : String) → Claims → String
  /-- The claims of a token that is signed with a secret, comes from an issuer and is in force in a second. -/
  verify? : (secret issuer : String) → (now : Int) → (token : String) → Option Claims

structure Signer where
  scheme : TokenScheme
  secret : String

def tokenIssuer : String := "retrocalc"
def tokenSubject : String := "calculator"

def fallbackSecret : String := "fallback_secret_change_in_production"

/-- The secret for signatures: that of the environment, then that of the settings. -/
def secretOf (s : Settings) (environment : String) : String :=
  if !environment.isEmpty then environment
  else
    let secret := s.getString "JWT" "secret_key" ""
    if secret.isEmpty then fallbackSecret else secret

/-- The claims of a new token for a session, which is in force for so many hours. -/
def Claims.forSession (id : String) (now hours : Int) : Claims :=
  let lifetime := (hours * 60 * Duration.minute).bmod (Nat.pow 2 64)
  { sessionId := id
    issuer := tokenIssuer
    subject := tokenSubject
    tokenId := id
    expires := some ((now * Duration.second + lifetime).fdiv Duration.second)
    notBefore := some now
    issued := some now }

def lifetimeHours (s : Settings) : Int := s.getInt "JWT" "token_expiration_hours" 24

namespace Signer

def sign (g : Signer) (c : Claims) : String := g.scheme.sign g.secret c

def validate (g : Signer) (now : Int) (token : String) : Option Claims :=
  (g.scheme.verify? g.secret tokenIssuer now token).filter (!·.sessionId.isEmpty)

end Signer

end PocketBasic.Access
