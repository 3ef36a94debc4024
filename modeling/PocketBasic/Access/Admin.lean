import PocketBasic.Settings.Basic
import PocketBasic.Text.Utf8
import PocketBasic.Web.Request
import PocketBasic.Web.Response

/-!
# The administrator

Changing the program library takes a password, of which a hash is configured. Without a hash nobody
is admitted. How passwords are hashed is left to a scheme.
-/

namespace PocketBasic.Access

structure PasswordScheme where
  /-- The hash of a password with a salt, unless the password is too long. -/
  make? : (password : String) → (salt : Text.Bytes) → Option String
  accepts : (hash password : String) → Bool

structure Administrator where
  /-- The hash of the password, or empty if nobody is to be admitted. -/
  hash : String
  scheme : PasswordScheme

inductive AdminError where
  | disabled
  | rejected
deriving DecidableEq, Repr

def AdminError.message : AdminError → String
  | .disabled => "admin access is not configured"
  | .rejected => "admin password rejected"

/-- The hash to compare with: that of the environment, then that of the settings. -/
def adminHashOf (s : Settings) (environment : String) : String :=
  if environment.isEmpty then s.getString "Admin" "password_hash" "" else environment

def Administrator.check (a : Administrator) (password : String) : Except AdminError Unit :=
  if a.hash.isEmpty then .error .disabled
  else if a.scheme.accepts a.hash password then .ok ()
  else .error .rejected

inductive HashError where
  | emptyPassword
  | tooLong
deriving DecidableEq, Repr

def HashError.message : HashError → String
  | .emptyPassword => "empty password"
  | .tooLong => "hash password: bcrypt: password length exceeds 72 bytes"

def PasswordScheme.hash (p : PasswordScheme) (password : String) (salt : Text.Bytes) :
    Except HashError String :=
  if password.isEmpty then .error .emptyPassword
  else match p.make? password salt with
    | some hash => .ok hash
    | none => .error .tooLong

def adminHeader : String := "X-Admin-Password"

def Administrator.denial? (a : Administrator) (r : Web.Request) : Option Web.Response :=
  let password := r.header adminHeader
  if password.isEmpty then some (.failure 401 "admin password required")
  else match a.check password with
    | .ok _ => none
    | .error .disabled => some (.failure 403 "admin access disabled")
    | .error .rejected => some (.failure 401 "invalid admin password")

end PocketBasic.Access
