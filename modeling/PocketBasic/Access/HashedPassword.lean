import PocketBasic.Access.Admin
import PocketBasic.Crypto.Password

/-!
# Hashed passwords

A password is hashed with a salt and the usual cost.
-/

namespace PocketBasic.Access

open Crypto

def PasswordScheme.standard : PasswordScheme where
  make? password salt := PasswordHash.make? password salt PasswordHash.defaultCost
  accepts := PasswordHash.accepts

end PocketBasic.Access
