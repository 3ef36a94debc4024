import PocketBasic.Access.HashedPassword
import PocketBasic.Access.SignedToken
import PocketBasic.Calculator.KeyTable
import PocketBasic.Command.Run
import PocketBasic.Library.CatalogDocument
import PocketBasic.Text.Cluster

/-!
# The packages of the command

Passwords are hashed with a salt, tokens are signed, key maps are written in TOML and catalogs in YAML.
-/

namespace PocketBasic.Command

def Packages.standard : Packages where
  passwords := .standard
  tokens := .standard
  handshake := .standard
  keyTables := .toml
  catalogs := Library.Catalog.yaml

end PocketBasic.Command
