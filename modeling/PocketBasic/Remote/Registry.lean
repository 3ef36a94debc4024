/-!
# Attached clients

A session has at most one attached client. A new client takes the place of the one before.
-/

namespace PocketBasic.Remote

/-- The client of each session that has one. -/
abbrev Registry := List (String × Nat)

namespace Registry

def client? (r : Registry) (session : String) : Option Nat := r.lookup session

/-- Attaches a client to its session; the second part is the client whose place it takes. -/
def add (r : Registry) (session : String) (client : Nat) : Registry × Option Nat :=
  ((session, client) :: r.filter (·.1 ≠ session), r.client? session)

/-- Takes a client off its session, unless another one has taken its place. -/
def remove (r : Registry) (session : String) (client : Nat) : Registry :=
  if r.client? session = some client then r.filter (·.1 ≠ session) else r

/-- Takes all clients off; the second part lists them. -/
def clear (r : Registry) : Registry × List Nat := ([], r.map (·.2))

def count (r : Registry) : Nat := r.length

end Registry

end PocketBasic.Remote
