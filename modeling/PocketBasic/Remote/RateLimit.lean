/-!
# Rate limits

Requests of a kind from an address are let through as long as fewer than a limit of them fall into a
window of time that ends now. Only requests that were let through count.
-/

namespace PocketBasic.Remote

/-- The times of the requests that count, oldest first, by kind and address. -/
abbrev RateLimit := List (String × List Int)

namespace RateLimit

def key (kind address : String) : String := kind ++ "|" ++ address

def times (r : RateLimit) (key : String) : List Int := (r.lookup key).getD []

def put (r : RateLimit) (key : String) (times : List Int) : RateLimit :=
  (key, times) :: r.filter (·.1 ≠ key)

def recent (times : List Int) (cutoff : Int) : List Int := times.filter (cutoff < ·)

/-- Whether a request is let through, and what is remembered afterwards. A limit that is not
positive lets everything through. -/
def allow (r : RateLimit) (kind address : String) (limit window now : Int) : RateLimit × Bool :=
  if limit ≤ 0 then (r, true)
  else
    let key := key kind address
    let recent := recent (r.times key) (now - window)
    if limit ≤ recent.length then (r.put key recent, false)
    else (r.put key (recent ++ [now]), true)

/-- Forgets keys whose last request lies outside the window. -/
def prune (r : RateLimit) (window now : Int) : RateLimit :=
  r.filter fun e => e.2.getLast?.any (now - window < ·)

end RateLimit

end PocketBasic.Remote
