import SharedLinks.Link

/-!
# Handles

A handle is the record of one link shared under a key, from the request for the link to the last
release. While the link is being created the handle keeps the tickets of the callers that wait for
it, in the order of their arrival; afterwards it counts the references they hold.

Handles and tickets are numbered per key, so what happens under one key does not show in the numbers
of another.
-/

namespace SharedLinks

/-- Which handle. -/
structure HandleId where
  /-- The key whose link the handle keeps. -/
  key : Key
  /-- The number among the key's handles. -/
  index : Nat
  deriving DecidableEq, Inhabited

/-- Which ticket. -/
inductive TicketId where
  /-- A ticket that a handle of the key gave out. -/
  | forKey (key : Key) (index : Nat)
  /-- A ticket that was made by itself. -/
  | loose (index : Nat)
  deriving DecidableEq, Inhabited

/-- Where a handle is in its life. -/
inductive Phase where
  /-- The link is being created; the tickets wait for it, the oldest first. -/
  | pending (queue : List TicketId)
  /-- The link is established and held `refs` times. -/
  | live (link : Link) (refs : Nat)
  /-- A teardown closed the link; `refs` holders have yet to release it. -/
  | orphaned (refs : Nat)
  /-- The end. -/
  | closed
  deriving DecidableEq, Inhabited

namespace Phase

/-- How many references the handle counts. -/
def refs : Phase → Nat
  | live _ refs | orphaned refs => refs
  | pending _ | closed => 0

/-- The count of references on an established link. -/
def refCount? : Phase → Option Nat
  | live _ refs => some refs
  | _ => none

/-- The handle has come to its end. -/
def isClosed : Phase → Bool
  | closed => true
  | _ => false

/-- The handle takes new callers. -/
def isOpen : Phase → Bool
  | pending _ | live _ _ => true
  | orphaned _ | closed => false

/-- The phase in words. -/
def text : Phase → String
  | pending queue => "pending(" ++ toString queue.length ++ " waiters)"
  | live _ refs => "live(" ++ toString refs ++ " refs)"
  | orphaned refs => "orphaned(" ++ toString refs ++ " refs)"
  | closed => "closed"

/-- A handle of a key in this phase. -/
def layout (key : Key) (p : Phase) : Text.Layout :=
  .partRecord "LinkHandle" [("key", key.layout), ("state", .quote p.text)]

end Phase

end SharedLinks
