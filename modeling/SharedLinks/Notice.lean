import SharedLinks.Error

/-!
# Notices

What a hub does is recorded in a journal of notices, each with a level, a message and named fields.
The notices carry the facts; `Notice.line` puts them into words.
-/

namespace SharedLinks

/-- How much a notice matters. -/
inductive Level where
  | debug
  | info
  | warn
  | error
  deriving DecidableEq

/-- The level's name. -/
def Level.text : Level → String
  | debug => "DEBUG"
  | info => "INFO"
  | warn => "WARN"
  | error => "ERROR"

/-- One entry of the journal. -/
inductive Notice where
  /-- A creation is requested under this link name. -/
  | creating (key : Key) (linkName target : String)
  /-- A link arrived and was granted `refs` times. -/
  | created (key : Key) (identity : String) (refs : Nat)
  /-- A link arrived, but all who had queued for it were gone. -/
  | unwanted (key : Key) (queued : Nat)
  /-- A link arrived at a closed handle. -/
  | createdLate (key : Key) (identity : String)
  /-- A link arrived at a handle that has had one. -/
  | createdTwice (key : Key)
  /-- A creation failed. -/
  | creationFailed (key : Key) (error : LinkError)
  /-- The handle serving the key was taken out of the hub. -/
  | forgot (key : Key)
  /-- A release found no reference on a handle that is still in use. -/
  | unbalanced (key : Key)
  /-- The last reference on a link closed by a teardown was given back. -/
  | orphanReleased (key : Key)
  /-- A teardown takes a link from its holders. -/
  | orphaning (key : Key) (refs : Nat)
  /-- A teardown moves the tickets of a creation to a fresh handle. -/
  | requeueing (key : Key) (queued : Nat)
  /-- A teardown closes a link. -/
  | forceClosing (key : Key) (identity : String)
  /-- A link is asked to close. -/
  | closing (key : Key) (identity : String)
  /-- A link has closed. -/
  | closed (key : Key) (identity : String)
  /-- A link failed to close. -/
  | closeFailed (key : Key) (error : LinkError)
  /-- A ticket was dropped before its link was claimed. -/
  | unclaimed (key : Key)
  /-- The handle serving the key refused a caller. -/
  | acquireRetried (key : Key)
  /-- The handle serving the key had closed when a release reached it. -/
  | releaseRetried (key : Key)
  /-- There was nothing to release. -/
  | releaseIgnored (key : Key)
  /-- A teardown of this many links begins. -/
  | tearingDown (count : Nat)
  /-- Some links of a teardown failed to close. -/
  | teardownFailed (failed : Nat)
  /-- The hub is gone and leaves links open. -/
  | abandoned (remaining : Nat)

namespace Notice

/-- How much the notice matters. -/
def level : Notice → Level
  | created .. | forceClosing .. | closing .. | tearingDown _ => .info
  | createdTwice _ | teardownFailed _ | abandoned _ => .warn
  | creationFailed .. | unbalanced _ | closeFailed .. => .error
  | _ => .debug

/-- The message without the fields. -/
def message : Notice → String
  | creating .. => "creating link"
  | created .. => "created link"
  | unwanted .. => "every waiter gave up before the link was created"
  | createdLate .. => "link created after its handle was closed"
  | createdTwice _ => "link creation completed twice; dropping the second link"
  | creationFailed .. => "link creation failed"
  | forgot _ => "forgot link handle"
  | unbalanced _ => "release without a matching acquire"
  | orphanReleased _ => "last holder released an orphaned link"
  | orphaning .. => "orphaning link with outstanding references"
  | requeueing .. => "link still being created; moving its waiters to a fresh handle"
  | forceClosing .. => "force closing link"
  | closing .. => "closing link"
  | closed .. => "closed link"
  | closeFailed .. => "closing link failed"
  | unclaimed _ => "acquire dropped before its link was claimed"
  | acquireRetried _ => "handle closed during acquire; retrying with a fresh handle"
  | releaseRetried _ => "handle closed during release; retrying"
  | releaseIgnored _ => "release of a key that is not cached; ignoring"
  | tearingDown _ => "closing all cached links"
  | teardownFailed _ => "some links failed to close"
  | abandoned _ => "link cache dropped without close_all; cached links are left open"

/-- The fields of an error: its message and that of its cause. -/
def errorFields (error : LinkError) : List (String × String) :=
  [("error", error.text), ("cause", (error.cause?.map Cause.text).getD "")]

/-- The named fields in their order. -/
def fields : Notice → List (String × String)
  | creating key linkName target => [("key", key.text), ("link", linkName), ("target", target)]
  | created key identity refs =>
    [("key", key.text), ("link", identity), ("refs", toString refs)]
  | unwanted key queued => [("key", key.text), ("queued", toString queued)]
  | creationFailed key error | closeFailed key error => ("key", key.text) :: errorFields error
  | orphaning key refs => [("key", key.text), ("refs", toString refs)]
  | requeueing key queued => [("key", key.text), ("waiters", toString queued)]
  | createdLate key identity | forceClosing key identity | closing key identity
  | closed key identity => [("key", key.text), ("link", identity)]
  | createdTwice key | forgot key | unbalanced key | orphanReleased key | unclaimed key
  | acquireRetried key | releaseRetried key | releaseIgnored key => [("key", key.text)]
  | tearingDown count => [("count", toString count)]
  | teardownFailed failed => [("failed", toString failed)]
  | abandoned remaining => [("remaining", toString remaining)]

/-- The notice on one line: level, message, fields. -/
def line (n : Notice) : String :=
  String.intercalate " " (n.level.text :: n.message :: n.fields.map fun (k, v) => k ++ "=" ++ v)

end Notice

end SharedLinks
