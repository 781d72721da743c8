import SharedLinks.Error
import SharedLinks.Handle

/-!
# Tickets

Whoever asks for a link gets a ticket. The ticket is settled once, with a link or with an error, and
yields that outcome once, to the first poll after it was settled. A poll before that leaves word
whom to wake; only the last one is woken. A link comes with a refund: where its reference goes back
to if the ticket is dropped before it has yielded.
-/

namespace SharedLinks

/-- What a ticket is settled with. -/
abbrev Outcome := Except LinkError Link

/-- Where an unclaimed reference goes back to. -/
inductive Refund where
  /-- To the handle that counted it. -/
  | handle (id : HandleId)
  /-- To whoever put this mark on the link. -/
  | mark (name : String)
  deriving DecidableEq, Inhabited

/-- Who is to be woken when a ticket is settled. -/
inductive Sleeper where
  /-- The poll with this number. -/
  | poll (number : Nat)
  /-- A thread that waits for the ticket. -/
  | thread
  deriving DecidableEq, Inhabited

/-- The answer to a poll. -/
inductive Poll (α : Type) where
  /-- Not yet. -/
  | pending
  /-- The result, given once. -/
  | ready (result : α)
  /-- The result was given before. -/
  | over

/-- Where a ticket is in its life. -/
inductive TicketState where
  /-- Nobody has settled it yet. -/
  | waiting (sleeper : Option Sleeper)
  /-- It is settled and has not yielded. -/
  | settled (outcome : Outcome) (refund : Option Refund)
  /-- It has yielded its outcome. -/
  | yielded (outcome : Outcome)
  /-- Its owner gave it up before it had yielded the outcome, if there was one. -/
  | dropped (unclaimed : Option Outcome)

/-- A claim on a link. -/
structure Ticket where
  state : TicketState
  /-- It was given out before its outcome was known. -/
  waited : Bool
  /-- How many polls there were; the next one has this number. -/
  polls : Nat := 0

namespace Ticket

/-- A ticket to be settled later. -/
def fresh : Ticket := { state := .waiting none, waited := true }

/-- A ticket that is settled from the start. -/
def ready (outcome : Outcome) (refund : Option Refund) : Ticket :=
  { state := .settled outcome refund, waited := false }

instance : Inhabited Ticket := ⟨fresh⟩

/-- The outcome is known and has not been yielded. -/
def isReady (t : Ticket) : Bool :=
  match t.state with
  | .settled _ _ => true
  | _ => false

/-- The owner has given the ticket up. -/
def isDropped (t : Ticket) : Bool :=
  match t.state with
  | .dropped _ => true
  | _ => false

/-- What the ticket was settled with, whatever became of it. -/
def outcome? (t : Ticket) : Option Outcome :=
  match t.state with
  | .waiting _ => none
  | .settled outcome _ | .yielded outcome => some outcome
  | .dropped unclaimed => unclaimed

/-- Settles a ticket that is still waited for, and tells whom to wake. Any other is refused. -/
def settle (t : Ticket) (outcome : Outcome) (refund : Option Refund) :
    Option (Ticket × Option Sleeper) :=
  match t.state with
  | .waiting sleeper => some ({ t with state := .settled outcome refund }, sleeper)
  | _ => none

/-- Asks for the outcome on behalf of the given sleeper. -/
def take (t : Ticket) (sleeper : Sleeper) : Ticket × Poll Outcome :=
  match t.state with
  | .waiting _ => ({ t with state := .waiting (some sleeper) }, .pending)
  | .settled outcome _ => ({ t with state := .yielded outcome }, .ready outcome)
  | .yielded _ | .dropped _ => (t, .over)

/-- Asks for the outcome; each poll is a sleeper of its own. -/
def poll (t : Ticket) : Ticket × Poll Outcome :=
  let (t', answer) := t.take (.poll t.polls)
  ({ t' with polls := t.polls + 1 }, answer)

/-- Gives the ticket up, and tells where the reference of an unclaimed link goes. A ticket that has
yielded has nothing left to give up. -/
def drop (t : Ticket) : Ticket × Option Refund :=
  match t.state with
  | .waiting _ => ({ t with state := .dropped none }, none)
  | .settled (.ok link) refund => ({ t with state := .dropped (some (.ok link)) }, refund)
  | .settled (.error e) _ => ({ t with state := .dropped (some (.error e)) }, none)
  | .yielded _ | .dropped _ => (t, none)

/-- The ticket as its owner sees it. -/
def layout (t : Ticket) : Text.Layout :=
  .partRecord "AcquireFuture" [("ready", .truth t.isReady)]

end Ticket

end SharedLinks
