import SharedLinks.Error
import SharedLinks.Link

/-!
# Actions of a scenario

A scenario is a script of actions on one hub. Tickets, teardowns and handles are called by names
that the script chooses; tickets and teardowns share one space of names and are both called futures.
Most actions are single calls. Waiting is not: it goes on while other commands are carried out.
-/

namespace SharedLinks.Scenario

/-- Why an action could not be carried out. Nothing has happened then, unless a name was in use. -/
inductive Fault where
  /-- The script left a field out. -/
  | missing (field : String)
  /-- There is no such action. -/
  | unknownAction
  /-- The name is taken; what was to get it is given up. -/
  | nameInUse
  /-- Jobs have no numbers here. -/
  | jobsUnnumbered
  | unknownFuture
  | unknownHandle
  | unknownWaiter
  | unknownCreation
  | unknownJob
  /-- The teardown has given its result before. -/
  | finished
  /-- No caller holds the hub. -/
  | hubGone
  /-- The ticket has yielded its outcome before. -/
  | ticketSpent

namespace Fault

/-- The name of the kind of fault. -/
def kind : Fault → String
  | missing _ | unknownAction | nameInUse | jobsUnnumbered => "bad_input"
  | unknownFuture => "unknown_future"
  | unknownHandle => "unknown_handle"
  | unknownWaiter => "unknown_waiter"
  | unknownCreation => "unknown_creation"
  | unknownJob => "unknown_task"
  | finished => "finished"
  | hubGone => "no_cache"
  | ticketSpent => "panic"

/-- The details of the fault. -/
def message : Fault → String
  | missing field => "missing " ++ field
  | unknownAction => "unknown op"
  | nameInUse => "name in use"
  | jobsUnnumbered => "no task ids with tokio"
  | hubGone => "every clone was dropped"
  | ticketSpent => "AcquireFuture polled after completion"
  | unknownFuture | unknownHandle | unknownWaiter | unknownCreation | unknownJob | finished => ""

end Fault

/-- What a ticket made by itself is settled with: the name of a link or an error, and the mark of
whoever wants the link back unclaimed. -/
structure Offer where
  outcome : Except LinkError String
  mark : Option String

/-- A call on a single handle or ticket. -/
inductive SingleAction where
  /-- Makes a handle that serves no key. Nobody needs to hold the hub for that. -/
  | newHandle (handle : String) (key : Key)
  /-- Names the handle that serves a key, or the orphan with this place. -/
  | findHandle (handle : String) (key : Key) (orphan : Option Nat)
  /-- Puts a handle into a key's service. -/
  | attach (handle : String) (key : Key)
  /-- Starts a creation for a handle. -/
  | start (handle : String) (key : Key)
  | join (handle : String) (as : String)
  | adopt (handle : String) (waiters : List String)
  | giveBack (handle : String) (report : Bool)
  | forceClose (handle : String) (as : String)
  | requeue (key : Key) (waiters : List String)
  /-- Takes a handle out of a key's shelf. -/
  | forget (handle : String) (key : Key)
  | inspect (handle : String)
  /-- Lets go of a handle's name. -/
  | dropName (handle : String)
  /-- Makes a ticket that the script will settle. -/
  | newTicket (as : String)
  /-- Makes a ticket that is settled. -/
  | readyTicket (as : String) (offer : Offer)
  | settle (waiter : String) (offer : Offer)
  | isAbandoned (waiter : String)

/-- One call. -/
inductive Action where
  | acquire (key : Key) (as : String)
  | release (key : Key)
  | poll (future : String)
  | isReady (future : String)
  | drop (future : String)
  /-- Makes a teardown of everything and polls it, unless it is to stay unpolled. -/
  | closeAll (as : String) (unpolled : Bool)
  /-- Runs all ready jobs. -/
  | run
  /-- Runs one job once. -/
  | step (job : Nat)
  /-- Throws one job away. -/
  | abort (job : Nat)
  | answerMaking (key : Key) (index : Nat) (failure : Option String)
  | answerClosing (key : Key) (index : Nat) (failure : Option String)
  | size
  | contains (key : Key)
  | refCount (key : Key)
  | metrics
  | print
  | clone
  | dropClone
  | single (action : SingleAction)

/-- One line of a script. -/
inductive Command where
  | act (action : Action)
  /-- Waits for a ticket while other commands are carried out. -/
  | wait (future : String) (meanwhile : List Command)
  /-- A line that could not be read. -/
  | unreadable (fault : Fault)

instance : Inhabited Command := ⟨.act .run⟩

/-- The future that an action speaks of. -/
def Action.future? : Action → Option String
  | poll future | isReady future | drop future => some future
  | _ => none

end SharedLinks.Scenario
