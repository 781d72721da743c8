import SharedLinks.Counters
import SharedLinks.Namer
import SharedLinks.Notice
import SharedLinks.Table
import SharedLinks.Ticket

/-!
# Hubs

A hub shares links among callers: at most one at a time is created under a key, all callers of the
key hold that one, and it is closed once the last of them has released it.

All that concerns one key stands on that key's shelf: the handle that serves the key, the orphans
that a teardown has left behind, and the key's handles, creations and tickets by number. Beside the
shelves a hub has the jobs that create and close links, the teardowns, the counters, and a history
of what happened: events that others can see, and notices for the journal.

This module holds the types and the reads and writes on single fields.
-/

namespace SharedLinks

/-- A creation that was requested from the provider. -/
structure Creation where
  /-- The handle that asked. -/
  owner : HandleId
  /-- The link it is for. -/
  link : Link
  /-- The provider's answer to making the link. -/
  making : Gate
  /-- The provider's answer to closing it. -/
  closing : Gate
  /-- The answer has reached the owner. -/
  delivered : Bool := false
  deriving DecidableEq, Inhabited

/-- What a hub keeps for one key. -/
structure Shelf where
  /-- The handle that serves the key. -/
  serving : Option HandleId := none
  /-- Handles that a teardown took out of service, the oldest first; no list is kept for none. -/
  orphaned : Option (List HandleId) := none
  /-- The phases of the key's handles by number. -/
  phases : List Phase := []
  /-- The key's creations by number. -/
  creations : List Creation := []
  /-- The key's tickets by number. -/
  tickets : List Ticket := []

instance : Inhabited Shelf := ⟨{}⟩

/-- The handles that a teardown took out of service, the oldest first. -/
def Shelf.orphans (s : Shelf) : List HandleId := s.orphaned.getD []

/-- Takes a handle out of the orphans, and their list away with the last one. -/
def Shelf.dropOrphan (s : Shelf) (h : HandleId) : Shelf :=
  match s.orphaned with
  | none => s
  | some orphans =>
    match orphans.filter (· ≠ h) with
    | [] => { s with orphaned := none }
    | rest => { s with orphaned := some rest }

/-- What a job was made for. -/
inductive Duty where
  /-- Await a link and hand it to its owner. -/
  | create
  /-- Close a link. -/
  | close
  deriving DecidableEq, Inhabited

/-- Which job. -/
structure JobId where
  link : LinkId
  duty : Duty
  deriving DecidableEq, Inhabited

/-- What a job has to do next. -/
inductive Stage where
  /-- Wait for the link to be made. -/
  | awaitLink
  /-- Ask the link to close. -/
  | close
  /-- Wait for the link to close. -/
  | awaitClose
  deriving DecidableEq, Inhabited

/-- Work that goes on without a caller. -/
structure Job where
  id : JobId
  /-- The handle on whose behalf it is done. -/
  owner : HandleId
  link : Link
  stage : Stage
  deriving DecidableEq, Inhabited

/-- What becomes of a new job. -/
inductive Dispatch where
  /-- It waits until somebody runs it. -/
  | queue
  /-- It is run at once and kept if it has to wait. -/
  | inline
  /-- It is thrown away. -/
  | discard
  deriving DecidableEq, Inhabited

/-- What a teardown is about. -/
inductive Scope where
  /-- Every link of the hub. -/
  | all
  /-- The link of one handle. -/
  | one (handle : HandleId)
  deriving DecidableEq, Inhabited

/-- One link's share in a teardown. -/
inductive Part where
  /-- The link was asked to close and has not answered. -/
  | closing (owner : HandleId) (link : Link)
  /-- There is nothing left to do. -/
  | done (result : Except LinkError Unit)

/-- The part waits for its link to close. -/
def Part.isPending : Part → Bool
  | closing _ _ => true
  | done _ => false

/-- Why the link could not be closed, if it could not. -/
def Part.failure? : Part → Option LinkError
  | closing _ _ | done (.ok ()) => none
  | done (.error error) => some error

/-- Where a teardown is in its life. -/
inductive TeardownState where
  /-- It was not polled yet, so nothing has happened. -/
  | idle
  /-- It waits for links to close. -/
  | running (parts : List Part)
  /-- It has given its result. -/
  | finished
  /-- Its owner gave it up. -/
  | dropped

/-- The closing of links regardless of who holds them. -/
structure Teardown where
  scope : Scope
  state : TeardownState

/-- A teardown holds the hub until it has finished or was dropped. -/
def Teardown.holds (t : Teardown) : Bool :=
  match t.state with
  | .idle | .running _ => true
  | .finished | .dropped => false

/-- What others can see of a hub's doings. -/
inductive Event where
  /-- The provider is asked for a link. -/
  | create (link : LinkId) (request : Request)
  /-- A link is asked to close. -/
  | close (link : LinkId)
  /-- A poll that found the ticket unsettled is told to come back. -/
  | wake (ticket : TicketId) (poll : Nat)
  /-- An unclaimed reference goes back to whoever left this mark. -/
  | refund (mark : String)
  deriving DecidableEq

/-- Links shared under keys. -/
structure Hub where
  /-- Who creates the links. -/
  provider : Provider
  /-- What becomes of new jobs. -/
  dispatch : Dispatch
  /-- The node that links attach to under their entity. -/
  node : String
  /-- The source of link names. -/
  namer : Namer
  /-- How many callers hold the hub itself. -/
  clones : Nat := 1
  /-- What is kept for each key. -/
  shelves : Table Key Shelf := Table.empty
  /-- Tickets made by themselves, by number. -/
  loose : List Ticket := []
  /-- The teardowns by number. -/
  teardowns : List Teardown := []
  /-- The jobs that are not done, the oldest first. -/
  jobs : List Job := []
  /-- The jobs that can go on, in the order in which they will. -/
  ready : List JobId := []
  counters : Counters := {}
  /-- What others could see, the latest first. -/
  events : List Event := []
  /-- The journal, the latest notice first. -/
  journal : List Notice := []

namespace Hub

/-! ## History and counters -/

/-- Writes a notice into the journal. -/
def note (w : Hub) (n : Notice) : Hub := { w with journal := n :: w.journal }

/-- Lets others see something. -/
def emit (w : Hub) (e : Event) : Hub := { w with events := e :: w.events }

/-- Raises a counter by `n`. -/
def countBy (w : Hub) (c : Counter) (n : Nat) : Hub :=
  { w with counters := w.counters.add c (UInt64.ofNat n) }

/-- Raises a counter by one. -/
def count (w : Hub) (c : Counter) : Hub := w.countBy c 1

/-! ## Shelves -/

/-- What is kept for a key. -/
def shelf (w : Hub) (k : Key) : Shelf := w.shelves.get k

/-- Changes what is kept for a key. -/
def onShelf (w : Hub) (k : Key) (f : Shelf → Shelf) : Hub :=
  { w with shelves := w.shelves.update k f }

@[simp] theorem shelf_onShelf_self (w : Hub) (k : Key) (f : Shelf → Shelf) :
    (w.onShelf k f).shelf k = f (w.shelf k) :=
  Table.get_update_self _ _ _

/-- A change on one shelf leaves the others alone. -/
theorem shelf_onShelf_ne (w : Hub) {k j : Key} (h : j ≠ k) (f : Shelf → Shelf) :
    (w.onShelf k f).shelf j = w.shelf j :=
  Table.get_update_ne _ h _

/-- Two changes on one shelf are one. -/
theorem onShelf_onShelf (w : Hub) (k : Key) (f g : Shelf → Shelf) :
    (w.onShelf k f).onShelf k g = w.onShelf k fun s => g (f s) := by
  simp only [onShelf, Table.update_update]

/-- What a change makes of other shelves than the one it meets does not matter. -/
theorem onShelf_congr {w : Hub} {k : Key} {f g : Shelf → Shelf}
    (h : f (w.shelf k) = g (w.shelf k)) : w.onShelf k f = w.onShelf k g := by
  have hupdate : w.shelves.update k f = w.shelves.update k g := by
    simp only [Table.update, show f (w.shelves.get k) = g (w.shelves.get k) from h]
  simp only [onShelf, hupdate]

/-- The handle that serves a key. -/
def serving (w : Hub) (k : Key) : Option HandleId := (w.shelf k).serving

/-- The keys that a handle serves. -/
def servedKeys (w : Hub) : List Key := w.shelves.keys.filter fun k => (w.serving k).isSome

/-- Puts a handle into a key's service, or none. -/
def setServing (w : Hub) (k : Key) (h : Option HandleId) : Hub :=
  w.onShelf k fun s => { s with serving := h }

/-! ## Handles -/

/-- Where a handle is in its life. -/
def phase (w : Hub) (h : HandleId) : Phase := ((w.shelf h.key).phases[h.index]?).getD .closed

/-- Moves a handle to another phase. -/
def setPhase (w : Hub) (h : HandleId) (p : Phase) : Hub :=
  w.onShelf h.key fun s => { s with phases := s.phases.set h.index p }

/-- The number that a key's next handle gets. -/
def nextHandle (w : Hub) (k : Key) : HandleId := ⟨k, (w.shelf k).phases.length⟩

/-- Adds a handle of a key; it serves nobody yet. -/
def addHandle (w : Hub) (k : Key) (p : Phase) : Hub :=
  w.onShelf k fun s => { s with phases := s.phases ++ [p] }

/-! ## Tickets -/

/-- A ticket by its number. -/
def ticket? (w : Hub) : TicketId → Option Ticket
  | .forKey k i => (w.shelf k).tickets[i]?
  | .loose i => w.loose[i]?

/-- Replaces a ticket. -/
def setTicket (w : Hub) (id : TicketId) (t : Ticket) : Hub :=
  match id with
  | .forKey k i => w.onShelf k fun s => { s with tickets := s.tickets.set i t }
  | .loose i => { w with loose := w.loose.set i t }

/-- The number that a key's next ticket gets. -/
def nextTicket (w : Hub) (k : Key) : TicketId := .forKey k (w.shelf k).tickets.length

/-- Gives out a ticket of a key. -/
def addTicket (w : Hub) (k : Key) (t : Ticket) : Hub :=
  w.onShelf k fun s => { s with tickets := s.tickets ++ [t] }

/-- Makes a ticket by itself. -/
def addLoose (w : Hub) (t : Ticket) : Hub × TicketId :=
  ({ w with loose := w.loose ++ [t] }, .loose w.loose.length)

/-- The owner has given the ticket up. -/
def isDropped (w : Hub) (id : TicketId) : Bool := (w.ticket? id).any Ticket.isDropped

/-! ## Creations -/

/-- A creation by the link it is for. -/
def creation? (w : Hub) : LinkId → Option Creation
  | .made k i => (w.shelf k).creations[i]?
  | .brought _ => none

/-- Changes a creation. -/
def onCreation (w : Hub) (id : LinkId) (f : Creation → Creation) : Hub :=
  match id with
  | .made k i => w.onShelf k fun s => { s with creations := s.creations.modify i f }
  | .brought _ => w

/-- The provider's answer to making a link. -/
def making (w : Hub) (id : LinkId) : Gate := ((w.creation? id).map (·.making)).getD .shut

/-- The provider's answer to closing a link. -/
def closing (w : Hub) (id : LinkId) : Gate := ((w.creation? id).map (·.closing)).getD .shut

/-! ## Who holds the hub -/

/-- Somebody holds the hub: a caller, or a teardown under way. What nobody holds cannot be reached,
and no handle looks for it any more. -/
def isHeld (w : Hub) : Bool := 0 < w.clones || w.teardowns.any Teardown.holds

/-- Records the loss of a hub that is no longer held while handles still serve keys. -/
def noteIfAbandoned (w : Hub) : Hub :=
  if w.isHeld || w.servedKeys.isEmpty then w else w.note (.abandoned w.servedKeys.length)

/-- One more caller holds the hub. -/
def addClone (w : Hub) : Hub := { w with clones := w.clones + 1 }

/-- One caller fewer holds the hub, if any did. -/
def dropClone (w : Hub) : Hub :=
  if w.clones = 0 then w else { w with clones := w.clones - 1 }.noteIfAbandoned

end Hub

end SharedLinks
