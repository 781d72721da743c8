import SharedLinks.Scenario.Session
import SharedLinks.Settings

/-!
# Carrying out scenarios

`Session.perform` carries out one action, `Session.follow` one command, and `Scenario.run` a whole
script on a hub built from the scenario's settings.
-/

namespace SharedLinks.Scenario

namespace Answer

/-- The answer to polling a ticket. -/
def ofTicketPoll : Poll Outcome → Answer
  | .pending => .pending
  | .ready (.ok l) => .link l.id.text l.identity
  | .ready (.error e) => .error e
  | .over => .fault .ticketSpent

/-- The answer to polling a teardown. -/
def ofTeardownPoll : Poll (Except LinkError Unit) → Answer
  | .pending => .pending
  | .ready (.ok ()) => .ok
  | .ready (.error e) => .error e
  | .over => .fault .finished

/-- The answer to a release. -/
def ofRelease : Except LinkError Unit → Answer
  | .ok () => .ok
  | .error e => .error e

/-- A ticket as its owner sees it. -/
def ofTicket (t : Ticket) : Answer := .ticket t.isReady t.layout.flat

end Answer

/-- What a ticket is settled with. -/
def Offer.toOutcome (o : Offer) : Outcome := o.outcome.map fun name => ⟨.brought name, name⟩

/-- Where an unclaimed link goes. -/
def Offer.refund (o : Offer) : Option Refund := o.mark.map .mark

namespace Session

/-! ## Guards -/

/-- Does something to the hub that a caller must hold for it. -/
def withHub (s : Session) (f : Session → Session × Answer) : Session × Answer :=
  if s.hub.clones = 0 then (s, .fault .hubGone) else f s

/-- Does something to the handle of this name. -/
def withHandle (s : Session) (name : String) (f : HandleId → Session × Answer) :
    Session × Answer :=
  match s.handles.lookup name with
  | none => (s, .fault .unknownHandle)
  | some h => f h

/-- Names a handle, in place of any that had the name. -/
def nameHandle (s : Session) (name : String) (h : HandleId) : Session :=
  { s with handles := (name, h) :: without name s.handles }

/-- Names a new ticket and shows it. -/
def nameTicket (s : Session) (name : String) (id : TicketId) : Session × Answer :=
  let shown := ((s.hub.ticket? id).map Answer.ofTicket).getD .nothing
  s.nameFuture name (.ticket id) shown

/-! ## Groups of actions -/

/-- Polls a future. -/
def poll (s : Session) : Future → Session × Answer
  | .ticket id =>
    let (hub, answer) := s.hub.pollTicket id
    ({ s with hub := hub }, .ofTicketPoll answer)
  | .teardown index =>
    let (hub, answer) := s.hub.pollTeardown index s.hub.sortedKeys
    ({ s with hub := hub }, .ofTeardownPoll answer)

/-- Makes a teardown, names it, and polls it unless told not to. A teardown without a name is given
up before anything has happened. -/
def tearDown (s : Session) (scope : Scope) (name : String) (unpolled : Bool) : Session × Answer :=
  let index := s.hub.teardowns.length
  match { s with hub := s.hub.addTeardown scope }.nameFuture name (.teardown index) .nothing with
  | (s, .nothing) => if unpolled then (s, .nothing) else s.poll (.teardown index)
  | (s, refusal) => (s, refusal)

/-- Runs the job of this number once. -/
def runJob (s : Session) (number : Nat) : Session × Answer :=
  if s.numbered then
    match (s.jobs[number]?).map s.hub.runJob with
    | some (hub, some done) => ({ s with hub := hub }, .text (if done then "done" else "pending"))
    | some (_, none) | none => (s, .fault .unknownJob)
  else (s, .fault .jobsUnnumbered)

/-- Throws the job of this number away. -/
def abortJob (s : Session) (number : Nat) : Session × Answer :=
  if s.numbered then
    match s.jobs[number]? with
    | none => (s, .flag false)
    | some id => ({ s with hub := s.hub.removeJob id }, .flag (s.hub.job? id).isSome)
  else (s, .fault .jobsUnnumbered)

/-- Runs all ready jobs. -/
def runReady (s : Session) : Session × Answer :=
  let (hub, done) := s.hub.runReady
  ({ s with hub := hub }, if s.numbered then .jobs (done.map s.jobs.idxOf) else .nothing)

/-- Passes an answer of the provider on. -/
def answered (s : Session) : Option (Hub × Bool) → Session × Answer
  | none => (s, .fault .unknownCreation)
  | some (hub, first) => ({ s with hub := hub }, .flag first)

/-- Names the handle that serves a key, or one of the key's orphans. -/
def findHandle (s : Session) (name : String) (key : Key) (orphan : Option Nat) :
    Session × Answer :=
  let found :=
    match orphan with
    | none => s.hub.serving key
    | some n => (s.hub.shelf key).orphans[n]?
  match found with
  | none => (s, .flag false)
  | some h => (s.nameHandle name h, .flag true)

/-- Hands waiters to a handle. -/
def adopt (s : Session) (h : HandleId) (names : List String) : Session × Answer :=
  let (s, ids) := s.takeWaiters names
  match s.hub.adopt h ids with
  | .ok hub => ({ s with hub := hub }, .ok)
  | .error refused => (s, .rejected refused.length)

/-- Makes a ticket that the script will settle. If another future has the name, the new ticket is
given up at once; even so it is the one that the script settles under this name from now on. -/
def newTicket (s : Session) (name : String) : Session × Answer :=
  let (hub, id) := s.hub.addLoose .fresh
  { s with hub := hub, waiters := (name, id) :: without name s.waiters }.nameFuture name
    (.ticket id) .nothing

/-- Settles a ticket of the script. -/
def settle (s : Session) (name : String) (offer : Offer) : Session × Answer :=
  match s.waiters.lookup name with
  | none => (s, .fault .unknownWaiter)
  | some id =>
    let (hub, taken) := s.hub.settle id offer.toOutcome offer.refund
    ({ s with hub := hub, waiters := without name s.waiters }, .flag taken)

/-! ## All actions -/

/-- Carries out an action on single handles and tickets. -/
def performSingle (s : Session) : SingleAction → Session × Answer
  | .newHandle name key =>
    let h := s.hub.nextHandle key
    ({ s with hub := s.hub.addHandle key (.pending []) }.nameHandle name h, .nothing)
  | .findHandle name key orphan => s.withHub (·.findHandle name key orphan)
  | .attach name key => s.withHandle name fun h => s.withHub fun s =>
    ({ s with hub := s.hub.setServing key (some h) }, .nothing)
  | .start name key => s.withHandle name fun h => s.withHub fun s =>
    ({ s with hub := s.hub.startCreation h key }, .nothing)
  | .join name as => s.withHandle name fun h =>
    match s.hub.join h with
    | (_, none) => (s, .text "none")
    | (hub, some id) => { s with hub := hub }.nameTicket as id
  | .adopt name waiters => s.withHandle name fun h => s.adopt h waiters
  | .giveBack name report => s.withHandle name fun h =>
    let (hub, result) := s.hub.giveBack h report
    ({ s with hub := hub }, .ofRelease result)
  | .forceClose name as => s.withHandle name fun h => s.withHub fun s =>
    s.tearDown (.one h) as false
  | .requeue key waiters => s.withHub fun s =>
    let (s, ids) := s.takeWaiters waiters
    ({ s with hub := s.hub.requeue key ids }, .nothing)
  | .forget name key => s.withHandle name fun h => s.withHub fun s =>
    ({ s with hub := s.hub.forget key h }, .nothing)
  | .inspect name => s.withHandle name fun h =>
    let phase := s.hub.phase h
    (s, .handle phase.refCount? phase.isClosed (phase.layout h.key).flat)
  | .dropName name => s.withHandle name fun _ =>
    ({ s with handles := without name s.handles }, .nothing)
  | .newTicket as => s.newTicket as
  | .readyTicket as offer =>
    let (hub, id) := s.hub.addLoose (.ready offer.toOutcome offer.refund)
    { s with hub := hub }.nameFuture as (.ticket id) .nothing
  | .settle waiter offer => s.settle waiter offer
  | .isAbandoned waiter =>
    match s.waiters.lookup waiter with
    | none => (s, .fault .unknownWaiter)
    | some id => (s, .flag (s.hub.isDropped id))

/-- Carries out an action. -/
def perform (s : Session) : Action → Session × Answer
  | .acquire key as => s.withHub fun s =>
    let (hub, id) := s.hub.acquire key
    { s with hub := hub }.nameTicket as id
  | .release key => s.withHub fun s =>
    let (hub, result) := s.hub.release key
    ({ s with hub := hub }, .ofRelease result)
  | .poll name =>
    match s.futures.lookup name with
    | none => (s, .fault .unknownFuture)
    | some future => s.poll future
  | .isReady name =>
    match s.futures.lookup name with
    | some (.ticket id) => (s, ((s.hub.ticket? id).map Answer.ofTicket).getD .nothing)
    | some (.teardown _) | none => (s, .fault .unknownFuture)
  | .drop name =>
    match s.futures.lookup name with
    | none => (s, .fault .unknownFuture)
    | some future => ({ s with futures := without name s.futures }.discard future, .nothing)
  | .closeAll as unpolled => s.withHub fun s => s.tearDown .all as unpolled
  | .run => s.runReady
  | .step job => s.runJob job
  | .abort job => s.abortJob job
  | .answerMaking key index failure => s.answered (s.hub.answerMaking (.made key index) failure)
  | .answerClosing key index failure => s.answered (s.hub.answerClosing (.made key index) failure)
  | .size => s.withHub fun s => (s, .size s.hub.size)
  | .contains key => s.withHub fun s => (s, .flag (s.hub.contains key))
  | .refCount key => s.withHub fun s => (s, .number (s.hub.refCount? key))
  | .metrics => s.withHub fun s => (s, .text (s.hub.counters.layout 0).flat)
  | .print => s.withHub fun s => (s, .text s.hub.layout.flat)
  | .clone => s.withHub fun s =>
    let hub := s.hub.addClone
    ({ s with hub := hub }, .number (some hub.clones))
  | .dropClone => s.withHub fun s =>
    let hub := s.hub.dropClone
    ({ s with hub := hub }, .number (some hub.clones))
  | .single action => s.performSingle action

/-- The action may run a teardown, so what it does comes in no particular order. -/
def inOrder (s : Session) : Action → Bool
  | .closeAll _ _ => false
  | action => !(action.future?.any s.namesTeardown)

/-! ## Commands -/

/-- Puts a thread to sleep on a ticket, or takes the outcome if there is one. -/
def park (s : Session) (id : TicketId) : Session × Answer :=
  let (hub, answer) := s.hub.parkTicket id
  ({ s with hub := hub }, .ofTicketPoll answer)

/-- Wakes the thread that sleeps on a ticket, and ends the ticket with it. A thread that did not
sleep has its outcome already. -/
def unpark (s : Session) (id : TicketId) : Answer → Session × Answer
  | .pending =>
    let (s, outcome) := s.park id
    ({ s with hub := s.hub.dropTicket id }, outcome)
  | outcome => ({ s with hub := s.hub.dropTicket id }, outcome)

mutual

/-- Carries out a command. -/
def follow (s : Session) : Command → Session × Answer
  | .act action => s.perform action
  | .unreadable fault => (s, .fault fault)
  | .wait name meanwhile =>
    match s.futures.lookup name with
    | some (.ticket id) =>
      let (s, first) := { s with futures := without name s.futures }.park id
      let (s, steps) := s.followAll meanwhile
      let (s, outcome) := s.unpark id first
      (s, .waited outcome steps)
    | some (.teardown _) | none => (s, .fault .unknownFuture)

/-- Carries out commands one after the other, with a report on each. -/
def followAll (s : Session) : List Command → Session × List Step
  | [] => (s, [])
  | command :: commands =>
    let inOrder :=
      match command with
      | .act action => s.inOrder action
      | .wait name _ => !s.namesTeardown name
      | .unreadable _ => true
    let (s, answer) := s.follow command
    let (s, report) := s.report inOrder
    let (s, steps) := s.followAll commands
    (s, (answer, report) :: steps)

end

end Session

/-- The provider that follows a plan: for each key the prospects of its first creations, and one
prospect for all others. A later plan for a key replaces an earlier one. -/
def planned (plans : List (Key × List Prospect)) (otherwise : Prospect) : Provider :=
  fun key index => ((plans.reverse.lookup key).bind (·[index]?)).getD otherwise

end SharedLinks.Scenario

namespace SharedLinks

/-- A script and the hub that it is for. -/
structure Scenario where
  settings : Settings
  /-- Where the link names start. -/
  seed : UInt64
  /-- The dispatch to fall back on. -/
  ambient : Option Dispatch
  /-- Jobs have numbers that the script may use. -/
  numbered : Bool
  commands : List Scenario.Command

/-- Builds the hub and carries out the script. -/
def Scenario.run (s : Scenario) : Except BuildError (List Scenario.Step × Scenario.Survey) :=
  (s.settings.build s.seed s.ambient).map fun hub =>
    let session : Scenario.Session := { hub := hub, numbered := s.numbered }
    let (session, steps) := session.followAll s.commands
    (steps, session.survey)

end SharedLinks
