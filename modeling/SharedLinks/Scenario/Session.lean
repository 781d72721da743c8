import SharedLinks.Hub.Release
import SharedLinks.Hub.Teardown
import SharedLinks.Scenario.Report

/-!
# Sessions

A session is a hub together with the names that a script has given to what it works with, and the
numbers that jobs got in the order of their making. It knows how much of the hub's history has been
reported.
-/

namespace SharedLinks.Scenario

/-- What a future is. -/
inductive Future where
  | ticket (id : TicketId)
  | teardown (index : Nat)

/-- A hub and the names in use. -/
structure Session where
  hub : Hub
  /-- Jobs have numbers that the script may use. -/
  numbered : Bool
  futures : List (String × Future) := []
  /-- The tickets that the script may settle. -/
  waiters : List (String × TicketId) := []
  handles : List (String × HandleId) := []
  /-- The jobs by number, those included that are done. -/
  jobs : List JobId := []
  /-- How many events were reported. -/
  eventsTold : Nat := 0
  /-- How many notices were reported. -/
  noticesTold : Nat := 0

namespace Session

/-! ## Names -/

/-- Removes a name from a list of names. -/
def without {α : Type} (name : String) (names : List (String × α)) : List (String × α) :=
  names.filter fun (n, _) => n ≠ name

/-- The name of a ticket. -/
def ticketName (s : Session) (id : TicketId) : String :=
  let named := s.futures.find? fun (_, future) =>
    match future with
    | .ticket other => other = id
    | .teardown _ => false
  (named.map Prod.fst).getD ""

/-- The future of this name is a teardown. -/
def namesTeardown (s : Session) (name : String) : Bool :=
  match s.futures.lookup name with
  | some (.teardown _) => true
  | _ => false

/-- Gives up a future. -/
def discard (s : Session) : Future → Session
  | .ticket id => { s with hub := s.hub.dropTicket id }
  | .teardown index => { s with hub := s.hub.dropTeardown index }

/-- Names a new future and passes the answer on. If the name is in use the future is given up. -/
def nameFuture (s : Session) (name : String) (future : Future) (answer : Answer) :
    Session × Answer :=
  match s.futures.lookup name with
  | some _ => (s.discard future, .fault .nameInUse)
  | none => ({ s with futures := s.futures ++ [(name, future)] }, answer)

/-- Takes the waiters of these names out of the session; unknown names are skipped. -/
def takeWaiters (s : Session) : List String → Session × List TicketId
  | [] => (s, [])
  | name :: names =>
    match s.waiters.lookup name with
    | none => s.takeWaiters names
    | some id =>
      let (s, ids) := { s with waiters := without name s.waiters }.takeWaiters names
      (s, id :: ids)

/-! ## Reports -/

/-- An event as it is reported. -/
def row (s : Session) : Event → Row
  | .create link request => .create link.text request.linkName request.target request.properties
  | .close link => .close link.text
  | .wake id poll => .wake (s.ticketName id ++ "/" ++ toString poll)
  | .refund mark => .refund mark

/-- Jobs of one step are numbered by the key and number of their link. -/
def jobLe (a b : JobId) : Bool :=
  match a.link, b.link with
  | .made k i, .made l j => if k = l then i ≤ j else k.le l
  | .made _ _, .brought _ => true
  | .brought _, .made _ _ => false
  | .brought m, .brought n => m ≤ n

/-- Numbers the jobs that have no number yet. Those of a step without order are put in order first,
also among the jobs that are ready. -/
def numberJobs (s : Session) (inOrder : Bool) : Session :=
  let fresh := (s.hub.jobs.map (·.id)).filter (· ∉ s.jobs)
  if inOrder then { s with jobs := s.jobs ++ fresh }
  else
    let fresh := fresh.mergeSort jobLe
    let ready := s.hub.ready.filter (· ∉ fresh) ++ fresh.filter (· ∈ s.hub.ready)
    { s with jobs := s.jobs ++ fresh, hub := { s.hub with ready := ready } }

/-- The hub as it looks now. -/
def survey (s : Session) : Survey where
  live := if s.hub.isHeld then some s.hub.liveSurvey else none
  orphans := if s.hub.isHeld then some s.hub.orphanSurvey else none
  counters := s.hub.counters
  jobs :=
    if s.numbered then
      let undone := s.hub.jobs.map (·.id)
      some ((List.range s.jobs.length).filter fun n => s.jobs[n]?.any (· ∈ undone))
    else none

/-- Reports what has happened since the last report. -/
def report (s : Session) (inOrder : Bool) : Session × Report :=
  let s := s.numberJobs inOrder
  let events := s.hub.events.take (s.hub.events.length - s.eventsTold)
  let notices := s.hub.journal.take (s.hub.journal.length - s.noticesTold)
  let (rows, lines) := arrange inOrder (events.reverse.map s.row) notices.reverse
  ({ s with eventsTold := s.hub.events.length, noticesTold := s.hub.journal.length },
    ⟨rows, lines, s.survey⟩)

end Session

end SharedLinks.Scenario
