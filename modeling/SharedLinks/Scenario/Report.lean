import SharedLinks.Hub.View
import SharedLinks.Scenario.Action

/-!
# Reports

After each command a scenario reports the answer, the events and notices since the last report, and
a survey of the hub. A teardown takes the keys in no particular order, so the report of a step that
may have run one is put in order afterwards: rows by kind, then by what they are about, and lines by
their text. If such a step asked for several links it is not determined which of them got which
name, so the part of the names that differs is masked.
-/

namespace SharedLinks.Scenario

/-- An event as it is reported. -/
inductive Row where
  | create (link linkName target : String) (properties : List (String × String))
  | close (link : String)
  /-- A poll of a ticket was woken; it is called by the ticket's name and its own number. -/
  | wake (poll : String)
  | refund (mark : String)

namespace Row

/-- The words of a row, its kind first. -/
def words : Row → List String
  | create link linkName target properties =>
    "create" :: link :: linkName :: target :: properties.flatMap fun (k, v) => [k, v]
  | close link => ["close", link]
  | wake poll => ["wake", poll]
  | refund mark => ["releaser", mark]

/-- The row asks for a link. -/
def isCreate : Row → Bool
  | create .. => true
  | _ => false

end Row

/-- Words are compared one after the other. -/
def wordsLe : List String → List String → Bool
  | [], _ => true
  | _ :: _, [] => false
  | a :: as, b :: bs => if a = b then wordsLe as bs else a ≤ b

/-- The eight digits at the head of a link name, masked. -/
def maskName (linkName : String) : String :=
  String.ofList (List.replicate 8 '?' ++ linkName.toList.drop 8)

/-- Masks the link name of a row. -/
def Row.mask : Row → Row
  | create link linkName target properties => create link (maskName linkName) target properties
  | row => row

/-- Masks the link name of a notice. -/
def maskNotice : Notice → Notice
  | .creating key linkName target => .creating key (maskName linkName) target
  | notice => notice

/-- What a hub looks like between two commands. -/
structure Survey where
  /-- The served keys with their handles, if the hub is still held. -/
  live : Option (List (Key × Phase))
  /-- The keys with orphans. -/
  orphans : Option (List (Key × List Phase))
  counters : Counters
  /-- The numbers of the jobs that are not done, if jobs have numbers. -/
  jobs : Option (List Nat)

/-- What is reported beside the answer. -/
structure Report where
  rows : List Row
  lines : List String
  survey : Survey

/-- The rows and lines of a step, put in order if they were in none. -/
def arrange (inOrder : Bool) (rows : List Row) (notices : List Notice) :
    List Row × List String :=
  if inOrder then (rows, notices.map Notice.line)
  else
    let several := 1 < (rows.filter Row.isCreate).length
    let rows := if several then rows.map Row.mask else rows
    let notices := if several then notices.map maskNotice else notices
    (rows.mergeSort fun a b => wordsLe a.words b.words,
      (notices.map Notice.line).mergeSort fun a b => a ≤ b)

/-- What a failure is sorted by: its key and the identity of its link, empty where it has none. -/
def failurePlace : LinkError → Key × String
  | .creation key _ | .unbalancedRelease key => (key, "")
  | .close key identity _ => (key, identity)
  | .closeAll _ => (⟨"", none⟩, "")

/-- The failures of a teardown in the order in which they are reported. -/
def failuresInOrder (failures : List LinkError) : List LinkError :=
  failures.mergeSort fun a b =>
    let (key, identity) := failurePlace a
    let (key', identity') := failurePlace b
    if key = key' then identity ≤ identity' else key.le key'

/-- The answer to a command. -/
inductive Answer where
  | nothing
  | ok
  | pending
  | fault (fault : Fault)
  | error (error : LinkError)
  | flag (value : Bool)
  | number (value : Option Nat)
  | text (value : String)
  /-- A link, by its number and what it calls itself. -/
  | link (id identity : String)
  /-- A ticket as its owner sees it. -/
  | ticket (isReady : Bool) (shown : String)
  /-- How many keys are served. -/
  | size (keys : Nat)
  /-- How many tickets a handle gave back. -/
  | rejected (count : Nat)
  /-- A handle's references, whether it is closed, and how it is shown. -/
  | handle (refs : Option Nat) (isClosed : Bool) (shown : String)
  /-- The jobs that are done, by number. -/
  | jobs (numbers : List Nat)
  /-- The outcome of waiting, and the steps taken meanwhile. -/
  | waited (outcome : Answer) (steps : List (Answer × Report))

/-- The answer to one command with its report. -/
abbrev Step := Answer × Report

end SharedLinks.Scenario
