import SharedLinks.Hub.Acquire

/-!
# Teardowns

A teardown closes links regardless of who holds them. Its first poll takes all handles out of
service and closes every established link; the holders keep their references against the orphaned
handle. A handle whose link is still being created hands its tickets to a fresh handle of the key,
and the link it was waiting for is closed on arrival. The teardown is over once all its links have
answered, and then tells every failure.
-/

namespace SharedLinks.Hub

/-- Waits for a link of a teardown to close. -/
def awaitPart (w : Hub) (h : HandleId) (link : Link) : Hub × Part :=
  match w.awaitClose h link with
  | (w, none) => (w, .closing h link)
  | (w, some result) => (w, .done result)

/-- Takes a handle's link from its holders and closes it, or moves its tickets elsewhere. -/
def forceClose (w : Hub) (h : HandleId) : Hub × Part :=
  match w.phase h with
  | .live link refs =>
    let w := (w.note (.orphaning h.key refs)).setPhase h (.orphaned refs)
    let w := (w.count .forceCloses).note (.forceClosing h.key link.identity)
    (w.beginClose h link).awaitPart h link
  | .pending queue =>
    let w := (w.setPhase h .closed).forget h.key h
    match queue with
    | [] => (w, .done (.ok ()))
    | queue => ((w.note (.requeueing h.key queue.length)).requeue h.key queue, .done (.ok ()))
  | .orphaned _ | .closed => (w, .done (.ok ()))

/-- Force closes handles in order. -/
def forceCloseEach (w : Hub) : List HandleId → Hub × List Part
  | [] => (w, [])
  | h :: hs =>
    let (w, part) := w.forceClose h
    let (w, parts) := w.forceCloseEach hs
    (w, part :: parts)

/-- Begins a teardown; the wish tells in which order the handles are taken. -/
def beginTeardown (w : Hub) (scope : Scope) (wish : List Key) : Hub × List Part :=
  match scope with
  | .one h => w.forceCloseEach [h]
  | .all =>
    let (w, handles) := w.unlinkAll wish
    (w.note (.tearingDown handles.length)).forceCloseEach handles

/-- Looks again at the links that have not closed. -/
def awaitParts (w : Hub) : List Part → Hub × List Part
  | [] => (w, [])
  | part :: parts =>
    let (w, part) :=
      match part with
      | .closing h link => w.awaitPart h link
      | .done result => (w, .done result)
    let (w, parts) := w.awaitParts parts
    (w, part :: parts)

/-- The result of a teardown whose parts are all done. -/
def teardownResult (w : Hub) (scope : Scope) (parts : List Part) : Hub × Except LinkError Unit :=
  match scope, parts.filterMap Part.failure? with
  | _, [] => (w, .ok ())
  | .one _, failure :: _ => (w, .error failure)
  | .all, failures => (w.note (.teardownFailed failures.length), .error (.closeAll failures))

/-- Moves a teardown to another state. -/
def setTeardown (w : Hub) (index : Nat) (scope : Scope) (state : TeardownState) : Hub :=
  { w with teardowns := w.teardowns.set index ⟨scope, state⟩ }

/-- Ends a teardown if all its parts are done. -/
def concludeTeardown (w : Hub) (index : Nat) (scope : Scope) (parts : List Part) :
    Hub × Poll (Except LinkError Unit) :=
  if parts.any Part.isPending then (w.setTeardown index scope (.running parts), .pending)
  else
    let (w, result) := w.teardownResult scope parts
    ((w.setTeardown index scope .finished).noteIfAbandoned, .ready result)

/-- Makes a teardown. Nothing happens before it is polled, but it holds the hub. -/
def addTeardown (w : Hub) (scope : Scope) : Hub :=
  { w with teardowns := w.teardowns ++ [⟨scope, .idle⟩] }

/-- Asks a teardown whether it is over. The first time it begins. -/
def pollTeardown (w : Hub) (index : Nat) (wish : List Key) : Hub × Poll (Except LinkError Unit) :=
  match w.teardowns[index]? with
  | some ⟨scope, .idle⟩ =>
    let (w, parts) := w.beginTeardown scope wish
    w.concludeTeardown index scope parts
  | some ⟨scope, .running parts⟩ =>
    let (w, parts) := w.awaitParts parts
    w.concludeTeardown index scope parts
  | some ⟨_, .finished⟩ | some ⟨_, .dropped⟩ | none => (w, .over)

/-- Gives a teardown up. Links that were asked to close still do. -/
def dropTeardown (w : Hub) (index : Nat) : Hub :=
  match w.teardowns[index]? with
  | none => w
  | some t =>
    let dropped := w.setTeardown index t.scope .dropped
    if t.holds then dropped.noteIfAbandoned else dropped

end SharedLinks.Hub
