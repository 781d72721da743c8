import SharedLinks.Hub.Delivery

/-!
# Jobs

Links are created and closed by jobs that go on without the caller. A job works until it has to wait
for an answer of the provider; the answer makes it ready to go on. Work never makes new jobs.
-/

namespace SharedLinks.Hub

/-- Marks a creation's answer as having reached the owner. -/
def markDelivered (w : Hub) (id : LinkId) : Hub :=
  w.onCreation id fun c => { c with delivered := true }

/-- Waits for a job's link to close; says what is left to do. -/
def workAwaitClose (w : Hub) (j : Job) : Hub × Option Stage :=
  match w.awaitClose j.owner j.link with
  | (w, none) => (w, some .awaitClose)
  | (w, some _) => (w, none)

/-- Asks a job's link to close and waits for it. -/
def workClose (w : Hub) (j : Job) : Hub × Option Stage :=
  (w.beginClose j.owner j.link).workAwaitClose j

/-- Goes on with a job as far as possible; says what is left to do. -/
def work (w : Hub) (j : Job) : Hub × Option Stage :=
  match j.stage with
  | .awaitLink =>
    match w.making j.link.id with
    | .shut => (w, some .awaitLink)
    | .opened (some failure) => ((w.markDelivered j.link.id).fail j.owner failure, none)
    | .opened none =>
      match (w.markDelivered j.link.id).fulfil j.owner j.link with
      | (w, true) => w.workClose j
      | (w, false) => (w, none)
  | .close => w.workClose j
  | .awaitClose => w.workAwaitClose j

/-- Takes up a new job. -/
def spawn (w : Hub) (j : Job) : Hub :=
  match w.dispatch with
  | .queue => { w with jobs := w.jobs ++ [j], ready := w.ready ++ [j.id] }
  | .inline =>
    match w.work j with
    | (w, none) => w
    | (w, some stage) => { w with jobs := w.jobs ++ [{ j with stage := stage }] }
  | .discard => w

/-- A job by its number. -/
def job? (w : Hub) (id : JobId) : Option Job := w.jobs.find? fun j => j.id = id

/-- Takes a job off the list of those that can go on. -/
def unready (w : Hub) (id : JobId) : Hub := { w with ready := w.ready.filter (· ≠ id) }

/-- Throws a job away. -/
def removeJob (w : Hub) (id : JobId) : Hub :=
  { w with jobs := w.jobs.filter fun j => j.id ≠ id, ready := w.ready.filter (· ≠ id) }

/-- Keeps a job at the stage it has reached. -/
def setStage (w : Hub) (id : JobId) (stage : Stage) : Hub :=
  { w with jobs := w.jobs.map fun j => if j.id = id then { j with stage := stage } else j }

/-- Runs a job once, whether it is ready or not; says whether it is done, if there is one. -/
def runJob (w : Hub) (id : JobId) : Hub × Option Bool :=
  match w.job? id with
  | none => (w, none)
  | some j =>
    match (w.unready id).work j with
    | (w, none) => (w.removeJob id, some true)
    | (w, some stage) => (w.setStage id stage, some false)

/-- Runs jobs in order, and lists those that are done with it. -/
def runJobs (w : Hub) : List JobId → Hub × List JobId
  | [] => (w, [])
  | id :: ids =>
    let (w, done) := w.runJob id
    let (w, rest) := w.runJobs ids
    (w, if done = some true then id :: rest else rest)

/-- Runs all ready jobs in order. No job makes another one ready, so one round is enough. -/
def runReady (w : Hub) : Hub × List JobId := w.runJobs w.ready

/-! ## Answers of the provider -/

/-- Makes the jobs ready that wait at a stage for a link, unless they are already. -/
def rouse (w : Hub) (id : LinkId) (stage : Stage) : Hub :=
  let waiting := (w.jobs.filter fun j => j.link.id = id ∧ j.stage = stage).map (·.id)
  { w with ready := w.ready ++ waiting.filter (· ∉ w.ready) }

/-- The provider answers whether a link could be made; false if it had answered before, nothing if
there is no such creation. -/
def answerMaking (w : Hub) (id : LinkId) (failure : Option String) : Option (Hub × Bool) :=
  (w.creation? id).map fun c =>
    match c.making with
    | .opened _ => (w, false)
    | .shut =>
      ((w.onCreation id fun c => { c with making := .opened failure }).rouse id .awaitLink, true)

/-- The provider answers whether a link could be closed. -/
def answerClosing (w : Hub) (id : LinkId) (failure : Option String) : Option (Hub × Bool) :=
  (w.creation? id).map fun c =>
    match c.closing with
    | .opened _ => (w, false)
    | .shut =>
      ((w.onCreation id fun c => { c with closing := .opened failure }).rouse id .awaitClose, true)

end SharedLinks.Hub
