import SharedLinks.Proofs.Abreast
import SharedLinks.Proofs.Gates

/-!
# What comes too late

A handle that was ended while its link was being created has left its key to newer handles. What reaches
it afterwards is `Hub.Inert`: a link that arrives is asked to close, a failure is counted, and a ticket
that still holds a reference of the handle is dropped in vain. All handles stay in their places and
phases, all other tickets keep their outcomes, and nobody is woken (`inert_play`).
-/

namespace SharedLinks

namespace Hub

variable {w w' : Hub} {es : List Event} {cs : List Counter} {j : Job} {link : Link}

/-! ## What is left alone -/

/-- Handles and tickets are as they were in the first hub. Others have seen these events since, the
latest first, and these counters were raised by one. -/
structure Untouched (es : List Event) (cs : List Counter) (w w' : Hub) : Prop where
  serving : ∀ k, w'.serving k = w.serving k
  orphaned : ∀ k, (w'.shelf k).orphaned = (w.shelf k).orphaned
  phases : ∀ k, (w'.shelf k).phases = (w.shelf k).phases
  tickets : ∀ k, (w'.shelf k).tickets = (w.shelf k).tickets
  fixtures : w'.fixtures = w.fixtures
  namer : w'.namer = w.namer
  events : w'.events = es ++ w.events
  counters : w'.counters = cs.foldl (fun m c => m.add c 1) w.counters

namespace Untouched

theorem refl (w : Hub) : Untouched [] [] w w :=
  ⟨fun _ => rfl, fun _ => rfl, fun _ => rfl, fun _ => rfl, rfl, rfl, rfl, rfl⟩

theorem note (h : Untouched es cs w w') (n : Notice) : Untouched es cs w (w'.note n) :=
  ⟨h.serving, h.orphaned, h.phases, h.tickets, h.fixtures, h.namer, h.events, h.counters⟩

theorem withJobs (h : Untouched es cs w w') (jobs : List Job) (ready : List JobId) :
    Untouched es cs w { w' with jobs := jobs, ready := ready } :=
  ⟨h.serving, h.orphaned, h.phases, h.tickets, h.fixtures, h.namer, h.events, h.counters⟩

theorem emit (h : Untouched es cs w w') (e : Event) : Untouched (e :: es) cs w (w'.emit e) :=
  ⟨h.serving, h.orphaned, h.phases, h.tickets, h.fixtures, h.namer, congrArg (e :: ·) h.events,
    h.counters⟩

theorem beginClose (h : Untouched es cs w w') (hd : HandleId) (link : Link) :
    Untouched (.close link.id :: es) cs w (w'.beginClose hd link) :=
  (h.note _).emit _

theorem count (h : Untouched es cs w w') (c : Counter) : Untouched es (cs ++ [c]) w (w'.count c) := by
  refine ⟨h.serving, h.orphaned, h.phases, h.tickets, h.fixtures, h.namer, h.events, ?_⟩
  rw [List.foldl_append, ← h.counters]
  rfl

/-- An answer that has reached its owner shows in the creation alone. -/
theorem markDelivered (h : Untouched es cs w w') (id : LinkId) :
    Untouched es cs w (w'.markDelivered id) := by
  cases id with
  | brought name => exact h
  | made k i =>
    have hsame : ∀ j, ((w'.markDelivered (.made k i)).shelf j).serving = (w'.shelf j).serving ∧
        ((w'.markDelivered (.made k i)).shelf j).orphaned = (w'.shelf j).orphaned ∧
        ((w'.markDelivered (.made k i)).shelf j).phases = (w'.shelf j).phases ∧
        ((w'.markDelivered (.made k i)).shelf j).tickets = (w'.shelf j).tickets := by
      intro j
      rw [markDelivered_eq]
      by_cases hj : j = k
      · rw [hj, shelf_onShelf_self]
        exact ⟨rfl, rfl, rfl, rfl⟩
      · rw [shelf_onShelf_ne w' hj]
        exact ⟨rfl, rfl, rfl, rfl⟩
    exact ⟨fun j => (hsame j).1.trans (h.serving j), fun j => (hsame j).2.1.trans (h.orphaned j),
      fun j => (hsame j).2.2.1.trans (h.phases j), fun j => (hsame j).2.2.2.trans (h.tickets j),
      h.fixtures, h.namer, h.events, h.counters⟩

end Untouched

/-! ## Links that close -/

/-- What a job has left to do once its link was asked to close: to wait, if there is no answer. -/
def leftOfClose (w : Hub) (link : Link) : Option Stage :=
  match w.closing link.id with
  | .shut => some .awaitClose
  | .opened _ => none

/-- What is counted when the answer to a close is looked at. -/
def countsOfClose (w : Hub) (link : Link) : List Counter :=
  match w.closing link.id with
  | .opened (some _) => [.closeFailures]
  | .opened none | .shut => []

/-- The answer to a close is looked at, and counted if it is a failure. -/
theorem untouched_workAwaitClose (h : Untouched es cs w w') (same : ∀ id, w'.closing id = w.closing id)
    (j : Job) : Untouched es (cs ++ w.countsOfClose j.link) w (w'.workAwaitClose j).1 ∧
      (w'.workAwaitClose j).2 = w.leftOfClose j.link := by
  unfold workAwaitClose awaitClose countsOfClose leftOfClose
  rw [same]
  cases w.closing j.link.id with
  | shut => exact ⟨(List.append_nil cs).symm ▸ h, rfl⟩
  | opened failure =>
    cases failure with
    | none => exact ⟨(List.append_nil cs).symm ▸ h.note _, rfl⟩
    | some failure => exact ⟨(h.count _).note _, rfl⟩

/-! ## What a job does for a handle that has ended -/

/-- A run of a job leaves handles, tickets and all other jobs alone; `left` says what this one has left
to do. -/
structure Shrugs (w : Hub) (j : Job) (left : Option Stage) (es : List Event) (cs : List Counter) :
    Prop extends Untouched es cs w (w.runJob j.id).1 where
  others : ∀ id, id ≠ j.id → (w.runJob j.id).1.job? id = w.job? id
  left : (w.runJob j.id).1.job? j.id = left.map fun stage => { j with stage := stage }

theorem job?_afterWork_self (found : w.job? j.id = some j) (left : Option Stage) :
    (w.afterWork j.id left).1.job? j.id = left.map fun stage => { j with stage := stage } := by
  cases left with
  | none =>
    refine List.find?_eq_none.mpr fun j' hm => ?_
    have hne := (List.mem_filter.mp hm).2
    simpa using hne
  | some stage =>
    change (w.jobs.map fun j' => if j'.id = j.id then { j' with stage := stage } else j').find? _ = _
    rw [List.find?_map]
    have hsame : w.jobs.find? ((fun j' => decide (j'.id = j.id)) ∘ fun j' =>
        if j'.id = j.id then { j' with stage := stage } else j') = w.job? j.id := by
      refine List.find?_congr fun j' _ => ?_
      rw [Function.comp_apply]
      split <;> rfl
    rw [hsame, found]
    exact congrArg some (if_pos rfl)

/-- What is known of the work of a job shows in the run of the job. -/
theorem shrugs_runJob (found : w.job? j.id = some j) {left : Option Stage}
    (work : Untouched es cs (w.unready j.id) ((w.unready j.id).work j).1 ∧
      ((w.unready j.id).work j).2 = left) : Shrugs w j left es cs := by
  obtain ⟨hwork, rfl⟩ := work
  have hrun := runJob_of_some found
  have hstart : Untouched es cs w ((w.unready j.id).work j).1 :=
    ⟨hwork.serving, hwork.orphaned, hwork.phases, hwork.tickets, hwork.fixtures, hwork.namer,
      hwork.events, hwork.counters⟩
  refine ⟨?_, fun id hid => job?_runJob_ne hid, ?_⟩
  · rw [hrun]
    cases ((w.unready j.id).work j).2 with
    | none => exact hstart.withJobs _ _
    | some stage => exact hstart.withJobs _ _
  · rw [hrun]
    refine job?_afterWork_self ?_ _
    rw [job?, jobs_work]
    exact found

/-- A handle that has ended takes no link. -/
theorem fulfil_of_closed {h : HandleId} (hp : w.phase h = .closed) (link : Link) :
    w.fulfil h link = ((w.note (.createdLate h.key link.identity)).count .closes, true) := by
  rw [fulfil, hp]

/-- A handle that has ended has nobody to tell of a failure. -/
theorem fail_of_closed {h : HandleId} (hp : w.phase h = .closed) (failure : String) :
    w.fail h failure = (w.note (.creationFailed h.key (.creation h.key (.message failure)))).count
      .creationFailures := by
  have hcounted : ((w.note (.creationFailed h.key (.creation h.key (.message failure)))).count
      .creationFailures).phase h = .closed := hp
  unfold fail
  dsimp only
  rw [hcounted]

/-- A link that arrives at a handle that has ended is asked to close. -/
theorem shrugs_lateLink (found : w.job? j.id = some j) (awaits : j.stage = .awaitLink)
    (ended : w.phase j.owner = .closed) (made : w.making j.link.id = .opened none) :
    Shrugs w j (w.leftOfClose j.link) [.close j.link.id] (.closes :: w.countsOfClose j.link) := by
  refine shrugs_runJob found ?_
  have hmade : (w.unready j.id).making j.link.id = .opened none := made
  have hended : ((w.unready j.id).markDelivered j.link.id).phase j.owner = .closed :=
    (phase_onCreation _ _ _ _).trans ended
  have hstart := (Untouched.refl (w.unready j.id)).markDelivered j.link.id
  unfold work
  rw [awaits]
  dsimp only
  rw [hmade]
  dsimp only
  rw [fulfil_of_closed hended]
  have hasked := ((hstart.note (.createdLate j.owner.key j.link.identity)).count .closes).beginClose
    j.owner j.link
  have hclosing : ∀ id, (((((w.unready j.id).markDelivered j.link.id).note
      (.createdLate j.owner.key j.link.identity)).count .closes).beginClose j.owner j.link).closing
        id = (w.unready j.id).closing id := by
    intro id
    rw [closing_eq, outline_beginClose, outline_count, outline_note, outline_markDelivered]
    exact congrFun (Outline.gate_deliver _ _) id
  exact untouched_workAwaitClose hasked hclosing j

/-- A failure that is told to a handle that has ended is counted. -/
theorem shrugs_lateFailure (found : w.job? j.id = some j) (awaits : j.stage = .awaitLink)
    (ended : w.phase j.owner = .closed) {failure : String}
    (made : w.making j.link.id = .opened (some failure)) :
    Shrugs w j none [] [.creationFailures] := by
  refine shrugs_runJob found ?_
  have hmade : (w.unready j.id).making j.link.id = .opened (some failure) := made
  have hended : ((w.unready j.id).markDelivered j.link.id).phase j.owner = .closed :=
    (phase_onCreation _ _ _ _).trans ended
  have hstart := (Untouched.refl (w.unready j.id)).markDelivered j.link.id
  unfold work
  rw [awaits]
  dsimp only
  rw [hmade]
  dsimp only
  rw [fail_of_closed hended]
  exact ⟨(hstart.note _).count _, rfl⟩

/-- A job that waits for a link to close does nothing else. -/
theorem shrugs_awaitClose (found : w.job? j.id = some j) (awaits : j.stage = .awaitClose) :
    Shrugs w j (w.leftOfClose j.link) [] (w.countsOfClose j.link) := by
  refine shrugs_runJob found ?_
  unfold work
  rw [awaits]
  exact untouched_workAwaitClose (.refl (w.unready j.id)) (fun _ => rfl) j

/-! ## In every state of a run -/

/-- What reaches a handle that has come to its end concerns nobody else. -/
structure Inert (w : Hub) : Prop where
  /-- A link that arrives there is asked to close, which nobody had asked it before. -/
  lateLink : ∀ j ∈ w.jobs, j.stage = .awaitLink → w.phase j.owner = .closed →
    w.making j.link.id = .opened none →
    Shrugs w j (w.leftOfClose j.link) [.close j.link.id] (.closes :: w.countsOfClose j.link) ∧
      w.outline.closings j.link.id = 0 ∧ (w.runJob j.id).1.outline.closings j.link.id = 1
  /-- Whatever the link answers later, a failure is counted and that is all. -/
  closed : ∀ j ∈ w.jobs, j.stage = .awaitClose →
    Shrugs w j (w.leftOfClose j.link) [] (w.countsOfClose j.link)
  /-- A failure of the creation is counted. -/
  lateFailure : ∀ j ∈ w.jobs, j.stage = .awaitLink → w.phase j.owner = .closed →
    ∀ failure, w.making j.link.id = .opened (some failure) → Shrugs w j none [] [.creationFailures]
  /-- A ticket that the handle has granted its link to is dropped, and that is all. -/
  lateDrop : ∀ k n t link h, (w.shelf k).tickets[n]? = some t →
    t.state = .settled (.ok link) (some (.handle h)) → w.phase h = .closed →
    w.dropTicket (.forKey k n) =
      (w.setTicket (.forKey k n) { t with state := .dropped (some (.ok link)) }).note
        (.unclaimed h.key)

/-- A link that a job still awaits was never asked to close. -/
theorem closings_of_awaitLink (tidy : w.outline.Tidy) (hj : j ∈ w.jobs) (awaits : j.stage = .awaitLink) :
    w.outline.closings j.link.id = 0 := by
  obtain ⟨-, c, found, -, -⟩ := tidy.job j hj
  have hm : j.stage ∈ Job.stages w.jobs j.link.id := Job.mem_stages hj
  rw [awaits] at hm
  exact ((tidy.stands _ c found).of_awaitLink hm).2.2

/-- A ticket that holds a reference of a handle that has ended is dropped in vain. -/
theorem dropTicket_of_closed {k : Key} {n : Nat} {t : Ticket} {h : HandleId}
    (found : (w.shelf k).tickets[n]? = some t)
    (unclaimed : t.state = .settled (.ok link) (some (.handle h))) (ended : w.phase h = .closed) :
    w.dropTicket (.forKey k n) =
      (w.setTicket (.forKey k n) { t with state := .dropped (some (.ok link)) }).note
        (.unclaimed h.key) := by
  have hended : ((w.setTicket (.forKey k n) { t with state := .dropped (some (.ok link)) }).note
      (.unclaimed h.key)).phase h = .closed := (phase_setTicket w _ _ _).trans ended
  unfold dropTicket
  rw [ticket?_eq, found]
  simp only [Ticket.drop, unclaimed, refund]
  unfold giveBack
  rw [hended]
  rfl

/-- In every state of a run, whatever reaches a handle that has come to its end concerns nobody else. -/
theorem inert_play {settings : Settings} {seed : UInt64} {ambient : Option Dispatch} {w₀ : Hub}
    (built : settings.build seed ambient = .ok w₀) (ms : List Move) : (w₀.play ms).Inert := by
  have htidy := tidy_play (tidy_build built) ms
  generalize w₀.play ms = w at *
  have hfound : ∀ j ∈ w.jobs, w.job? j.id = some j := fun j hj => job?_of_mem htidy.nodup_jobs hj
  constructor
  · intro j hj awaits ended made
    have hshrugs := shrugs_lateLink (hfound j hj) awaits ended made
    have hzero := closings_of_awaitLink htidy hj awaits
    refine ⟨hshrugs, hzero, ?_⟩
    change (w.runJob j.id).1.events.count _ = 1
    rw [hshrugs.events, List.singleton_append, List.count_cons_self]
    exact congrArg (· + 1) hzero
  · exact fun j hj awaits => shrugs_awaitClose (hfound j hj) awaits
  · exact fun j hj awaits ended failure made => shrugs_lateFailure (hfound j hj) awaits ended made
  · exact fun k n t link h found unclaimed ended => dropTicket_of_closed found unclaimed ended

/-- A caller waits for a link when a teardown begins, and is moved to a fresh handle. -/
def moveOn : List Move := [.acquire sampleKey, .tearDown, .pollTeardown 0 []]

/-- A link is granted, a teardown closes it, and the first of two callers releases the reference of the
other one, who has not claimed the link yet. -/
def releaseForAnother : List Move :=
  [.acquire sampleKey, .runJob ⟨.made sampleKey 0, .create⟩, .tearDown, .pollTeardown 0 [],
    .acquire sampleKey, .runJob ⟨.made sampleKey 1, .create⟩, .poll sampleKey 1, .release sampleKey]

/-- The first link arrives when its handle has ended and is asked to close, while the second handle goes
on waiting; and the caller whose reference was released drops the ticket in vain. -/
theorem inert_play_moveOn : sampleSettings.build 0 none = .ok sample ∧
    ((sample.play moveOn).runJob ⟨.made sampleKey 0, .create⟩).1.outline.closings
      (.made sampleKey 0) = 1 ∧
    ((sample.play moveOn).runJob ⟨.made sampleKey 0, .create⟩).1.serving sampleKey =
      some ⟨sampleKey, 1⟩ ∧
    ((sample.play releaseForAnother).dropTicket (.forKey sampleKey 0)).phase ⟨sampleKey, 1⟩ =
      .live (({} : Prospect).link (.made sampleKey 1)) 1 := by
  obtain ⟨hshrugs, -, hclosed⟩ := (inert_play build_sample moveOn).lateLink
    ⟨⟨.made sampleKey 0, .create⟩, ⟨sampleKey, 0⟩, ({} : Prospect).link (.made sampleKey 0), .awaitLink⟩
    (by decide) rfl (by decide) (by decide)
  have hdrop := (inert_play build_sample releaseForAnother).lateDrop sampleKey 0
    { state := .settled (.ok (({} : Prospect).link (.made sampleKey 0)))
        (some (.handle ⟨sampleKey, 0⟩)), waited := true }
    (({} : Prospect).link (.made sampleKey 0)) ⟨sampleKey, 0⟩ rfl rfl (by decide)
  refine ⟨build_sample, hclosed, (hshrugs.serving sampleKey).trans (by decide), ?_⟩
  rw [hdrop]
  decide

end Hub

end SharedLinks
