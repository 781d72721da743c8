import SharedLinks.Proofs.Commuting

/-!
# It does not matter when jobs are run

A hub may run a new job at once, in the middle of the call that takes it up, or keep it until
somebody runs what is ready. If all that is ready is run after each move, nobody can tell which of the
two it was (`inStep_turns`): after each turn the hubs have the same handles, tickets, teardowns and
counters, they have given the same replies, and every link was requested and closed as often.

Calls and what is done to tickets end with the job that they take up, if any (`InStep.call`), and the
provider's answers rouse the same jobs in both hubs (`InStep.answer`). The first poll of a teardown
takes up jobs in between, but for different keys, so they may as well be run after all of it
(`Abreast.beginTeardown`).
-/

namespace SharedLinks

namespace Hub

variable {named : Prop} {u u' w w' : Hub}

/-! ## Who holds the hubs -/

/-- Who holds the hub does not matter to its keys as long as a caller does. -/
theorem Abreast.aside (hc : 0 < w.clones) {n : Nat} (hn : 0 < n) (ts : List Teardown)
    (journal : List Notice) :
    Abreast named w { w with clones := n, teardowns := ts, journal := journal } := by
  have hheld : ({ w with clones := n, teardowns := ts, journal := journal } : Hub).isHeld = w.isHeld :=
    (isHeld_of_clones hn).trans (isHeld_of_clones hc).symm
  exact ⟨⟨fun _ => rfl, rfl, rfl, rfl, hheld, rfl, rfl, .refl _, fun _ => rfl, fun _ => .refl _⟩,
    rfl, rfl⟩

theorem noteIfAbandoned_of_clones (hc : 0 < w.clones) : w.noteIfAbandoned = w := by
  rw [noteIfAbandoned, isHeld_of_clones hc, Bool.true_or, if_pos rfl]

/-- Where hubs are held alike, a teardown comes to be in the same state. -/
theorem keepers_concludeTeardown_congr (keepers : w'.keepers = w.keepers) {i : Nat} {scope : Scope}
    {parts : List Part} :
    (w'.concludeTeardown i scope parts).1.keepers = (w.concludeTeardown i scope parts).1.keepers := by
  obtain ⟨journal, e⟩ := concludeTeardown_eq w i scope parts
  obtain ⟨journal', e'⟩ := concludeTeardown_eq w' i scope parts
  obtain ⟨hclones, hteardowns⟩ := Prod.mk.inj keepers
  rw [e, e']
  simp only [Hub.keepers, hclones, hteardowns]

theorem abreast_concludeTeardown (named : Prop) (hc : 0 < w.clones) (i : Nat) (scope : Scope)
    (parts : List Part) :
    Abreast named w (w.concludeTeardown i scope parts).1 := by
  obtain ⟨journal, e⟩ := concludeTeardown_eq w i scope parts
  rw [e]
  exact .aside hc hc _ _

/-! ## Turns -/

/-- One move, and then all jobs that are ready. -/
def turn (w : Hub) (m : Move) : Hub := (w.move m).runReady.1

/-- Some turns in order. -/
def turns (w : Hub) (ms : List Move) : Hub := ms.foldl turn w

/-- What a hub replies to the moves of some turns. -/
def turnReplies (w : Hub) : List Move → List Reply
  | [] => []
  | m :: ms => w.reply m :: (w.turn m).turnReplies ms

/-- The first hub runs new jobs at once and the second one after each move, callers hold both, and
nobody can tell them apart. -/
structure InStep (named : Prop) (w w' : Hub) : Prop extends Abreast named w w' where
  keepers : w'.keepers = w.keepers
  clones : 0 < w.clones
  idle : w.ready = []
  inline : w.dispatch = .inline
  queue : w'.dispatch = .queue

theorem runJobs_eq_play (w : Hub) (ids : List JobId) :
    (w.runJobs ids).1 = w.play (ids.map .runJob) := by
  induction ids generalizing w with
  | nil => rfl
  | cons id ids ih => exact ih (w.runJob id).1

/-- A turn is a run of moves. -/
theorem turn_eq_play (w : Hub) (m : Move) :
    w.turn m = w.play (m :: (w.move m).ready.map .runJob) :=
  runJobs_eq_play (w.move m) (w.move m).ready

theorem keepers_runJobs (w : Hub) (ids : List JobId) : (w.runJobs ids).1.keepers = w.keepers := by
  induction ids generalizing w with
  | nil => rfl
  | cons id ids ih => exact (ih (w.runJob id).1).trans (keepers_runJob w id)

theorem keepers_turn (w : Hub) (m : Move) : (w.turn m).keepers = (w.move m).keepers :=
  keepers_runJobs (w.move m) (w.move m).ready

theorem clones_pos_of_keepers (h : 0 < w.clones) {ts : List Teardown}
    (keepers : w'.keepers = (w.clones, ts)) : 0 < w'.clones := by
  have hc : w'.clones = w.clones := congrArg Prod.fst keepers
  rwa [hc]

/-- A caller who holds the hub does so until it lets go. -/
theorem clones_move (h : 0 < w.clones) {m : Move} (stays : m ≠ .dropClone) :
    0 < (w.move m).clones := by
  have hsame : ∀ {u : Hub}, u.keepers = w.keepers → 0 < u.clones := clones_pos_of_keepers h
  have hasked : ∀ f : Hub → Hub, 0 < (f w).clones → 0 < (w.asked f).clones := fun f hf =>
    asked_induction (P := fun u => 0 < u.clones) (fun _ => h) fun _ => hf
  cases m with
  | acquire k => exact hasked _ (hsame (keepers_acquire w k))
  | release k => exact hasked _ (hsame (keepers_release w k))
  | poll k n => exact hsame (keepers_pollTicket w _)
  | park k n => exact hsame (keepers_parkTicket w _)
  | drop k n => exact hsame (keepers_dropTicket w _)
  | tearDown => exact hasked _ h
  | pollTeardown i wish =>
    rcases keepers_pollTeardown w i wish with e | ⟨t, state, -, -, e⟩
    · exact hsame e
    · exact clones_pos_of_keepers h e
  | dropTeardown i =>
    change 0 < (w.dropTeardown i).clones
    unfold dropTeardown
    split
    · exact h
    · dsimp only
      split
      · rw [noteIfAbandoned_of_clones (w := w.setTeardown _ _ _) h]
        exact h
      · exact h
  | runJob id => exact hsame (keepers_runJob w id)
  | abortJob id => exact h
  | answerMaking id failure => exact hsame (keepers_answerMaking w id failure)
  | answerClosing id failure => exact hsame (keepers_answerClosing w id failure)
  | clone => exact hasked _ (Nat.succ_pos _)
  | dropClone => contradiction

/-- Once each runs what is ready after a move, nobody can tell the hubs apart. -/
structure CatchesUp (named : Prop) (u u' : Hub) : Prop where
  abreast : Abreast named u.runReady.1 u'.runReady.1
  keepers : u'.keepers = u.keepers
  idle : u.runReady.1.ready = []

theorem CatchesUp.of_idle (idle : u.ready = []) (abreast : Abreast named u u'.runReady.1)
    (keepers : u'.keepers = u.keepers) : CatchesUp named u u' := by
  refine ⟨?_, keepers, ?_⟩
  · rwa [runReady_of_idle idle]
  · rwa [runReady_of_idle idle]

/-- Where nothing is ready in either hub, nobody can tell them apart before, either. -/
theorem CatchesUp.of_still (idle : u.ready = []) (abreast : Abreast named u u')
    (keepers : u'.keepers = u.keepers) : CatchesUp named u u' := by
  refine .of_idle idle ?_ keepers
  rwa [runReady_of_idle (abreast.ready.trans idle)]

/-- A teardown whose parts were looked at comes to the same in both hubs. -/
theorem CatchesUp.concludeTeardown (run : Abreast named u u'.runReady.1) (primed : u'.Primed)
    (keepers : u'.keepers = u.keepers) (hc : 0 < u.clones) (i : Nat) (scope : Scope)
    (parts : List Part) :
    CatchesUp named (u.concludeTeardown i scope parts).1 (u'.concludeTeardown i scope parts).1 ∧
      (u'.concludeTeardown i scope parts).2 = (u.concludeTeardown i scope parts).2 := by
  have hc' : 0 < u'.clones := clones_pos_of_keepers hc keepers
  have hend := abreast_concludeTeardown named hc i scope parts
  have hend' := abreast_concludeTeardown named hc' i scope parts
  refine ⟨.of_idle ?_ ?_ ?_, concludeTeardown_reply _ _ _ _ _⟩
  · exact hend.ready.trans (run.ready.symm.trans primed.ready_runReady)
  · exact hend.symm.trans (run.trans (hend'.runReady primed))
  · exact keepers_concludeTeardown_congr keepers

/-- A job works for a handle of its own key. -/
theorem Sound.worksWithin (sound : w.Sound) (held : w.isHeld = true) {j : Job} (hj : j ∈ w.jobs) :
    w.WorksWithin (· = j.owner.key) j := by
  have hshadow := sound.shadow held
  have works : (w.unready j.id).WorksWithin (· = j.owner.key) j := by
    refine hshadow.labelled.worksWithin hj ?_ (hshadow.contained _) j.id
    rfl
  exact ⟨works.owner, works.link, works.queue⟩

/-- All that is ready can be run if it is among the jobs, in their order. -/
theorem Sound.primed (sound : w.Sound) (held : w.isHeld = true) (tidy : w.outline.Tidy)
    (among : w.ready.Sublist (w.jobs.map (·.id))) : w.Primed := by
  refine ⟨tidy, tidy.nodup_jobs.sublist among, fun id hm => ?_⟩
  obtain ⟨j, hj, rfl⟩ := List.mem_map.mp (among.subset hm)
  exact ⟨j, job?_of_mem tidy.nodup_jobs hj, sound.worksWithin held hj⟩

/-- Where nothing was ready, an answer rouses jobs in the order in which they are kept. -/
theorem sublist_ready_rouse (idle : w.ready = []) (id : LinkId) (stage : Stage) :
    (w.rouse id stage).ready.Sublist ((w.rouse id stage).jobs.map (·.id)) := by
  unfold rouse
  dsimp only
  rw [idle, List.nil_append]
  exact List.filter_sublist.trans (List.filter_sublist.map _)

namespace InStep

theorem isHeld (h : InStep named w w') : w.isHeld = true := isHeld_of_clones h.clones

theorem clones_eq (h : InStep named w w') : w'.clones = w.clones := congrArg Prod.fst h.keepers

theorem teardowns_eq (h : InStep named w w') : w'.teardowns = w.teardowns :=
  congrArg Prod.snd h.keepers

/-- A call or something done to a ticket takes up one job at most, and that at its end. -/
theorem call (h : InStep named w w') (sound : w.Sound) (tidy' : w'.outline.Tidy) {k : Key} {n : Nat}
    {m : Move} (hm : m = .acquire k ∨ m = .release k ∨ m = .poll k n ∨ m = .park k n ∨ m = .drop k n) :
    CatchesUp named (w.move m) (w'.move m) ∧ w'.reply m = w.reply m := by
  have htail := h.tail h.idle h.inline h.queue
  have hcontained : ∀ j, (withoutJobs named).keys j → w.Contained j := fun j _ =>
    (sound.shadow h.isHeld).contained j
  have hclones : w'.clones = 0 ↔ w.clones = 0 := by rw [h.clones_eq]
  have hasked : ∀ (u : Hub) (f : Hub → Hub), (f u).keepers = u.keepers →
      (u.asked f).keepers = u.keepers := fun u f hf =>
    asked_induction (P := fun u' => u'.keepers = u.keepers) (fun _ => rfl) fun _ => hf
  have hkeepers : ∀ u : Hub, (u.move m).keepers = u.keepers := by
    intro u
    rcases hm with rfl | rfl | rfl | rfl | rfl
    · exact hasked u _ (keepers_acquire u k)
    · exact hasked u _ (keepers_release u k)
    · exact keepers_pollTicket u _
    · exact keepers_parkTicket u _
    · exact keepers_dropTicket u _
  have htidy : (w'.move m).outline.Tidy := tidy_play tidy' [m]
  have hmeets : ((w.move m).ready = [] ∧ (((w'.move m).jobs.map (·.id)).Nodup →
      Abreast named (w.move m) (w'.move m).runReady.1)) → CatchesUp named (w.move m) (w'.move m) :=
    fun ⟨hidle, habreast⟩ => .of_idle hidle (habreast htidy.nodup_jobs) (by
      rw [hkeepers, hkeepers, h.keepers])
  rcases hm with hm | hm | hm
  · exact (htail.move_call h.start hcontained trivial trivial hclones trivial (Or.inl hm)).imp_left
      hmeets
  · exact (htail.move_call h.start hcontained trivial trivial hclones trivial (Or.inr hm)).imp_left
      hmeets
  · exact (htail.move_ticket h.start hcontained trivial n hm).imp_left hmeets

/-- A job that is run, whether it was ready or not, does the same in both hubs. -/
theorem runJob (h : InStep named w w') (sound : w.Sound) (id : JobId) :
    CatchesUp named (w.runJob id).1 (w'.runJob id).1 ∧ (w'.runJob id).2 = (w.runJob id).2 := by
  have hkeepers : (w'.runJob id).1.keepers = (w.runJob id).1.keepers := by
    rw [keepers_runJob, keepers_runJob, h.keepers]
  cases found : w.job? id with
  | none =>
    have found' : w'.job? id = none := by rw [job?, h.jobs, ← job?, found]
    rw [runJob_of_none found, runJob_of_none found']
    exact ⟨.of_still h.idle h.toAbreast h.keepers, rfl⟩
  | some j =>
    have works := (sound.worksWithin h.isHeld (List.mem_of_find?_eq_some found)).mono
      fun _ _ => trivial
    obtain ⟨hnext, hreply⟩ := h.runJob_of_found found works
    have hidle : (w.runJob id).1.ready = [] := by
      rw [ready_runJob found works, h.idle]
      rfl
    exact ⟨.of_still hidle hnext hkeepers, hreply⟩

/-- An answer of the provider rouses the same jobs in both hubs. -/
theorem answerAt (h : InStep named w w') (id : LinkId) (gate : Creation → Gate)
    (f : Creation → Creation) (stage : Stage) :
    Abreast named (w.answerAt id gate f stage).1 (w'.answerAt id gate f stage).1 ∧
      (w'.answerAt id gate f stage).2 = (w.answerAt id gate f stage).2 ∧
        (w.answerAt id gate f stage).1.ready.Sublist
          ((w.answerAt id gate f stage).1.jobs.map (·.id)) := by
  have hid := id.within_true
  have hsame : w.ready.Sublist (w.jobs.map (·.id)) := by
    rw [h.idle]
    exact List.nil_sublist _
  unfold Hub.answerAt
  rw [h.start.creation? hid]
  cases w.creation? id with
  | none => exact ⟨h.toAbreast, rfl, hsame⟩
  | some c =>
    dsimp only
    cases gate c with
    | opened failure => exact ⟨h.toAbreast, rfl, hsame⟩
    | shut =>
      have halong := h.start.onCreation hid f
      have hnext := h.later halong
      refine ⟨⟨hnext.toMatches.withJobs _ _ _ _, hnext.jobs, ?_⟩, rfl, ?_⟩
      · simp only [rouse, hnext.jobs, hnext.ready]
      · exact sublist_ready_rouse ((halong.same_jobs fun e => e).1.2.trans h.idle) id stage

/-- So both hubs run the same jobs after it. -/
theorem answer (h : InStep named w w') (sound : w.Sound) (tidy : w.outline.Tidy) {m : Move}
    (hm : (∃ id failure, m = .answerMaking id failure) ∨ ∃ id failure, m = .answerClosing id failure) :
    CatchesUp named (w.move m) (w'.move m) ∧ w'.reply m = w.reply m := by
  have hkeepers : ∀ u : Hub, (u.move m).keepers = u.keepers := by
    intro u
    rcases hm with ⟨id, failure, rfl⟩ | ⟨id, failure, rfl⟩
    · exact keepers_answerMaking u id failure
    · exact keepers_answerClosing u id failure
  obtain ⟨id, gate, f, stage, hanswer⟩ := exists_answerAt hm
  obtain ⟨hnext, hreply, hamong⟩ := h.answerAt id gate f stage
  rw [← (hanswer w).1, ← (hanswer w').1] at hnext
  rw [← (hanswer w).1] at hamong
  have hprimed : (w.move m).Primed := (sound.move h.isHeld m).primed
    (isHeld_of_clones (clones_pos_of_keepers h.clones (hkeepers w))) (tidy_play tidy [m]) hamong
  refine ⟨⟨hnext.runReady hprimed, ?_, hprimed.ready_runReady⟩, ?_⟩
  · rw [hkeepers, hkeepers, h.keepers]
  · rw [(hanswer w).2, (hanswer w').2, hreply]

/-- A poll of a teardown does the same in both hubs and gets the same reply. -/
theorem pollTeardown (h : InStep named w w') (sound' : w'.Sound) (tidy' : w'.outline.Tidy) (i : Nat)
    (wish : List Key) :
    CatchesUp named (w.pollTeardown i wish).1 (w'.pollTeardown i wish).1 ∧
      (w'.pollTeardown i wish).2 = (w.pollTeardown i wish).2 := by
  have hteardowns := h.teardowns_eq
  unfold Hub.pollTeardown
  rw [hteardowns]
  split
  · rename_i scope ht
    have hscope : scope = .all := sound'.scope _ (hteardowns ▸ List.mem_of_getElem? ht)
    subst hscope
    obtain ⟨hrun, hparts, hdraining⟩ := h.beginTeardown h.idle h.inline h.queue sound' tidy' wish
    have hkeepers := keepers_beginTeardown w .all wish
    have hkeepers' := (keepers_beginTeardown w' .all wish).trans h.keepers
    dsimp only
    rw [hparts]
    exact CatchesUp.concludeTeardown hrun hdraining.primed (hkeepers'.trans hkeepers.symm)
      (clones_pos_of_keepers h.clones hkeepers) i .all _
  · rename_i scope parts ht
    have hlinks : ∀ hd link, .closing hd link ∈ parts →
        link.id.Within (withoutJobs named).keys := fun _ link _ => link.id.within_true
    obtain ⟨halong, hparts⟩ := h.start.awaitParts hlinks
    have hidle' := (halong.same_jobs fun e => e).2.2.trans (h.ready.trans h.idle)
    have hrun : Abreast named (w.awaitParts parts).1 (w'.awaitParts parts).1.runReady.1 := by
      rw [runReady_of_idle hidle']
      exact h.later halong
    have htidy : (w'.awaitParts parts).1.outline.Tidy := by
      rw [outline_awaitParts]
      exact tidy'
    have hkeepers := keepers_awaitParts w parts
    have hkeepers' := (keepers_awaitParts w' parts).trans h.keepers
    dsimp only
    rw [hparts]
    exact CatchesUp.concludeTeardown hrun (.of_idle htidy hidle') (hkeepers'.trans hkeepers.symm)
      (clones_pos_of_keepers h.clones hkeepers) i scope _
  all_goals exact ⟨.of_still h.idle h.toAbreast h.keepers, rfl⟩

/-- Who holds the hubs may change, as long as a caller does. -/
theorem aside (h : InStep named w w') {n : Nat} (hn : 0 < n) (ts : List Teardown) :
    CatchesUp named { w with clones := n, teardowns := ts }
      { w' with clones := n, teardowns := ts } := by
  refine .of_still h.idle ?_ rfl
  have hleft : Abreast named w { w with clones := n, teardowns := ts } :=
    .aside h.clones hn ts w.journal
  have hright : Abreast named w' { w' with clones := n, teardowns := ts } :=
    .aside (h.clones_eq ▸ h.clones) hn ts w'.journal
  exact hleft.symm.trans (h.toAbreast.trans hright)

theorem addTeardown (h : InStep named w w') :
    CatchesUp named (w.addTeardown .all) (w'.addTeardown .all) := by
  have hadd : w'.addTeardown .all =
      { w' with clones := w.clones, teardowns := w.teardowns ++ [⟨.all, .idle⟩] } := by
    rw [Hub.addTeardown, ← h.clones_eq, h.teardowns_eq]
  rw [hadd]
  exact h.aside h.clones _

theorem addClone (h : InStep named w w') : CatchesUp named w.addClone w'.addClone := by
  have hadd : w'.addClone = { w' with clones := w.clones + 1, teardowns := w.teardowns } := by
    rw [Hub.addClone, h.clones_eq, ← h.teardowns_eq]
  rw [hadd]
  exact h.aside (Nat.succ_pos _) _

theorem dropTeardown (h : InStep named w w') (i : Nat) :
    CatchesUp named (w.dropTeardown i) (w'.dropTeardown i) := by
  have hdropped : ∀ (u : Hub) (t : Teardown), 0 < u.clones → (if t.holds then
      (u.setTeardown i t.scope .dropped).noteIfAbandoned else u.setTeardown i t.scope .dropped) =
        u.setTeardown i t.scope .dropped := fun u t hu => by
    rw [noteIfAbandoned_of_clones (w := u.setTeardown i t.scope .dropped) hu, ite_self]
  unfold Hub.dropTeardown
  rw [h.teardowns_eq]
  split
  · exact .of_still h.idle h.toAbreast h.keepers
  · rename_i t ht
    have hset : w'.setTeardown i t.scope .dropped =
        { w' with clones := w.clones, teardowns := w.teardowns.set i ⟨t.scope, .dropped⟩ } := by
      rw [setTeardown, ← h.clones_eq, h.teardowns_eq]
    dsimp only
    rw [hdropped w t h.clones, hdropped w' t (h.clones_eq ▸ h.clones), hset]
    exact h.aside h.clones _

/-- A move gets the same reply from both hubs, and once what is ready was run nobody can tell them
apart. -/
theorem move (h : InStep named w w') (sound : w.Sound) (sound' : w'.Sound) (tidy : w.outline.Tidy)
    (tidy' : w'.outline.Tidy) {m : Move} (stays : m ≠ .dropClone) :
    CatchesUp named (w.move m) (w'.move m) ∧ w'.reply m = w.reply m := by
  have hnone : w.clones ≠ 0 := Nat.pos_iff_ne_zero.mp h.clones
  have hnone' : w'.clones ≠ 0 := h.clones_eq ▸ hnone
  have hasked : ∀ {u : Hub} (f : Hub → Hub), u.clones ≠ 0 → u.asked f = f u := fun f hu => if_neg hu
  cases m with
  | acquire k => exact h.call (n := 0) sound tidy' (Or.inl rfl)
  | release k => exact h.call (n := 0) sound tidy' (Or.inr (Or.inl rfl))
  | poll k n => exact h.call sound tidy' (Or.inr (Or.inr (Or.inl rfl)))
  | park k n => exact h.call sound tidy' (Or.inr (Or.inr (Or.inr (Or.inl rfl))))
  | drop k n => exact h.call sound tidy' (Or.inr (Or.inr (Or.inr (Or.inr rfl))))
  | tearDown =>
    rw [Hub.move, Hub.move, hasked _ hnone, hasked _ hnone', reply, reply, if_neg hnone, if_neg hnone',
      h.teardowns_eq]
    exact ⟨h.addTeardown, rfl⟩
  | pollTeardown i wish => exact (h.pollTeardown sound' tidy' i wish).imp_right (congrArg Reply.torn)
  | dropTeardown i => exact ⟨h.dropTeardown i, rfl⟩
  | runJob id => exact (h.runJob sound id).imp_right (congrArg Reply.ran)
  | abortJob id =>
    refine ⟨.of_still ?_ (h.toAbreast.afterWork id none) h.keepers, rfl⟩
    change w.ready.filter _ = []
    rw [h.idle]
    rfl
  | answerMaking id failure => exact h.answer sound tidy (Or.inl ⟨id, failure, rfl⟩)
  | answerClosing id failure => exact h.answer sound tidy (Or.inr ⟨id, failure, rfl⟩)
  | clone =>
    rw [Hub.move, Hub.move, hasked _ hnone, hasked _ hnone']
    exact ⟨h.addClone, rfl⟩
  | dropClone => contradiction

/-- After a turn the hubs are in step again. -/
theorem turn (h : InStep named w w') (sound : w.Sound) (sound' : w'.Sound) (tidy : w.outline.Tidy)
    (tidy' : w'.outline.Tidy) {m : Move} (stays : m ≠ .dropClone) :
    InStep named (w.turn m) (w'.turn m) ∧ w'.reply m = w.reply m := by
  obtain ⟨⟨habreast, hkeepers, hidle⟩, hreply⟩ := h.move sound sound' tidy tidy' stays
  refine ⟨⟨habreast, ?_, ?_, hidle, ?_, ?_⟩, hreply⟩
  · rw [keepers_turn, keepers_turn, hkeepers]
  · exact clones_pos_of_keepers (clones_move h.clones stays) (keepers_turn w m)
  · rw [turn_eq_play, dispatch_play tidy, h.inline]
  · rw [turn_eq_play, dispatch_play tidy', h.queue]

/-- Hubs in step stay so, and give the same replies. -/
theorem turns (h : InStep named w w') (sound : w.Sound) (sound' : w'.Sound) (tidy : w.outline.Tidy)
    (tidy' : w'.outline.Tidy) {ms : List Move} (stays : .dropClone ∉ ms) :
    InStep named (w.turns ms) (w'.turns ms) ∧ w'.turnReplies ms = w.turnReplies ms := by
  induction ms generalizing w w' with
  | nil => exact ⟨h, rfl⟩
  | cons m ms ih =>
    have hm : m ≠ .dropClone := fun e => stays (e ▸ List.mem_cons_self ..)
    have hms : .dropClone ∉ ms := fun hm => stays (List.mem_cons_of_mem _ hm)
    obtain ⟨hnext, hreply⟩ := h.turn sound sound' tidy tidy' hm
    have hsound : (w.turn m).Sound := by
      rw [turn_eq_play]
      exact sound.play (turn_eq_play w m ▸ hnext.isHeld)
    have hsound' : (w'.turn m).Sound := by
      rw [turn_eq_play]
      exact sound'.play (turn_eq_play w' m ▸ hnext.held.trans hnext.isHeld)
    have htidy : (w.turn m).outline.Tidy := by
      rw [turn_eq_play]
      exact tidy_play tidy _
    have htidy' : (w'.turn m).outline.Tidy := by
      rw [turn_eq_play]
      exact tidy_play tidy' _
    obtain ⟨hall, hreplies⟩ := ih hnext hsound hsound' htidy htidy' hms
    refine ⟨hall, ?_⟩
    rw [turnReplies, turnReplies, hreply, hreplies]

end InStep

/-! ## From the settings -/

/-- Each link was asked to close as often in both hubs. -/
theorem Matches.closings (h : Matches named w w') (id : LinkId) :
    w'.outline.closings id = w.outline.closings id := by
  have hcount : ∀ es : List Event,
      es.count (.close id) = (es.map Event.nameless).count (.close id) := by
    intro es
    rw [List.count_eq_countP, List.count_eq_countP, List.countP_map]
    refine List.countP_congr fun e _ => ?_
    cases e <;> simp [Event.nameless]
  change w'.events.count _ = w.events.count _
  rw [hcount, hcount w.events]
  exact h.events.count_eq _

/-- Each link was requested as often in both hubs. -/
theorem Matches.requests (h : Matches named w w') (id : LinkId) :
    (w'.outline.requests id).length = (w.outline.requests id).length := by
  have hcount : ∀ es : List Event, (es.reverse.filterMap (Event.request? id)).length =
      (es.map Event.nameless).countP fun e => (e.request? id).isSome := by
    intro es
    rw [List.length_filterMap_eq_countP, List.countP_reverse, List.countP_map]
    refine List.countP_congr fun e _ => ?_
    cases e with
    | create link r =>
      simp only [Function.comp_apply, Event.nameless, Event.request?]
      split <;> rfl
    | close | wake | refund => rfl
  change (w'.events.reverse.filterMap _).length = (w.events.reverse.filterMap _).length
  rw [hcount, hcount w.events]
  exact h.events.countP_eq _

section Build

variable {settings : Settings} {seed seed' : UInt64} {ambient ambient' : Option Dispatch}
  {w₀ w₀' : Hub}

theorem build_eq {d : Dispatch}
    (built : { settings with dispatch := some d }.build seed ambient = .ok w) :
    ∃ provider, settings.provider = some provider ∧ w =
      { provider := provider
        dispatch := d
        node := settings.managementNode
        namer := .ofSeed seed settings.linkNameSuffix } := by
  unfold Settings.build at built
  split at built
  · contradiction
  · contradiction
  · contradiction
  · rename_i provider d' _ hprovider hdispatch
    obtain rfl : d = d' := Option.some.inj hdispatch
    exact ⟨provider, hprovider, (Except.ok.inj built).symm⟩

/-- Hubs of the same settings, but for what becomes of new jobs, are in step when they are made. -/
theorem inStep_build (built : { settings with dispatch := some .inline }.build seed ambient = .ok w₀)
    (built' : { settings with dispatch := some .queue }.build seed' ambient' = .ok w₀') :
    InStep (seed' = seed) w₀ w₀' := by
  obtain ⟨provider, hprovider, rfl⟩ := build_eq built
  obtain ⟨provider', hprovider', rfl⟩ := build_eq built'
  obtain rfl := Option.some.inj (hprovider.symm.trans hprovider')
  refine ⟨⟨⟨fun _ => rfl, rfl, rfl, rfl, rfl, rfl, rfl, .refl _, ?_, fun _ => .refl _⟩, rfl, rfl⟩,
    rfl, Nat.one_pos, rfl, rfl, rfl⟩
  rintro rfl
  rfl

/-- Whether new jobs are run at once or after each move, callers who hold the hub cannot tell: after
each turn the keys, handles, tickets, teardowns and counters are the same, all replies were the same,
and each link was requested and asked to close as often. Links have the same names, too, if these come
from the same seed. -/
theorem inStep_turns (built : { settings with dispatch := some .inline }.build seed ambient = .ok w₀)
    (built' : { settings with dispatch := some .queue }.build seed' ambient' = .ok w₀')
    {ms : List Move} (stays : .dropClone ∉ ms) :
    InStep (seed' = seed) (w₀.turns ms) (w₀'.turns ms) ∧
    w₀'.turnReplies ms = w₀.turnReplies ms ∧
    ∀ id, (w₀'.turns ms).outline.closings id = (w₀.turns ms).outline.closings id ∧
      ((w₀'.turns ms).outline.requests id).length = ((w₀.turns ms).outline.requests id).length := by
  obtain ⟨hstep, hreplies⟩ := (inStep_build built built').turns (sound_build built)
    (sound_build built') (tidy_build built) (tidy_build built') stays
  exact ⟨hstep, hreplies, fun id => ⟨hstep.closings id, hstep.requests id⟩⟩

/-- Each key has to wait for its first link, and gets the next one at once. -/
def slowFirst : Settings :=
  { provider := some fun _ i => if i = 0 then { making := .shut } else {} }

/-- The hub with these settings. -/
def slowHub (d : Dispatch) : Hub :=
  { provider := fun _ i => if i = 0 then { making := .shut } else {}
    dispatch := d
    node := slowFirst.managementNode
    namer := .ofSeed 0 slowFirst.linkNameSuffix }

theorem build_slowHub (d : Dispatch) :
    { slowFirst with dispatch := some d }.build 0 none = .ok (slowHub d) := rfl

/-- Two keys wait for their links when a teardown begins, so both get new ones in the middle of it. -/
def tearWhileSlow : List Move :=
  [.acquire sampleKey, .acquire ⟨"b", none⟩, .tearDown, .pollTeardown 0 [⟨"b", none⟩],
    .answerMaking (.made sampleKey 0) none, .poll sampleKey 0]

/-- The new link was granted, and the old one was asked to close, whenever the jobs were run. -/
theorem inStep_turns_tearWhileSlow : Move.dropClone ∉ tearWhileSlow ∧
    InStep True ((slowHub .inline).turns tearWhileSlow) ((slowHub .queue).turns tearWhileSlow) ∧
    ((slowHub .inline).turns tearWhileSlow).phase ⟨sampleKey, 1⟩ = .live ⟨.made sampleKey 1, "a#1"⟩ 1 ∧
    ((slowHub .queue).turns tearWhileSlow).outline.closings (.made sampleKey 0) = 1 := by
  have hstays : Move.dropClone ∉ tearWhileSlow := by decide
  obtain ⟨hstep, -, -⟩ := inStep_turns (build_slowHub .inline) (build_slowHub .queue) hstays
  rw [eq_self] at hstep
  exact ⟨hstays, hstep, by decide, by decide⟩

end Build

end Hub

end SharedLinks
