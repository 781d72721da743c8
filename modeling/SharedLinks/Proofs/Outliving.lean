import SharedLinks.Proofs.Drains

/-!
# Tickets outlive the hub

Once the last caller has let go of a hub, whatever is under way goes on as if callers still held it:
tickets get the same outcomes and wake the same polls, teardowns end alike, and the same links are
created and closed. `Hub.Outlives` relates a hub that callers hold to one that they have let go of. The
two differ in the places of handles, at most, and only once no teardown holds the second one either;
nothing that needs no caller looks there.
-/

namespace SharedLinks

/-- The move needs no caller who holds the hub. -/
def Move.isFree : Move → Bool
  | .poll _ _ | .park _ _ | .drop _ _ | .pollTeardown _ _ | .dropTeardown _ | .runJob _ | .abortJob _
  | .answerMaking _ _ | .answerClosing _ _ => true
  | .acquire _ | .release _ | .tearDown | .clone | .dropClone => false

namespace Hub

/-- The second hub is like the first, but no caller holds it. As long as a teardown holds it, the two
agree on the places of handles, too. -/
structure Outlives (w w' : Hub) : Prop where
  clones : 0 < w.clones
  gone : w'.clones = 0
  shelf : ∀ k, (w.shelf k).Like (w'.isHeld = true) (w'.shelf k)
  table : w'.isHeld = true → w'.shelves.keys = w.shelves.keys
  provider : w'.provider = w.provider
  dispatch : w'.dispatch = w.dispatch
  node : w'.node = w.node
  namer : w'.namer = w.namer
  loose : w'.loose = w.loose
  teardowns : w'.teardowns = w.teardowns
  jobs : w'.jobs = w.jobs
  ready : w'.ready = w.ready
  counters : w'.counters = w.counters
  events : w'.events = w.events

variable {w w' u u' : Hub}

/-- Two hubs go alongside under all keys, and in the places of handles if the second is held. -/
def everywhere (held : Prop) : Accord :=
  { keys := fun _ => True, places := held, asks := True, takes := True, names := True }

/-- A hub is not held for a teardown that was dropped. -/
theorem isHeld_of_setTeardown {i : Nat} {scope : Scope}
    (h : (w.setTeardown i scope .dropped).isHeld = true) : w.isHeld = true := by
  rw [isHeld, Bool.or_eq_true, List.any_eq_true] at h ⊢
  rcases h with hcaller | ⟨t, hm, hh⟩
  · exact Or.inl hcaller
  · rcases List.mem_or_eq_of_mem_set hm with hm | rfl
    · exact Or.inr ⟨t, hm, hh⟩
    · contradiction

namespace Outlives

theorem held (h : Outlives w w') : w.isHeld = true := isHeld_of_clones h.clones

theorem start (h : Outlives w w') : Alongside (everywhere (w'.isHeld = true)) w w' w w' :=
  .start (fun k _ => h.shelf k) (fun k _ => congrFun h.provider k) h.node
    (fun held => by rw [held, h.held]) fun _ => h.namer

/-- What goes alongside from there stays so. -/
theorem later (h : Outlives w w') (along : Alongside (everywhere (w'.isHeld = true)) w w' u u') :
    Outlives u u' := by
  have hnamer := along.names trivial
  have hshelf := along.shelf
  have htable := along.table
  obtain ⟨g, g', hg, hg', like⟩ := along.growth
  have hexact := like.exact fun _ => trivial
  have hheld := hg'.isHeld
  refine ⟨?_, ?_, fun k => ?_, fun held => ?_, ?_, ?_, ?_, hnamer, ?_, ?_, ?_, ?_, ?_, ?_⟩
  · rw [hg.clones]
    exact h.clones
  · rw [hg'.clones, h.gone]
  · rw [hheld]
    exact hshelf k trivial
  · rw [hheld] at held
    exact htable held (h.table held)
  · rw [hg'.provider, h.provider, hg.provider]
  · rw [hg'.dispatch, h.dispatch, hg.dispatch]
  · rw [hg'.node, h.node, hg.node]
  · rw [hg'.loose, h.loose, hg.loose]
  · rw [hg'.teardowns, h.teardowns, hg.teardowns]
  · rw [hg'.jobs, h.jobs, like.jobs, hg.jobs]
  · rw [hg'.ready, h.ready, like.ready, hg.ready]
  · refine Counters.ext_get fun c => ?_
    rw [hg'.counters, h.counters, like.counts, hg.counters]
  · rw [hg'.events, h.events, hexact, hg.events]

theorem tail (h : Outlives w w') : Tail (everywhere (w'.isHeld = true)) w w'
    (Alongside (everywhere (w'.isHeld = true)) w w') :=
  Alongside.tail trivial h.dispatch

/-! ## Jobs and answers -/

theorem withJobs (h : Outlives w w') {jobs jobs' : List Job} {ready ready' : List JobId}
    (hj : jobs' = jobs) (hr : ready' = ready) :
    Outlives { w with jobs := jobs, ready := ready } { w' with jobs := jobs', ready := ready' } :=
  ⟨h.clones, h.gone, h.shelf, h.table, h.provider, h.dispatch, h.node, h.namer, h.loose, h.teardowns,
    hj, hr, h.counters, h.events⟩

theorem unready (h : Outlives w w') (id : JobId) : Outlives (w.unready id) (w'.unready id) :=
  h.withJobs h.jobs (by rw [h.ready])

theorem removeJob (h : Outlives w w') (id : JobId) : Outlives (w.removeJob id) (w'.removeJob id) :=
  h.withJobs (by rw [h.jobs]) (by rw [h.ready])

theorem afterWork (h : Outlives w w') (id : JobId) (left : Option Stage) :
    Outlives (w.afterWork id left).1 (w'.afterWork id left).1 ∧
      (w'.afterWork id left).2 = (w.afterWork id left).2 := by
  cases left with
  | none => exact ⟨h.removeJob id, rfl⟩
  | some stage => exact ⟨h.withJobs (by rw [h.jobs]) h.ready, rfl⟩

theorem runJob (h : Outlives w w') (sound : w.Sound) (id : JobId) :
    Outlives (w.runJob id).1 (w'.runJob id).1 ∧ (w'.runJob id).2 = (w.runJob id).2 := by
  have hjob : w'.job? id = w.job? id := by rw [job?, h.jobs, job?]
  have hshadow := sound.shadow h.held
  cases hfound : w.job? id with
  | none =>
    rw [runJob_of_none hfound, runJob_of_none (hjob.trans hfound)]
    exact ⟨h, rfl⟩
  | some j =>
    obtain ⟨along, hleft⟩ := (h.unready id).start.work (hshadow.labelled.worksWithin
      (List.mem_of_find?_eq_some hfound) trivial (hshadow.contained _) id)
    rw [runJob_of_some hfound, runJob_of_some (hjob.trans hfound), hleft]
    exact ((h.unready id).later along).afterWork id _

theorem rouse (h : Outlives w w') (id : LinkId) (stage : Stage) :
    Outlives (w.rouse id stage) (w'.rouse id stage) :=
  h.withJobs h.jobs (by rw [h.jobs, h.ready])

/-- An answer of the provider comes to both hubs alike. -/
theorem answerAt (h : Outlives w w') (id : LinkId) (gate : Creation → Gate) (f : Creation → Creation)
    (stage : Stage) : Outlives (w.answerAt id gate f stage).1 (w'.answerAt id gate f stage).1 ∧
      (w'.answerAt id gate f stage).2 = (w.answerAt id gate f stage).2 := by
  have hid := id.within_true
  unfold Hub.answerAt
  rw [h.start.creation? hid]
  cases w.creation? id with
  | none => exact ⟨h, rfl⟩
  | some c =>
    dsimp only
    cases gate c with
    | opened failure => exact ⟨h, rfl⟩
    | shut => exact ⟨(h.later (h.start.onCreation hid f)).rouse id stage, rfl⟩

theorem answer (h : Outlives w w') {m : Move}
    (hm : (∃ id failure, m = .answerMaking id failure) ∨ ∃ id failure, m = .answerClosing id failure) :
    Outlives (w.move m) (w'.move m) ∧ w'.reply m = w.reply m := by
  obtain ⟨id, gate, f, stage, hanswer⟩ := exists_answerAt hm
  obtain ⟨hnext, hreply⟩ := h.answerAt id gate f stage
  rw [(hanswer w).1, (hanswer w').1, (hanswer w).2, (hanswer w').2, hreply]
  exact ⟨hnext, rfl⟩

/-! ## Teardowns -/

/-- A teardown goes on to another state, in which it does not hold the hub unless it did before. -/
theorem setTeardown (h : Outlives w w') {i : Nat} {scope : Scope} {state : TeardownState}
    (holds : (w'.setTeardown i scope state).isHeld = true → w'.isHeld = true) :
    Outlives (w.setTeardown i scope state) (w'.setTeardown i scope state) :=
  ⟨h.clones, h.gone, fun k => (h.shelf k).mono holds, fun held => h.table (holds held), h.provider,
    h.dispatch, h.node, h.namer, h.loose, by rw [Hub.setTeardown, Hub.setTeardown, h.teardowns],
    h.jobs, h.ready, h.counters, h.events⟩

theorem notes (h : Outlives w w') (n : Notice) : Outlives (w.note n) (w'.note n) :=
  ⟨h.clones, h.gone, h.shelf, h.table, h.provider, h.dispatch, h.node, h.namer, h.loose, h.teardowns,
    h.jobs, h.ready, h.counters, h.events⟩

/-- The journals may differ. -/
theorem noteIfAbandoned (h : Outlives w w') : Outlives w.noteIfAbandoned w'.noteIfAbandoned := by
  have hnote : ∀ n, Outlives w (w'.note n) := fun n =>
    ⟨h.clones, h.gone, h.shelf, h.table, h.provider, h.dispatch, h.node, h.namer, h.loose,
      h.teardowns, h.jobs, h.ready, h.counters, h.events⟩
  rw [Hub.noteIfAbandoned, h.held, Bool.true_or, if_pos rfl]
  unfold Hub.noteIfAbandoned
  split
  · exact h
  · exact hnote _

theorem concludeTeardown (h : Outlives w w') (held : w'.isHeld = true) (i : Nat) (scope : Scope)
    (parts : List Part) :
    Outlives (w.concludeTeardown i scope parts).1 (w'.concludeTeardown i scope parts).1 ∧
      (w'.concludeTeardown i scope parts).2 = (w.concludeTeardown i scope parts).2 := by
  unfold Hub.concludeTeardown
  split
  · exact ⟨h.setTeardown fun _ => held, rfl⟩
  · unfold Hub.teardownResult
    cases parts.filterMap Part.failure? with
    | nil => exact ⟨(h.setTeardown fun _ => held).noteIfAbandoned, rfl⟩
    | cons failure failures =>
      cases scope with
      | one _ => exact ⟨(h.setTeardown fun _ => held).noteIfAbandoned, rfl⟩
      | all => exact ⟨((h.notes _).setTeardown fun _ => held).noteIfAbandoned, rfl⟩

theorem pollTeardown (h : Outlives w w') (sound : w.Sound) (i : Nat) (wish : List Key) :
    Outlives (w.pollTeardown i wish).1 (w'.pollTeardown i wish).1 ∧
      (w'.pollTeardown i wish).2 = (w.pollTeardown i wish).2 := by
  have hholds : ∀ t, w.teardowns[i]? = some t → t.holds = true → w'.isHeld = true := by
    intro t ht hh
    rw [isHeld, h.teardowns, Bool.or_eq_true, List.any_eq_true]
    exact Or.inr ⟨t, List.mem_of_getElem? ht, hh⟩
  unfold Hub.pollTeardown
  rw [h.teardowns]
  split
  · rename_i scope ht
    have hheld := hholds _ ht rfl
    have hscope : scope = .all := sound.scope _ (List.mem_of_getElem? ht)
    subst hscope
    obtain ⟨hout, -⟩ := withdrawn_unlinkAll sound.orderly wish
      (.tearingDown (w.unlinkAll wish).2.length)
    obtain ⟨halong, hhandles⟩ := h.start.unlinkAll hheld (fun _ => trivial) (h.table hheld) wish
    obtain ⟨hclosed, hparts⟩ := (halong.note (.tearingDown (w.unlinkAll wish).2.length)).forceCloseEach
      h.dispatch hheld trivial trivial (fun _ _ => trivial) h.held sound.orderly hout
    have hbegin : w'.beginTeardown .all wish =
        ((w'.unlinkAll wish).1.note (.tearingDown (w.unlinkAll wish).2.length)).forceCloseEach
          (w.unlinkAll wish).2 := by
      rw [← hhandles]
      rfl
    have hlater := h.later hclosed
    have hheld' : (((w'.unlinkAll wish).1.note
        (.tearingDown (w.unlinkAll wish).2.length)).forceCloseEach
          (w.unlinkAll wish).2).1.isHeld = true :=
      (hclosed.isHeld hheld).trans hlater.held
    dsimp only
    rw [hbegin, hparts]
    exact hlater.concludeTeardown hheld' i .all _
  · rename_i scope parts ht
    have hheld := hholds _ ht rfl
    have hlinks : ∀ hd link, .closing hd link ∈ parts →
        link.id.Within (everywhere (w'.isHeld = true)).keys := fun _ link _ => link.id.within_true
    obtain ⟨halong, hparts⟩ := h.start.awaitParts hlinks
    have hlater := h.later halong
    dsimp only
    rw [hparts]
    exact hlater.concludeTeardown ((halong.isHeld hheld).trans hlater.held) i scope _
  all_goals exact ⟨h, rfl⟩

theorem dropTeardown (h : Outlives w w') (i : Nat) :
    Outlives (w.dropTeardown i) (w'.dropTeardown i) := by
  unfold Hub.dropTeardown
  rw [h.teardowns]
  split
  · exact h
  · rename_i t ht
    have hset : Outlives (w.setTeardown i t.scope .dropped) (w'.setTeardown i t.scope .dropped) :=
      h.setTeardown isHeld_of_setTeardown
    dsimp only
    split
    · exact hset.noteIfAbandoned
    · exact hset

/-! ## Moves -/

/-- A move that needs no caller gets the same reply from both hubs, and the second still outlives the
first. -/
theorem move (h : Outlives w w') (sound : w.Sound) {m : Move} (free : m.isFree = true) :
    Outlives (w.move m) (w'.move m) ∧ w'.reply m = w.reply m := by
  have hcontained : ∀ k, (everywhere (w'.isHeld = true)).keys k → w.Contained k := fun k _ =>
    (sound.shadow h.held).contained k
  have halong : Alongside (everywhere (w'.isHeld = true)) w w' (w.move m) (w'.move m) ∧
      w'.reply m = w.reply m → Outlives (w.move m) (w'.move m) ∧ w'.reply m = w.reply m :=
    fun ⟨along, reply⟩ => ⟨h.later along, reply⟩
  cases m with
  | poll k n => exact halong (h.tail.move_ticket h.start hcontained trivial n (Or.inl rfl))
  | park k n => exact halong (h.tail.move_ticket h.start hcontained trivial n (Or.inr (Or.inl rfl)))
  | drop k n => exact halong (h.tail.move_ticket h.start hcontained trivial n (Or.inr (Or.inr rfl)))
  | pollTeardown i wish =>
    obtain ⟨hnext, hreply⟩ := h.pollTeardown sound i wish
    exact ⟨hnext, congrArg Reply.torn hreply⟩
  | dropTeardown i => exact ⟨h.dropTeardown i, rfl⟩
  | runJob id =>
    obtain ⟨hnext, hreply⟩ := h.runJob sound id
    exact ⟨hnext, congrArg Reply.ran hreply⟩
  | abortJob id => exact ⟨h.removeJob id, rfl⟩
  | answerMaking id failure => exact h.answer (Or.inl ⟨id, failure, rfl⟩)
  | answerClosing id failure => exact h.answer (Or.inr ⟨id, failure, rfl⟩)
  | acquire | release | tearDown | clone | dropClone => contradiction

/-- So does any sequence of such moves. -/
theorem play (h : Outlives w w') (sound : w.Sound) {ms : List Move}
    (free : ∀ m ∈ ms, m.isFree = true) :
    Outlives (w.play ms) (w'.play ms) ∧ w'.replies ms = w.replies ms := by
  induction ms generalizing w w' with
  | nil => exact ⟨h, rfl⟩
  | cons m ms ih =>
    obtain ⟨hnext, hreply⟩ := h.move sound (free m (List.mem_cons_self ..))
    obtain ⟨hall, hreplies⟩ := ih hnext (sound.move h.held m) fun m hm =>
      free m (List.mem_cons_of_mem _ hm)
    refine ⟨hall, ?_⟩
    rw [replies, replies, hreply, hreplies]

end Outlives

end Hub

end SharedLinks
