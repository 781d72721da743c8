import SharedLinks.Proofs.Abreast

/-!
# Work on different keys commutes

A job of one key and the force closing of a handle of another may come in either order
(`commute_runJob`), and so may the force closing and all jobs that are ready
(`Draining.commute_runJobs`). What was seen and counted of the two keys is then the same, seen in
another order.

So it does not matter whether the jobs that a teardown takes up for many keys are run in between or
after all of it: `Abreast.forceClose` follows one handle, with the jobs of the others still to be run
on the one side, `Abreast.forceCloseEach` all of them, and `Abreast.beginTeardown` the first poll.
-/

namespace SharedLinks

namespace Hub

variable {w w' : Hub} {hd : HandleId} {id : JobId} {j : Job}

/-- A job works under its key alone, and asks for no links. -/
def jobAlone (k : Key) : Accord :=
  { keys := (· = k), places := True, asks := False, takes := False, names := False }

theorem isHeld_of_fixtures (h : w'.fixtures = w.fixtures) : w'.isHeld = w.isHeld := by
  have hkeepers : w'.keepers = w.keepers := congrArg (fun f => f.2.2.2.1) h
  rw [isHeld, isHeld, (Prod.mk.inj hkeepers).1, (Prod.mk.inj hkeepers).2]

/-- Two changes under different keys, made in either order, come to the same. Here `u` and `x` are the
hub `w` after the one and after the other, `z` and `y` are these two after the change that they lack. -/
theorem Matches.square (named : Prop) {a b : Accord} {f f' g g' : Growth} {u x y z : Hub}
    (left : Grows a f w u) (right : Grows b g w x) (up : Grows b g' u y) (across : Grows a f' x z)
    (apart : ∀ k, a.keys k → ¬ b.keys k)
    (mine : ∀ k, a.keys k → z.shelf k = u.shelf k) (yours : ∀ k, b.keys k → y.shelf k = x.shelf k)
    (known : ∀ k, a.keys k ∨ b.keys k → k ∈ w.shelves.keys)
    (events : f'.events.map Event.nameless = f.events.map Event.nameless ∧
      g'.events.map Event.nameless = g.events.map Event.nameless)
    (names : named → z.namer = y.namer ∧ f'.events = f.events ∧ g'.events = g.events)
    (counts : f'.counts = f.counts ∧ g'.counts = g.counts) : Matches named y z := by
  have hfixtures : z.fixtures = y.fixtures := by
    rw [across.fixtures, right.fixtures, up.fixtures, left.fixtures]
  have hu : u.shelves.keys = w.shelves.keys := left.table fun k hk => known k (Or.inl hk)
  have hx : x.shelves.keys = w.shelves.keys := right.table fun k hk => known k (Or.inr hk)
  have hevents : (z.events.map Event.nameless).Perm (y.events.map Event.nameless) := by
    rw [across.events, right.events, up.events, left.events]
    simp only [List.map_append]
    rw [events.1, events.2]
    exact List.perm_append_comm_assoc _ _ _
  have hexact : named → z.events.Perm y.events := fun n => by
    rw [across.events, right.events, up.events, left.events, (names n).2.1, (names n).2.2]
    exact List.perm_append_comm_assoc _ _ _
  refine ⟨fun k => ?_, ?_, congrArg (fun f => f.1) hfixtures, congrArg (fun f => f.2.2.1) hfixtures,
    isHeld_of_fixtures hfixtures, congrArg (fun f => f.2.2.2.2) hfixtures, ?_, hevents,
    fun n => (names n).1, hexact⟩
  · by_cases ha : a.keys k
    · rw [mine k ha, up.shelf k (apart k ha)]
    · rw [across.shelf k ha]
      by_cases hb : b.keys k
      · exact (yours k hb).symm
      · rw [right.shelf k hb, up.shelf k hb, left.shelf k ha]
  · rw [across.table, hx, up.table, hu]
    · exact fun k hk => hu ▸ known k (Or.inr hk)
    · exact fun k hk => hx ▸ known k (Or.inl hk)
  · refine Counters.ext_get fun c => ?_
    rw [across.counters, right.counters, up.counters, left.counters, counts.1, counts.2,
      UInt64.add_assoc, UInt64.add_assoc, UInt64.add_comm (f.counts c)]

/-- The hub without its jobs. -/
def jobless (w : Hub) : Hub := { w with jobs := [], ready := [] }

theorem Grows.jobless {a : Accord} {g : Growth} (h : Grows a g w w') :
    Grows a { g with jobs := [], ready := [] } w.jobless w'.jobless :=
  ⟨h.fixtures, h.shelf, h.table, h.events, h.within, h.counters, rfl, rfl,
    fun _ hj => absurd hj List.not_mem_nil, h.namer, fun _ => ⟨rfl, rfl⟩⟩

theorem jobless_afterWork (w : Hub) (id : JobId) (left : Option Stage) :
    (w.afterWork id left).1.jobless = w.jobless := by
  cases left <;> rfl

theorem filter_ne_eq_self {ids : List JobId} (h : id ∉ ids) : ids.filter (· ≠ id) = ids := by
  refine List.filter_eq_self.mpr fun id' hm => ?_
  rw [decide_eq_true_iff]
  rintro rfl
  exact h hm

/-- A job is put away alike if there are more jobs and more that is ready. -/
theorem afterWork_append {js : List Job} {ids : List JobId} (hj : w'.jobs = w.jobs ++ js)
    (hr : w'.ready = w.ready ++ ids) (fresh : ∀ j ∈ js, j.id ≠ id) (fresh' : id ∉ ids)
    (left : Option Stage) :
    (w'.afterWork id left).1.jobs = (w.afterWork id left).1.jobs ++ js ∧
      (w'.afterWork id left).1.ready = (w.afterWork id left).1.ready ++ ids := by
  cases left with
  | none =>
    have hjs : js.filter (fun j => j.id ≠ id) = js :=
      List.filter_eq_self.mpr fun j hm => by simpa using fresh j hm
    refine ⟨?_, ?_⟩
    · change w'.jobs.filter (fun j => j.id ≠ id) = w.jobs.filter (fun j => j.id ≠ id) ++ js
      rw [hj, List.filter_append, hjs]
    · change w'.ready.filter (· ≠ id) = w.ready.filter (· ≠ id) ++ ids
      rw [hr, List.filter_append, filter_ne_eq_self fresh']
  | some stage =>
    refine ⟨?_, hr⟩
    change w'.jobs.map _ = w.jobs.map _ ++ js
    rw [hj, List.map_append]
    exact congrArg _ ((List.map_congr_left fun j hm => if_neg (fresh j hm)).trans (List.map_id _))

section Commute

variable (found : w.job? id = some j) (works : w.WorksWithin (· = j.owner.key) j)
  (ne : j.owner.key ≠ hd.key) (fits : w.Fits hd)

include works ne fits

/-- A job works alike before and after a handle of another key is force closed. -/
theorem alongside_work_forceClose (id : JobId) :
    Alongside (jobAlone j.owner.key) (w.unready id) ((w.forceClose hd).1.unready id)
        ((w.unready id).work j).1 (((w.forceClose hd).1.unready id).work j).1 ∧
      (((w.forceClose hd).1.unready id).work j).2 = ((w.unready id).work j).2 := by
  obtain ⟨g, hg⟩ := exists_grows_forceClose fits
  have hstart : Alongside (jobAlone j.owner.key) (w.unready id) ((w.forceClose hd).1.unready id)
      (w.unready id) ((w.forceClose hd).1.unready id) := by
    refine .start (fun k hk => ?_) (fun k _ => congrFun hg.provider k) hg.node (fun _ => hg.isHeld)
      False.elim
    obtain rfl : k = j.owner.key := hk
    have hsame : (w.forceClose hd).1.shelf j.owner.key = w.shelf j.owner.key := hg.shelf _ ne
    change (w.shelf j.owner.key).Like _ ((w.forceClose hd).1.shelf j.owner.key)
    rw [hsame]
    exact .refl _ _
  exact hstart.work (works.unready id)

include found

theorem runJob_forceClose : ((w.forceClose hd).1.runJob id).1 =
    ((((w.forceClose hd).1.unready id).work j).1.afterWork id ((w.unready id).work j).2).1 := by
  obtain ⟨g, hg⟩ := exists_grows_forceClose fits
  have found' : (w.forceClose hd).1.job? id = some j := by
    rw [job?, hg.jobs, List.find?_append, ← job?, found]
    rfl
  rw [runJob_of_some found', (alongside_work_forceClose works ne fits id).2]

/-- A handle is force closed alike before and after a job of another key is run. -/
theorem alongside_forceClose_runJob :
    Alongside (closeAlone hd.key) w (w.runJob id).1 (w.forceClose hd).1
        ((w.runJob id).1.forceClose hd).1 ∧
      ((w.runJob id).1.forceClose hd).2 = (w.forceClose hd).2 := by
  obtain ⟨f, -, hf, -, -⟩ := (alongside_work_forceClose works ne fits id).1.growth
  have hrun : (w.runJob id).1 = (((w.unready id).work j).1.afterWork id
      ((w.unready id).work j).2).1 := by rw [runJob_of_some found]
  obtain ⟨hfixed, hnamed⟩ := afterWork_rest ((w.unready id).work j).1 id ((w.unready id).work j).2
  rw [← hrun] at hfixed hnamed
  have hall : (w.runJob id).1.fixtures = w.fixtures := hfixed.trans hf.fixtures
  have hnamer : (w.runJob id).1.namer = w.namer := hnamed.trans (hf.namer fun e => e)
  have hstart : Alongside (closeAlone hd.key) w (w.runJob id).1 w (w.runJob id).1 := by
    refine .start (fun k hk => ?_) (fun k _ => congrFun (congrArg (·.1) hall) k)
      (congrArg (fun f => f.2.2.1) hall) (fun _ => isHeld_of_fixtures hall) fun _ => hnamer
    obtain rfl : k = hd.key := hk
    have hsame : (w.runJob id).1.shelf hd.key = w.shelf hd.key := by
      rw [hrun, shelf_afterWork]
      exact hf.shelf _ ne.symm
    rw [hsame]
    exact .refl _ _
  have htail := Alongside.tail (a := closeAlone hd.key) trivial (congrArg (·.2.1) hall)
  exact htail.forceClose_fits hstart trivial trivial rfl fits

/-- Whichever comes first, the hubs match but for their jobs. -/
theorem matches_runJob_forceClose (named : Prop) (known : j.owner.key ∈ w.shelves.keys)
    (known' : hd.key ∈ w.shelves.keys) :
    Matches named ((w.runJob id).1.forceClose hd).1.jobless
      ((w.forceClose hd).1.runJob id).1.jobless := by
  obtain ⟨hwork, -⟩ := alongside_work_forceClose works ne fits id
  obtain ⟨hclosed, -⟩ := alongside_forceClose_runJob found works ne fits
  have hmine := hwork.shelf
  have hyours := hclosed.shelf
  have hnames := hclosed.names trivial
  obtain ⟨f, f', hf, hf', like⟩ := hwork.growth
  obtain ⟨g, g', hg, hg', like'⟩ := hclosed.growth
  have hup := hg'.jobless
  rw [runJob_of_some found, jobless_afterWork, ← runJob_of_some found] at hup
  rw [runJob_forceClose found works ne fits, jobless_afterWork]
  refine .square named hf.jobless hg.jobless hup hf'.jobless ?_
    (fun k hk => (hmine k hk).eq trivial) (fun k hk => (hyours k hk).eq trivial) ?_
    ⟨like.events, like'.events⟩
    (fun _ => ⟨(hf'.namer fun e => e).trans hnames.symm, like.exact fun e => e,
      like'.exact fun _ => trivial⟩) ⟨like.counts, like'.counts⟩
  · rintro k rfl
    exact ne
  · rintro k (rfl | rfl)
    · exact known
    · exact known'

/-- Whichever comes first, the hubs have the same jobs. -/
theorem jobs_runJob_forceClose (hm : id ∈ w.ready) (primed : (w.forceClose hd).1.Primed) :
    ((w.forceClose hd).1.runJob id).1.jobs = ((w.runJob id).1.forceClose hd).1.jobs ∧
      ((w.forceClose hd).1.runJob id).1.ready = ((w.runJob id).1.forceClose hd).1.ready := by
  obtain ⟨hwork, -⟩ := alongside_work_forceClose works ne fits id
  obtain ⟨hclosed, -⟩ := alongside_forceClose_runJob found works ne fits
  obtain ⟨⟨hj, hr⟩, hj', hr'⟩ := hwork.same_jobs fun e => e
  obtain ⟨g, g', hg, hg', like⟩ := hclosed.growth
  -- what the handle has taken up is new
  have hdistinct : ((w.forceClose hd).1.jobs.map (·.id)).Nodup := primed.tidy.nodup_jobs
  have hready := primed.distinct
  rw [hg.jobs, List.map_append, List.nodup_append] at hdistinct
  rw [hg.ready, List.nodup_append] at hready
  have hmem : id ∈ w.jobs.map (·.id) := by
    have hid : j.id = id := by simpa using List.find?_some found
    exact hid ▸ List.mem_map_of_mem (List.mem_of_find?_eq_some found)
  have hfresh : ∀ j' ∈ g.jobs, j'.id ≠ id := fun j' hj' e =>
    hdistinct.2.2 id hmem j'.id (List.mem_map_of_mem hj') e.symm
  have hfresh' : id ∉ g.ready := fun h => hready.2.2 id hm id h rfl
  have hjobs : (((w.forceClose hd).1.unready id).work j).1.jobs =
      ((w.unready id).work j).1.jobs ++ g.jobs := by
    rw [hj', hj]
    exact hg.jobs
  have hrest : (((w.forceClose hd).1.unready id).work j).1.ready =
      ((w.unready id).work j).1.ready ++ g.ready := by
    rw [hr', hr]
    change (w.forceClose hd).1.ready.filter (· ≠ id) = w.ready.filter (· ≠ id) ++ g.ready
    rw [hg.ready, List.filter_append, filter_ne_eq_self hfresh']
  obtain ⟨hput, hput'⟩ := afterWork_append hjobs hrest hfresh hfresh' ((w.unready id).work j).2
  rw [← runJob_of_some found, ← runJob_forceClose found works ne fits] at hput hput'
  exact ⟨by rw [hput, hg'.jobs, like.jobs], by rw [hput', hg'.ready, like.ready]⟩

/-- A job and the force closing of a handle of another key may come in either order. -/
theorem commute_runJob (named : Prop) (hm : id ∈ w.ready) (known : j.owner.key ∈ w.shelves.keys)
    (known' : hd.key ∈ w.shelves.keys) (primed : (w.forceClose hd).1.Primed) :
    Abreast named ((w.forceClose hd).1.runJob id).1 ((w.runJob id).1.forceClose hd).1 ∧
      ((w.runJob id).1.forceClose hd).2 = (w.forceClose hd).2 := by
  have hmatches := matches_runJob_forceClose found works ne fits named known known'
  obtain ⟨hjobs, hready⟩ := jobs_runJob_forceClose found works ne fits hm primed
  exact ⟨⟨(hmatches.withJobs _ _ _ _).symm, hjobs.symm, hready.symm⟩,
    (alongside_forceClose_runJob found works ne fits).2⟩

end Commute

/-! ## A teardown under way -/

/-- Some handles are about to be force closed, and all that is ready is of other keys. -/
structure Draining (w : Hub) (hs : List HandleId) : Prop extends Lined w hs where
  primed : w.Primed
  clear : ∀ id ∈ w.ready, ∀ j, w.job? id = some j →
    j.owner.key ∉ hs.map (·.key) ∧ j.owner.key ∈ w.shelves.keys
  rule : w.dispatch = .queue

/-- A job works under its key alone. -/
theorem exists_grows_runJob (found : w.job? id = some j) (works : w.WorksWithin (· = j.owner.key) j) :
    ∃ f, Grows (jobAlone j.owner.key) f w.jobless (w.runJob id).1.jobless := by
  have hstart : Alongside (jobAlone j.owner.key) (w.unready id) (w.unready id) (w.unready id)
      (w.unready id) :=
    .start (fun _ _ => .refl _ _) (fun _ _ => rfl) rfl (fun _ => rfl) False.elim
  obtain ⟨f, -, hf, -, -⟩ := (hstart.work (works.unready id)).1.growth
  rw [runJob_of_some found, jobless_afterWork]
  exact ⟨_, hf.jobless⟩

namespace Draining

variable {hs : List HandleId}

theorem runJob (h : Draining w hs) (hm : id ∈ w.ready) : Draining (w.runJob id).1 hs := by
  obtain ⟨j, found, works⟩ := h.primed.found id hm
  obtain ⟨hnot, hknown⟩ := h.clear id hm j found
  obtain ⟨f, hf⟩ := exists_grows_runJob found works
  have hkeys : (w.runJob id).1.shelves.keys = w.shelves.keys := hf.table (by
    rintro k rfl
    exact hknown)
  have hshelf : ∀ hd ∈ hs, (w.runJob id).1.shelf hd.key = w.shelf hd.key := fun hd hm' =>
    hf.shelf hd.key fun e => hnot (List.mem_map.mpr ⟨hd, hm', e⟩)
  refine ⟨⟨h.nodup, fun hd hm' => (h.fits hd hm').of_shelf (hshelf hd hm'),
    fun hd hm' => hkeys ▸ h.known hd hm'⟩, h.primed.runJob hm, fun id' hm' j' found' => ?_,
    hf.dispatch.trans h.rule⟩
  rw [h.primed.ready_runJob hm, List.mem_filter, decide_eq_true_iff] at hm'
  rw [job?_runJob_ne hm'.2] at found'
  rw [hkeys]
  exact h.clear id' hm'.1 j' found'

end Draining

/-- A handle that is force closed takes up one job or none, for a handle of its own key. -/
theorem exists_jobs_forceClose (fits : w.Fits hd) (rule : w.dispatch = .queue) : ∃ js : List Job,
    (∀ j ∈ js, (w.forceClose hd).1.WorksWithin (· = hd.key) j) ∧
      (w.forceClose hd).1.jobs = w.jobs ++ js ∧
        (w.forceClose hd).1.ready = w.ready ++ js.map (·.id) := by
  let a : Accord := { closeAlone hd.key with takes := False }
  have hstart : Alongside a w w w w :=
    .start (fun _ _ => .refl _ _) (fun _ _ => rfl) rfl (fun _ => rfl) fun _ => rfl
  have htail : Tail a w w fun y _ => ∃ js : List Job, (∀ j ∈ js, y.WorksWithin (· = hd.key) j) ∧
      y.jobs = w.jobs ++ js ∧ y.ready = w.ready ++ js.map (·.id) := by
    refine ⟨fun {u u'} along => ?_, fun {u u' j} along works => ?_⟩
    · obtain ⟨hj, hr⟩ := (along.same_jobs fun e => e).1
      exact ⟨[], by simp, by simpa using hj, by simpa using hr⟩
    · obtain ⟨hj, hr⟩ := (along.same_jobs fun e => e).1
      obtain ⟨g, -, hg, -, -⟩ := along.growth
      rw [spawn_queue (hg.dispatch.trans rule)]
      refine ⟨[j], fun j' hj' => ?_, congrArg (· ++ [j]) hj, congrArg (· ++ [j.id]) hr⟩
      rw [List.mem_singleton.mp hj']
      exact ⟨works.owner, works.link, works.queue⟩
  exact (htail.forceClose_fits hstart trivial trivial rfl fits).1

namespace Draining

variable {hs : List HandleId}

/-- A handle that is force closed leaves nothing ready but what was so before, and a job of its own. -/
theorem forceClose (h : Draining w (hd :: hs)) :
    Draining (w.forceClose hd).1 hs ∧ w.ready ⊆ (w.forceClose hd).1.ready := by
  have fits := h.fits hd (List.mem_cons_self ..)
  have hknown := h.known hd (List.mem_cons_self ..)
  obtain ⟨js, works, hjobs, hready⟩ := exists_jobs_forceClose fits h.rule
  obtain ⟨g, hg⟩ := exists_grows_forceClose fits
  have hkeys : (w.forceClose hd).1.shelves.keys = w.shelves.keys := hg.table (by
    rintro k rfl
    exact hknown)
  obtain ⟨hnot, -⟩ := List.nodup_cons.mp (List.map_cons ▸ h.nodup)
  have htidy : (w.forceClose hd).1.outline.Tidy :=
    (forceCloses_forceClose w hd).chain.tidy h.primed.tidy
  have hdistinct : ((w.forceClose hd).1.jobs.map (·.id)).Nodup := htidy.nodup_jobs
  have hfresh := hdistinct
  rw [hjobs, List.map_append, List.nodup_append] at hfresh
  -- what was ready before is found as before
  have hold : ∀ {id j}, w.job? id = some j → (w.forceClose hd).1.job? id = some j := by
    intro id j found
    rw [job?, hjobs, List.find?_append, ← job?, found]
    rfl
  have hnew : ∀ j ∈ js, (w.forceClose hd).1.job? j.id = some j := fun j hj =>
    job?_of_mem hdistinct (hjobs ▸ List.mem_append_right _ hj)
  refine ⟨⟨h.toLined.forceClose, ⟨htidy, ?_, fun id hm => ?_⟩, fun id hm j found => ?_,
    hg.dispatch.trans h.rule⟩, ?_⟩
  · rw [hready, List.nodup_append]
    refine ⟨h.primed.distinct, hfresh.2.1, fun id hm => hfresh.2.2 id ?_⟩
    obtain ⟨j, found, -⟩ := h.primed.found id hm
    have hid : j.id = id := by simpa using List.find?_some found
    exact hid ▸ List.mem_map_of_mem (List.mem_of_find?_eq_some found)
  · rw [hready, List.mem_append] at hm
    rcases hm with hm | hm
    · obtain ⟨j, found, works⟩ := h.primed.found id hm
      have hne : j.owner.key ≠ hd.key := fun e =>
        (h.clear id hm j found).1 (List.mem_map.mpr ⟨hd, List.mem_cons_self .., e.symm⟩)
      have hphase : (w.forceClose hd).1.phase j.owner = w.phase j.owner := by
        rw [phase_eq, hg.shelf _ hne, phase_eq]
      exact ⟨j, hold found, rfl, works.link, fun hs queue hp => works.queue hs queue (hphase ▸ hp)⟩
    · obtain ⟨j, hj, rfl⟩ := List.mem_map.mp hm
      have hworks := works j hj
      rw [← show j.owner.key = hd.key from hworks.owner] at hworks
      exact ⟨j, hnew j hj, hworks⟩
  · rw [hready, List.mem_append] at hm
    rw [hkeys]
    rcases hm with hm | hm
    · obtain ⟨j', found', -⟩ := h.primed.found id hm
      obtain rfl : j' = j := Option.some.inj ((hold found').symm.trans found)
      obtain ⟨hclear, hin⟩ := h.clear id hm j' found'
      exact ⟨fun hm' => hclear (List.mem_cons_of_mem _ hm'), hin⟩
    · obtain ⟨j', hj', rfl⟩ := List.mem_map.mp hm
      obtain rfl : j' = j := Option.some.inj ((hnew j' hj').symm.trans found)
      rw [show j'.owner.key = hd.key from (works j' hj').owner]
      exact ⟨hnot, hknown⟩
  · rw [hready]
    exact List.subset_append_left _ _

/-- All jobs of other keys and the force closing of a handle may come in either order. -/
theorem commute_runJobs (named : Prop) {ids : List JobId} (h : Draining w (hd :: hs))
    (distinct : ids.Nodup) (ready : ids ⊆ w.ready) :
    Abreast named ((w.forceClose hd).1.runJobs ids).1 ((w.runJobs ids).1.forceClose hd).1 ∧
      ((w.runJobs ids).1.forceClose hd).2 = (w.forceClose hd).2 ∧
        Draining (w.runJobs ids).1 (hd :: hs) := by
  induction ids generalizing w with
  | nil => exact ⟨.refl _ _, rfl, h⟩
  | cons id ids ih =>
    have hm := ready (List.mem_cons_self ..)
    obtain ⟨j, found, works⟩ := h.primed.found id hm
    obtain ⟨hnot, hknown⟩ := h.clear id hm j found
    obtain ⟨hclosed, hkept⟩ := h.forceClose
    have hm' : id :: ids ⊆ (w.forceClose hd).1.ready := fun _ hm => hkept (ready hm)
    -- the first job changes places with the handle, and then the others do
    have hne : j.owner.key ≠ hd.key := fun e =>
      hnot (List.mem_map.mpr ⟨hd, List.mem_cons_self .., e.symm⟩)
    obtain ⟨hone, hpart⟩ := commute_runJob found works hne (h.fits hd (List.mem_cons_self ..)) named hm
      hknown (h.known hd (List.mem_cons_self ..)) hclosed.primed
    obtain ⟨hrest, hparts, hdraining⟩ := ih (h.runJob hm) (List.nodup_cons.mp distinct).2
      (h.primed.subset_runJob distinct ready)
    have hlock := hone.runJobs (hclosed.primed.runJob (hm' (List.mem_cons_self ..)))
      (List.nodup_cons.mp distinct).2 (hclosed.primed.subset_runJob distinct hm')
    exact ⟨hlock.trans hrest, hparts.trans hpart, hdraining⟩

end Draining

theorem runJobs_append (w : Hub) (ids ids' : List JobId) :
    (w.runJobs (ids ++ ids')).1 = ((w.runJobs ids).1.runJobs ids').1 := by
  induction ids generalizing w with
  | nil => rfl
  | cons id ids ih => exact ih (w.runJob id).1

/-- It does not matter whether some of what is ready is run first. -/
theorem Primed.runReady_append (h : w.Primed) {ids ids' : List JobId} (hr : w.ready = ids ++ ids') :
    w.runReady.1 = (w.runJobs ids).1.runReady.1 := by
  have hdistinct := h.distinct
  rw [hr, List.nodup_append] at hdistinct
  have hleft := (h.runJobs hdistinct.1 (hr ▸ List.subset_append_left _ _)).2
  have hrest : (w.runJobs ids).1.ready = ids' := by
    rw [hleft, hr, List.filter_append, List.filter_eq_nil_iff.mpr, List.nil_append,
      List.filter_eq_self]
    · intro id hm
      rw [decide_eq_true_iff]
      exact fun hm' => hdistinct.2.2 id hm' id hm rfl
    · simp
  rw [runReady, hr, runJobs_append, runReady, hrest]

/-! ## Jobs in between or afterwards -/

section Each

variable {named : Prop} {hs : List HandleId} {wish : List Key}

/-- A handle is force closed alike, whether the jobs that were taken up for others were run before it
or will be run after it. -/
theorem Abreast.forceClose (h : Abreast named w w'.runReady.1) (rule : w.dispatch = .inline)
    (draining : Draining w' (hd :: hs)) :
    Abreast named (w.forceClose hd).1 (w'.forceClose hd).1.runReady.1 ∧
      (w'.forceClose hd).2 = (w.forceClose hd).2 ∧ (w.forceClose hd).1.dispatch = .inline := by
  obtain ⟨hcommute, hpart, hdraining⟩ := draining.commute_runJobs named draining.primed.distinct
    (List.Subset.refl _)
  change Abreast named _ (w'.runReady.1.forceClose hd).1 at hcommute
  change (w'.runReady.1.forceClose hd).2 = _ at hpart
  change Draining w'.runReady.1 _ at hdraining
  have hidle : w.ready = [] := h.ready.symm.trans draining.primed.ready_runReady
  -- the handle is force closed where all jobs were run
  have fits : w.Fits hd := (hdraining.fits hd (List.mem_cons_self ..)).of_shelf (h.shelf _).symm
  obtain ⟨⟨-, habreast⟩, hpart'⟩ := (h.tail hidle rule hdraining.rule).forceClose_fits h.start trivial
    trivial trivial fits
  have hone := habreast hdraining.forceClose.1.primed.tidy.nodup_jobs
  -- the jobs may be run afterwards as well
  have hprimed := draining.forceClose.1.primed
  obtain ⟨js, -, -, hready⟩ := exists_jobs_forceClose (draining.fits hd (List.mem_cons_self ..))
    draining.rule
  have hsplit := hprimed.runReady_append hready
  have hlater : ((w'.forceClose hd).1.runJobs w'.ready).1.Primed :=
    (hprimed.runJobs draining.primed.distinct draining.forceClose.2).1
  rw [hsplit]
  refine ⟨hone.trans (hcommute.runReady hlater).symm, hpart.symm.trans hpart', ?_⟩
  obtain ⟨g, hg⟩ := exists_grows_forceClose fits
  exact hg.dispatch.trans rule

/-- Handles are force closed alike, whether jobs are run in between or after all of them. -/
theorem Abreast.forceCloseEach (h : Abreast named w w'.runReady.1) (rule : w.dispatch = .inline)
    (draining : Draining w' hs) :
    Abreast named (w.forceCloseEach hs).1 (w'.forceCloseEach hs).1.runReady.1 ∧
      (w'.forceCloseEach hs).2 = (w.forceCloseEach hs).2 ∧
        Draining (w'.forceCloseEach hs).1 [] := by
  induction hs generalizing w w' with
  | nil => exact ⟨h, rfl, draining⟩
  | cons hd hs ih =>
    obtain ⟨hone, hpart, hrule⟩ := h.forceClose rule draining
    obtain ⟨hrest, hparts, hdraining⟩ := ih hone hrule draining.forceClose.1
    refine ⟨hrest, ?_, hdraining⟩
    simp only [Hub.forceCloseEach, hpart, hparts]

/-- So they are where nothing is ready. -/
theorem draining_unlinkAll (sound : w.Sound) (tidy : w.outline.Tidy) (rule : w.dispatch = .queue)
    (idle : (w.unlinkAll wish).1.ready = []) (n : Notice) :
    Draining ((w.unlinkAll wish).1.note n) (w.unlinkAll wish).2 := by
  have htidy : ((w.unlinkAll wish).1.note n).outline.Tidy := by
    rw [outline_note, outline_unlinkAll]
    exact tidy
  have hrule : ((w.unlinkAll wish).1.note n).dispatch = .queue :=
    (congrArg Outline.dispatch (outline_unlinkAll w wish)).trans rule
  refine ⟨lined_unlinkAll sound.orderly wish n, .of_idle htidy idle, fun id hm => ?_, hrule⟩
  rw [show ((w.unlinkAll wish).1.note n).ready = [] from idle] at hm
  contradiction

/-- A teardown begins alike, whether jobs are run in between or afterwards. -/
theorem Abreast.beginTeardown (h : Abreast named w w') (idle : w.ready = [])
    (rule : w.dispatch = .inline) (rule' : w'.dispatch = .queue) (sound : w'.Sound)
    (tidy : w'.outline.Tidy) (wish : List Key) :
    Abreast named (w.beginTeardown .all wish).1 (w'.beginTeardown .all wish).1.runReady.1 ∧
      (w'.beginTeardown .all wish).2 = (w.beginTeardown .all wish).2 ∧
        Draining (w'.beginTeardown .all wish).1 [] := by
  obtain ⟨along, hhandles⟩ := h.start.unlinkAll trivial (fun _ => trivial) h.table wish
  have hready : (w'.unlinkAll wish).1.ready = [] :=
    (along.same_jobs fun e => e).2.2.trans (h.ready.trans idle)
  have hrule : (w.unlinkAll wish).1.dispatch = .inline :=
    (congrArg Outline.dispatch (outline_unlinkAll w wish)).trans rule
  -- both tell the same number of handles
  obtain ⟨n, hn⟩ : ∃ n : Notice, n = .tearingDown (w.unlinkAll wish).2.length := ⟨_, rfl⟩
  have hbegin : w.beginTeardown .all wish =
      ((w.unlinkAll wish).1.note n).forceCloseEach (w.unlinkAll wish).2 := by
    rw [hn]
    rfl
  have hbegin' : w'.beginTeardown .all wish =
      ((w'.unlinkAll wish).1.note n).forceCloseEach (w.unlinkAll wish).2 := by
    rw [hn, ← hhandles]
    rfl
  have hdraining := draining_unlinkAll sound tidy rule' hready n
  rw [hhandles] at hdraining
  have hnoted : Abreast named ((w.unlinkAll wish).1.note n)
      (((w'.unlinkAll wish).1.note n).runReady).1 := by
    rw [runReady_of_idle (show ((w'.unlinkAll wish).1.note n).ready = [] from hready)]
    exact h.later (along.note n)
  rw [hbegin, hbegin']
  exact hnoted.forceCloseEach hrule hdraining

end Each

end Hub

end SharedLinks
