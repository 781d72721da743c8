import Mathlib.Data.List.Find
import SharedLinks.Proofs.Drains
import SharedLinks.Proofs.Quiescence

/-!
# Hubs that are abreast

Two hubs are abreast if nobody who looks at their keys, tickets, counters and jobs can tell them apart
(`Hub.Abreast`). What becomes of new jobs may differ, and so may the journals, and others may have seen
the same things in another order. A job does the same in both (`Abreast.runJob`), so hubs that are
abreast stay so when they run the jobs that are ready (`Abreast.runReady`).

A call that takes up a job ends with that. If one hub runs the job at once and the other one when its
turn comes, the two are abreast again after that (`Abreast.spawn`).
-/

namespace SharedLinks

namespace Outline

variable {o o' : Outline} {j : Job} {left : Option Stage}

/-- A handle that waits after a job has worked has waited before, for the same tickets. -/
theorem Works.pending (h : Works j o left o') {hd : HandleId} {queue : List TicketId}
    (hp : o'.phase hd = .pending queue) : o.phase hd = .pending queue := by
  have hset : ∀ (o : Outline) (p : Phase), (∀ queue, p ≠ .pending queue) →
      (o.setPhase j.owner p).phase hd = .pending queue → o.phase hd = .pending queue := by
    intro o p hne hp
    change (if hd = j.owner then p else o.phase hd) = _ at hp
    split at hp
    · exact absurd hp (hne queue)
    · exact hp
  cases h with
  | granted | unwanted | failed => exact hset _ _ (fun _ => Phase.noConfusion) hp
  | wait | late | failedLate | close | done => exact hp

end Outline

namespace Hub

variable {named : Prop} {v v' w w' w'' : Hub} {id : JobId} {j : Job}

/-- The hubs agree on all keys and counters and, up to order, on what others saw. They agree on the
names of links if `named` says so. -/
structure Matches (named : Prop) (w w' : Hub) : Prop where
  shelf : ∀ k, w'.shelf k = w.shelf k
  table : w'.shelves.keys = w.shelves.keys
  provider : w'.provider = w.provider
  node : w'.node = w.node
  held : w'.isHeld = w.isHeld
  loose : w'.loose = w.loose
  counters : w'.counters = w.counters
  events : (w'.events.map Event.nameless).Perm (w.events.map Event.nameless)
  namer : named → w'.namer = w.namer
  exact : named → w'.events.Perm w.events

/-- The hubs agree on their jobs, too. -/
structure Abreast (named : Prop) (w w' : Hub) : Prop extends Matches named w w' where
  jobs : w'.jobs = w.jobs
  ready : w'.ready = w.ready

/-- Two hubs go alongside under all keys, without any new job. -/
def withoutJobs (named : Prop) : Accord :=
  { keys := fun _ => True, places := True, asks := True, takes := False, names := named }

namespace Matches

theorem refl (named : Prop) (w : Hub) : Matches named w w :=
  ⟨fun _ => rfl, rfl, rfl, rfl, rfl, rfl, rfl, .refl _, fun _ => rfl, fun _ => .refl _⟩

theorem symm (h : Matches named w w') : Matches named w' w :=
  ⟨fun k => (h.shelf k).symm, h.table.symm, h.provider.symm, h.node.symm, h.held.symm, h.loose.symm,
    h.counters.symm, h.events.symm, fun n => (h.namer n).symm, fun n => (h.exact n).symm⟩

theorem trans (h : Matches named w w') (h' : Matches named w' w'') : Matches named w w'' :=
  ⟨fun k => (h'.shelf k).trans (h.shelf k), h'.table.trans h.table, h'.provider.trans h.provider,
    h'.node.trans h.node, h'.held.trans h.held, h'.loose.trans h.loose, h'.counters.trans h.counters,
    h'.events.trans h.events, fun n => (h'.namer n).trans (h.namer n),
    fun n => (h'.exact n).trans (h.exact n)⟩

/-- Neither jobs nor journals matter. -/
theorem withJobs (h : Matches named w w') (jobs jobs' : List Job) (ready ready' : List JobId) :
    Matches named { w with jobs := jobs, ready := ready }
      { w' with jobs := jobs', ready := ready' } :=
  ⟨h.shelf, h.table, h.provider, h.node, h.held, h.loose, h.counters, h.events, h.namer, h.exact⟩

theorem start (h : Matches named v v') : Alongside (withoutJobs named) v v' v v' :=
  .start (fun k _ => h.shelf k ▸ .refl _ _) (fun k _ => congrFun h.provider k) h.node
    (fun _ => h.held) h.namer

/-- What goes alongside under all keys matches, new jobs aside. -/
theorem of_alongside {a : Accord} (h : Matches named v v') (along : Alongside a v v' w w')
    (all : ∀ k, a.keys k) (places : a.places) (names : named → a.names) : Matches named w w' := by
  have hshelf := fun k => (along.shelf k (all k)).eq places
  have htable := along.table places h.table
  have hheld := along.isHeld places
  have hnamer := fun n => along.names (names n)
  obtain ⟨g, g', hg, hg', like⟩ := along.growth
  refine ⟨hshelf, htable, ?_, ?_, hheld, ?_, ?_, ?_, hnamer, fun n => ?_⟩
  · rw [hg'.provider, h.provider, hg.provider]
  · rw [hg'.node, h.node, hg.node]
  · rw [hg'.loose, h.loose, hg.loose]
  · refine Counters.ext_get fun c => ?_
    rw [hg'.counters, h.counters, like.counts, hg.counters]
  · rw [hg'.events, hg.events, List.map_append, List.map_append, like.events]
    exact h.events.append_left _
  · rw [hg'.events, hg.events, like.exact fun _ => names n]
    exact (h.exact n).append_left _

/-- What goes alongside from there matches. -/
theorem later (h : Matches named v v') (along : Alongside (withoutJobs named) v v' w w') :
    Matches named w w' :=
  h.of_alongside along (fun _ => trivial) trivial id

end Matches

/-- Where no jobs are taken up, they stay as they are. -/
theorem Grows.same_jobs {a : Accord} {g : Growth} (h : Grows a g w w') (idle : ¬ a.takes) :
    w'.jobs = w.jobs ∧ w'.ready = w.ready := by
  obtain ⟨hj, hr⟩ := h.idle idle
  rw [h.jobs, h.ready, hj, hr, List.append_nil, List.append_nil]
  exact ⟨rfl, rfl⟩

theorem Alongside.same_jobs {a : Accord} (along : Alongside a v v' w w') (idle : ¬ a.takes) :
    (w.jobs = v.jobs ∧ w.ready = v.ready) ∧ (w'.jobs = v'.jobs ∧ w'.ready = v'.ready) := by
  obtain ⟨g, g', hg, hg', -⟩ := along.growth
  exact ⟨hg.same_jobs idle, hg'.same_jobs idle⟩

namespace Abreast

theorem refl (named : Prop) (w : Hub) : Abreast named w w := ⟨.refl named w, rfl, rfl⟩

theorem symm (h : Abreast named w w') : Abreast named w' w :=
  ⟨h.toMatches.symm, h.jobs.symm, h.ready.symm⟩

theorem trans (h : Abreast named w w') (h' : Abreast named w' w'') : Abreast named w w'' :=
  ⟨h.toMatches.trans h'.toMatches, h'.jobs.trans h.jobs, h'.ready.trans h.ready⟩

/-- What goes alongside without new jobs stays abreast. -/
theorem later (h : Abreast named v v') (along : Alongside (withoutJobs named) v v' w w') :
    Abreast named w w' := by
  obtain ⟨⟨hj, hr⟩, hj', hr'⟩ := along.same_jobs fun e => e
  exact ⟨h.toMatches.later along, by rw [hj', h.jobs, hj], by rw [hr', h.ready, hr]⟩

end Abreast

/-! ## Jobs -/

theorem WorksWithin.mono {ks ks' : Key → Prop} (h : w.WorksWithin ks j) (hk : ∀ k, ks k → ks' k) :
    w.WorksWithin ks' j := by
  refine ⟨hk _ h.owner, ?_, fun hs queue hp id hm => ?_⟩
  · have hlink := h.link
    cases hid : j.link.id with
    | made k i =>
      rw [hid] at hlink
      exact hk k hlink
    | brought name => trivial
  · have hwithin := h.queue hs queue hp id hm
    cases id with
    | forKey k n => exact hk k hwithin
    | loose n => exact hwithin

theorem WorksWithin.unready {ks : Key → Prop} (h : w.WorksWithin ks j) (id : JobId) :
    (w.unready id).WorksWithin ks j :=
  ⟨h.owner, h.link, h.queue⟩

/-- All that is ready can be run: it is there once, and works for a handle of its own key. -/
structure Primed (w : Hub) : Prop where
  tidy : w.outline.Tidy
  distinct : w.ready.Nodup
  found : ∀ id ∈ w.ready, ∃ j, w.job? id = some j ∧ w.WorksWithin (· = j.owner.key) j

theorem Primed.of_idle (tidy : w.outline.Tidy) (idle : w.ready = []) : w.Primed := by
  refine ⟨tidy, idle ▸ List.nodup_nil, fun id hm => ?_⟩
  rw [idle] at hm
  contradiction

theorem phase_afterWork (w : Hub) (id : JobId) (left : Option Stage) (h : HandleId) :
    (w.afterWork id left).1.phase h = w.phase h := by
  cases left <;> rfl

/-- A handle that waits after a job was run has waited before, for the same tickets. -/
theorem pending_of_runJob {h : HandleId} {queue : List TicketId}
    (hp : (w.runJob id).1.phase h = .pending queue) : w.phase h = .pending queue := by
  cases hfound : w.job? id with
  | none => rwa [runJob_of_none hfound] at hp
  | some j =>
    rw [runJob_of_some hfound, phase_afterWork] at hp
    exact (works_work (w.unready id) j).pending hp

/-- Running a job leaves the others alone. -/
theorem job?_runJob_ne {id' : JobId} (hid : id' ≠ id) : (w.runJob id).1.job? id' = w.job? id' := by
  cases hfound : w.job? id with
  | none => rw [runJob_of_none hfound]
  | some j =>
    have hsame : ((w.unready id).work j).1.jobs = w.jobs := jobs_work (w.unready id) j
    rw [runJob_of_some hfound, job?]
    cases ((w.unready id).work j).2 with
    | none =>
      change (((w.unready id).work j).1.jobs.filter fun j => j.id ≠ id).find? _ = _
      rw [hsame, List.find?_filter]
      refine List.find?_congr fun j' _ => ?_
      by_cases e : j'.id = id'
      · simp [e, hid]
      · simp [e]
    | some stage =>
      change (((w.unready id).work j).1.jobs.map fun j => if j.id = id then _ else j).find? _ = _
      have hkept : (w.jobs.find? ((fun j => decide (j.id = id')) ∘ fun j =>
          if j.id = id then { j with stage := stage } else j)) = w.job? id' := by
        refine List.find?_congr fun j' _ => ?_
        rw [Function.comp_apply]
        split <;> rfl
      rw [hsame, List.find?_map, hkept]
      cases hj : w.job? id' with
      | none => rfl
      | some j' =>
        have hid' : j'.id = id' := by simpa using List.find?_some hj
        exact congrArg some (if_neg (hid' ▸ hid))

theorem tidy_runJob (tidy : w.outline.Tidy) (id : JobId) : (w.runJob id).1.outline.Tidy :=
  (does_runJob tidy.nodup_jobs id).chain.tidy tidy

namespace Abreast

theorem afterWork (h : Abreast named w w') (id : JobId) (left : Option Stage) :
    Abreast named (w.afterWork id left).1 (w'.afterWork id left).1 := by
  cases left with
  | none => exact ⟨h.toMatches.withJobs _ _ _ _, by simp only [Hub.afterWork, removeJob, h.jobs],
      by simp only [Hub.afterWork, removeJob, h.ready]⟩
  | some stage => exact ⟨h.toMatches.withJobs _ _ w.ready w'.ready,
      by simp only [Hub.afterWork, setStage, h.jobs], h.ready⟩

/-- A job does the same in both hubs. -/
theorem runJob_of_found (h : Abreast named w w') (found : w.job? id = some j)
    (works : w.WorksWithin (fun _ => True) j) :
    Abreast named (w.runJob id).1 (w'.runJob id).1 ∧ (w'.runJob id).2 = (w.runJob id).2 := by
  have found' : w'.job? id = some j := by rw [job?, h.jobs, ← job?, found]
  have hunready : Abreast named (w.unready id) (w'.unready id) :=
    ⟨h.toMatches.withJobs w.jobs w'.jobs _ _, h.jobs, by simp only [Hub.unready, h.ready]⟩
  obtain ⟨along, hleft⟩ := hunready.toMatches.start.work (works.unready id)
  have hlater := hunready.later along
  rw [runJob_of_some found, runJob_of_some found', hleft]
  refine ⟨hlater.afterWork id _, ?_⟩
  cases ((w.unready id).work j).2 <;> rfl

/-- So does one that is ready. -/
theorem runJob (h : Abreast named w w') (primed : w.Primed) (hm : id ∈ w.ready) :
    Abreast named (w.runJob id).1 (w'.runJob id).1 := by
  obtain ⟨j, found, works⟩ := primed.found id hm
  exact (h.runJob_of_found found (works.mono fun _ _ => trivial)).1

end Abreast

/-- A job that was run is not ready. -/
theorem ready_runJob (found : w.job? id = some j) (works : w.WorksWithin (fun _ => True) j) :
    (w.runJob id).1.ready = w.ready.filter (· ≠ id) := by
  have hsame : ((w.unready id).work j).1.ready = w.ready.filter (· ≠ id) :=
    (((Matches.refl True (w.unready id)).start.work (works.unready id)).1.same_jobs fun e => e).1.2
  rw [runJob_of_some found]
  cases ((w.unready id).work j).2 with
  | none =>
    change ((w.unready id).work j).1.ready.filter (· ≠ id) = _
    rw [hsame, List.filter_filter]
    simp
  | some stage => exact hsame

theorem Primed.ready_runJob (h : w.Primed) (hm : id ∈ w.ready) :
    (w.runJob id).1.ready = w.ready.filter (· ≠ id) := by
  obtain ⟨j, found, works⟩ := h.found id hm
  exact Hub.ready_runJob found (works.mono fun _ _ => trivial)

/-- What else is ready can still be run. -/
theorem Primed.runJob (h : w.Primed) (hm : id ∈ w.ready) : (w.runJob id).1.Primed := by
  refine ⟨tidy_runJob h.tidy id, ?_, fun id' hm' => ?_⟩
  · rw [h.ready_runJob hm]
    exact h.distinct.filter _
  · rw [h.ready_runJob hm, List.mem_filter, decide_eq_true_iff] at hm'
    obtain ⟨j, hfound, works⟩ := h.found id' hm'.1
    rw [job?_runJob_ne hm'.2]
    exact ⟨j, hfound, works.owner, works.link, fun hs queue hp =>
      works.queue hs queue (pending_of_runJob hp)⟩

section List

variable {ids : List JobId}

theorem Primed.subset_runJob (h : w.Primed) (distinct : (id :: ids).Nodup)
    (hs : id :: ids ⊆ w.ready) : ids ⊆ (w.runJob id).1.ready := by
  intro id' hm
  rw [h.ready_runJob (hs (List.mem_cons_self ..)), List.mem_filter, decide_eq_true_iff]
  refine ⟨hs (List.mem_cons_of_mem _ hm), ?_⟩
  rintro rfl
  exact (List.nodup_cons.mp distinct).1 hm

theorem Primed.runJobs (h : w.Primed) (distinct : ids.Nodup) (hs : ids ⊆ w.ready) :
    (w.runJobs ids).1.Primed ∧ (w.runJobs ids).1.ready = w.ready.filter (· ∉ ids) := by
  induction ids generalizing w with
  | nil => exact ⟨h, by simp [Hub.runJobs]⟩
  | cons id ids ih =>
    have hm := hs (List.mem_cons_self ..)
    obtain ⟨hprimed, hleft⟩ := ih (h.runJob hm) (List.nodup_cons.mp distinct).2
      (h.subset_runJob distinct hs)
    refine ⟨hprimed, hleft.trans ?_⟩
    rw [h.ready_runJob hm, List.filter_filter]
    refine List.filter_congr fun id' _ => ?_
    simp [not_or, Bool.and_comm]

/-- After all that was ready was run, nothing is. -/
theorem Primed.ready_runReady (h : w.Primed) : w.runReady.1.ready = [] := by
  rw [runReady, (h.runJobs h.distinct (List.Subset.refl _)).2, List.filter_eq_nil_iff]
  simp

/-- Jobs in order do the same in both hubs. -/
theorem Abreast.runJobs (h : Abreast named w w') (primed : w.Primed) (distinct : ids.Nodup)
    (hs : ids ⊆ w.ready) : Abreast named (w.runJobs ids).1 (w'.runJobs ids).1 := by
  induction ids generalizing w w' with
  | nil => exact h
  | cons id ids ih =>
    have hm := hs (List.mem_cons_self ..)
    exact ih (h.runJob primed hm) (primed.runJob hm) (List.nodup_cons.mp distinct).2
      (primed.subset_runJob distinct hs)

/-- So do all that are ready. -/
theorem Abreast.runReady (h : Abreast named w w') (primed : w.Primed) :
    Abreast named w.runReady.1 w'.runReady.1 := by
  rw [Hub.runReady, Hub.runReady, h.ready]
  exact h.runJobs primed primed.distinct (List.Subset.refl _)

end List

/-- A new job is taken up at once by the one hub, and by the other when its turn comes. -/
theorem Abreast.spawn (h : Abreast named w w') (idle : w.ready = []) (rule : w.dispatch = .inline)
    (rule' : w'.dispatch = .queue) (works : w.WorksWithin (fun _ => True) j)
    (distinct : ((w'.spawn j).jobs.map (·.id)).Nodup) :
    Abreast named (w.spawn j) (w'.spawn j).runReady.1 := by
  have idle' : w'.ready = [] := h.ready.trans idle
  have hrun : (w'.spawn j).runReady.1 = ((w'.spawn j).runJob j.id).1 := by
    rw [Hub.runReady, spawn_queue rule', idle']
    rfl
  have hfound : (w'.spawn j).job? j.id = some j :=
    job?_of_mem distinct (by rw [spawn_queue rule']; simp)
  have hmatches : Matches named w ((w'.spawn j).unready j.id) := by
    rw [spawn_queue rule']
    exact h.toMatches.withJobs w.jobs _ w.ready _
  obtain ⟨along, hleft⟩ := hmatches.start.work works
  obtain ⟨⟨hjobs, hready⟩, hjobs', hready'⟩ := along.same_jobs fun e => e
  have hlater := hmatches.later along
  rw [hrun, runJob_of_some hfound, spawn_inline rule, hleft]
  rw [spawn_queue rule'] at distinct hjobs' hready' hleft hlater ⊢
  have hfresh : ∀ j' ∈ w.jobs, j'.id ≠ j.id := by
    rw [h.jobs, List.map_append, List.nodup_append] at distinct
    intro j' hj' e
    exact distinct.2.2 j'.id (List.mem_map_of_mem hj') j.id (by simp) e
  have hidle : (({ w' with jobs := w'.jobs ++ [j], ready := w'.ready ++ [j.id] }.unready
      j.id).work j).1.ready = [] := by
    rw [hready', unready, idle']
    simp
  generalize (({ w' with jobs := w'.jobs ++ [j], ready := w'.ready ++ [j.id] } : Hub).unready
      j.id).work j = r' at *
  generalize w.work j = r at *
  obtain ⟨u, left⟩ := r
  obtain ⟨u', left'⟩ := r'
  obtain rfl : left' = left := hleft
  dsimp only at *
  have hjobs'' : u'.jobs = w.jobs ++ [j] := hjobs'.trans (congrArg (· ++ [j]) h.jobs)
  cases left' with
  | none =>
    refine ⟨hlater.withJobs _ _ _ _, ?_, ?_⟩
    · change u'.jobs.filter (fun j' => j'.id ≠ j.id) = u.jobs ++ []
      rw [hjobs'', hjobs, List.filter_append, List.filter_eq_self.mpr (by simpa using hfresh)]
      simp
    · change u'.ready.filter (· ≠ j.id) = u.ready
      rw [hidle, hready, idle]
      rfl
  | some stage =>
    refine ⟨hlater.withJobs _ _ _ _, ?_, ?_⟩
    · change u'.jobs.map _ = u.jobs ++ [_]
      rw [hjobs'', hjobs, List.map_append]
      refine congrArg₂ (· ++ ·) ?_ ?_
      · refine (List.map_congr_left fun j' hj' => ?_).trans (List.map_id _)
        exact if_neg (hfresh j' hj')
      · simp
    · change u'.ready = u.ready
      rw [hidle, hready, idle]

theorem runReady_of_idle (idle : w.ready = []) : w.runReady.1 = w := by
  rw [runReady, idle]
  rfl

/-- A job that is run at once makes nothing ready. -/
theorem ready_spawn_inline (rule : w.dispatch = .inline) (works : w.WorksWithin (fun _ => True) j) :
    (w.spawn j).ready = w.ready := by
  have along := ((Matches.refl True w).start.work (j := j) works).1
  rw [spawn_inline rule]
  exact (along.same_jobs fun e => e).1.2

/-- A call does the same in a hub that runs new jobs at once and in one that runs them afterwards. -/
theorem Abreast.tail (h : Abreast named w w') (idle : w.ready = []) (rule : w.dispatch = .inline)
    (rule' : w'.dispatch = .queue) : Tail (withoutJobs named) w w' fun u u' =>
      u.ready = [] ∧ ((u'.jobs.map (·.id)).Nodup → Abreast named u u'.runReady.1) := by
  refine ⟨fun {u u'} along => ?_, fun {u u' j} along works => ?_⟩
  · have hidle : u.ready = [] := (along.same_jobs fun e => e).1.2.trans idle
    refine ⟨hidle, fun _ => ?_⟩
    rw [runReady_of_idle ((h.later along).ready.trans hidle)]
    exact h.later along
  · obtain ⟨g, g', hg, hg', -⟩ := along.growth
    have hidle : u.ready = [] := (hg.same_jobs fun e => e).2.trans idle
    have hrule := hg.dispatch.trans rule
    exact ⟨(ready_spawn_inline hrule works).trans hidle, fun distinct =>
      (h.later along).spawn hidle hrule (hg'.dispatch.trans rule') works distinct⟩

end Hub

end SharedLinks
