import Mathlib.Data.List.Nodup
import SharedLinks.Proofs.Outline

/-!
# How far each link has come

`Creation.Stands` tells the stations of a link: it is due until its creation is delivered; then it was
never made, or its handle keeps it, or nobody does and it is to be closed, or it was asked to close.
At each station the jobs for it have one thing left to do. In a `Tidy` outline every link is at one of
these stations and every handle that offers a link offers that of a creation of its own. Every step
keeps an outline tidy (`Step.tidy`), whatever its kind.
-/

namespace SharedLinks

/-- How far a link has come: from its creation, from whether the owner keeps it, from how often it
was asked to close, and from what the jobs for it have to do next. -/
inductive Creation.Stands (c : Creation) (kept : Prop) : Nat → List Stage → Prop where
  /-- The provider's answer has not reached the owner. -/
  | due {stages : List Stage} (delivered : c.delivered = false) (free : ¬ kept)
      (jobs : stages.Sublist [.awaitLink]) : Stands c kept 0 stages
  /-- There is no link. -/
  | failed {failure : String} (delivered : c.delivered = true)
      (made : c.making = .opened (some failure)) (free : ¬ kept) : Stands c kept 0 []
  /-- The owner offers it to callers. -/
  | kept (delivered : c.delivered = true) (made : c.making = .opened none) (keeps : kept) :
      Stands c kept 0 []
  /-- It is to be closed. -/
  | spent {stages : List Stage} (delivered : c.delivered = true) (made : c.making = .opened none)
      (free : ¬ kept) (jobs : stages.Sublist [.close]) : Stands c kept 0 stages
  /-- It was asked to close. -/
  | asked {stages : List Stage} (delivered : c.delivered = true) (made : c.making = .opened none)
      (free : ¬ kept) (jobs : stages.Sublist [.awaitClose]) : Stands c kept 1 stages

namespace Creation.Stands

variable {c c' : Creation} {kept kept' : Prop} {n : Nat} {stages stages' : List Stage}

/-- Jobs may be thrown away. -/
theorem sublist (h : c.Stands kept n stages) (hs : stages'.Sublist stages) :
    c.Stands kept n stages' := by
  cases h with
  | due delivered free jobs => exact .due delivered free (hs.trans jobs)
  | failed delivered made free => exact List.sublist_nil.mp hs ▸ .failed delivered made free
  | kept delivered made keeps => exact List.sublist_nil.mp hs ▸ .kept delivered made keeps
  | spent delivered made free jobs => exact .spent delivered made free (hs.trans jobs)
  | asked delivered made free jobs => exact .asked delivered made free (hs.trans jobs)

/-- The station depends on nothing of a creation but these parts. -/
theorem congr (h : c.Stands kept n stages) (delivered : c'.delivered = c.delivered)
    (making : c.delivered = true → c'.making = c.making) (iff : kept' ↔ kept) :
    c'.Stands kept' n stages := by
  cases h with
  | due hd free jobs => exact .due (delivered.trans hd) (iff.not.mpr free) jobs
  | failed hd made free =>
    exact .failed (delivered.trans hd) ((making hd).trans made) (iff.not.mpr free)
  | kept hd made keeps => exact .kept (delivered.trans hd) ((making hd).trans made) (iff.mpr keeps)
  | spent hd made free jobs =>
    exact .spent (delivered.trans hd) ((making hd).trans made) (iff.not.mpr free) jobs
  | asked hd made free jobs =>
    exact .asked (delivered.trans hd) ((making hd).trans made) (iff.not.mpr free) jobs

/-- What was delivered was answered before. -/
theorem answered (h : c.Stands kept n stages) (hd : c.delivered = true) : c.making ≠ .shut := by
  intro hshut
  cases h with
  | due delivered => simp [hd] at delivered
  | failed _ made => simp [hshut] at made
  | kept _ made => simp [hshut] at made
  | spent _ made => simp [hshut] at made
  | asked _ made => simp [hshut] at made

/-- There is at most one job for a link. -/
theorem length_le (h : c.Stands kept n stages) : stages.length ≤ 1 := by
  cases h with
  | due delivered free jobs => exact jobs.length_le
  | failed => exact Nat.zero_le 1
  | kept => exact Nat.zero_le 1
  | spent delivered made free jobs => exact jobs.length_le
  | asked delivered made free jobs => exact jobs.length_le

/-- A job that awaits a link awaits one that is due. -/
theorem of_awaitLink (h : c.Stands kept n stages) (hm : .awaitLink ∈ stages) :
    c.delivered = false ∧ ¬ kept ∧ n = 0 := by
  cases h with
  | due delivered free jobs => exact ⟨delivered, free, rfl⟩
  | failed => contradiction
  | kept => contradiction
  | spent delivered made free jobs => simpa using jobs.subset hm
  | asked delivered made free jobs => simpa using jobs.subset hm

/-- A job that has a link to close has one that was not asked to close before. -/
theorem of_close (h : c.Stands kept n stages) (hm : .close ∈ stages) :
    c.delivered = true ∧ c.making = .opened none ∧ ¬ kept ∧ n = 0 := by
  cases h with
  | due delivered free jobs => simpa using jobs.subset hm
  | failed => contradiction
  | kept => contradiction
  | spent delivered made free jobs => exact ⟨delivered, made, free, rfl⟩
  | asked delivered made free jobs => simpa using jobs.subset hm

/-- A job that waits for a link to close waits for one that was asked to. -/
theorem of_awaitClose (h : c.Stands kept n stages) (hm : .awaitClose ∈ stages) :
    c.delivered = true ∧ c.making = .opened none ∧ ¬ kept ∧ n = 1 := by
  cases h with
  | due delivered free jobs => simpa using jobs.subset hm
  | failed => contradiction
  | kept => contradiction
  | spent delivered made free jobs => simpa using jobs.subset hm
  | asked delivered made free jobs => exact ⟨delivered, made, free, rfl⟩

/-- A link is asked to close once at most. -/
theorem le_one (h : c.Stands kept n stages) : n ≤ 1 := by
  cases h with
  | due | failed | kept | spent => exact Nat.zero_le 1
  | asked => exact Nat.le_refl 1

/-- Only what was made and delivered is asked to close. -/
theorem eq_zero (h : c.Stands kept n stages)
    (hn : ¬ (c.delivered = true ∧ c.making = .opened none)) : n = 0 := by
  cases h with
  | due | failed | kept | spent => rfl
  | asked delivered made => exact absurd ⟨delivered, made⟩ hn

/-- What is kept was delivered, was not asked to close, and has no job. -/
theorem of_kept (h : c.Stands kept n stages) (hk : kept) :
    c.delivered = true ∧ c.making = .opened none ∧ n = 0 ∧ stages = [] := by
  cases h with
  | due delivered free => exact absurd hk free
  | failed delivered made free => exact absurd hk free
  | kept delivered made => exact ⟨delivered, made, rfl, rfl⟩
  | spent delivered made free => exact absurd hk free
  | asked delivered made free => exact absurd hk free

end Creation.Stands

/-- What the jobs for a link have to do next. -/
def Job.stages (jobs : List Job) (id : LinkId) : List Stage :=
  (jobs.filter fun j => j.link.id = id).map (·.stage)

namespace Job

variable {jobs jobs' pre post : List Job} {j : Job} {id : LinkId}

theorem stages_append (jobs jobs' : List Job) (id : LinkId) :
    stages (jobs ++ jobs') id = stages jobs id ++ stages jobs' id := by
  rw [stages, List.filter_append, List.map_append, stages, stages]

theorem stages_self (j : Job) : stages [j] j.link.id = [j.stage] := by
  simp [stages]

theorem stages_ne (h : j.link.id ≠ id) : stages [j] id = [] := by
  simp [stages, h]

theorem stages_left_self (j : Job) (left : Option Stage) :
    stages (j.left left) j.link.id = left.toList := by
  cases left with
  | none => rfl
  | some stage => exact stages_self { j with stage := stage }

theorem stages_left_ne (h : j.link.id ≠ id) (left : Option Stage) :
    stages (j.left left) id = [] := by
  cases left with
  | none => rfl
  | some stage => exact stages_ne (j := { j with stage := stage }) h

theorem stages_sublist (h : jobs'.Sublist jobs) (id : LinkId) :
    (stages jobs' id).Sublist (stages jobs id) :=
  (h.filter _).map _

theorem stages_split (split : jobs = pre ++ j :: post) (id : LinkId) :
    stages jobs id = stages pre id ++ stages [j] id ++ stages post id := by
  rw [split, ← stages_append, ← stages_append]
  simp

theorem mem_stages (h : j ∈ jobs) : j.stage ∈ stages jobs j.link.id :=
  List.mem_map_of_mem (List.mem_filter.mpr ⟨h, by simp⟩)

theorem stages_eq_nil (h : ∀ j ∈ jobs, j.link.id ≠ id) : stages jobs id = [] := by
  rw [stages, List.filter_eq_nil_iff.mpr (by simpa using h), List.map_nil]

end Job

namespace Outline

/-- Every link is at a station of its way, and every handle offers a link of its own. -/
structure Tidy (o : Outline) : Prop where
  /-- Creations belong to handles that were made. -/
  owner : ∀ id c, o.creation? id = some c → o.HasMade c.owner
  link : ∀ id c, o.creation? id = some c → c.link.id = id
  stands : ∀ id c, o.creation? id = some c →
    c.Stands (o.Keeps c) (o.closings id) (Job.stages o.jobs id)
  /-- A handle waits for a link only as long as none has reached it. -/
  arrived : ∀ id c, o.creation? id = some c → c.delivered = true →
    ∀ queue, o.phase c.owner ≠ .pending queue
  offers : ∀ h link, (o.phase h).link? = some link →
    ∃ c, o.creation? link.id = some c ∧ c.owner = h ∧ c.link = link
  /-- A job works for a creation. -/
  job : ∀ j ∈ o.jobs, j.id.link = j.link.id ∧
    ∃ c, o.creation? j.link.id = some c ∧ c.owner = j.owner ∧ c.link = j.link
  /-- Handles that were not made count as closed. -/
  unmade : ∀ h, ¬ o.HasMade h → o.phase h = .closed
  /-- Only the links of creations are asked to close. -/
  unasked : ∀ id, o.creation? id = none → o.closings id = 0

namespace Tidy

variable {o o' : Outline}

/-- There is at most one job for a link, and so at most one of a name. -/
theorem nodup_jobs (h : o.Tidy) : (o.jobs.map (·.id)).Nodup := by
  have hlinks : (o.jobs.map fun j => j.link.id).Nodup := by
    rw [List.nodup_iff_count]
    intro id
    have hcount : (o.jobs.map fun j => j.link.id).count id = (Job.stages o.jobs id).length := by
      rw [Job.stages, List.length_map, ← List.countP_eq_length_filter, List.count, List.countP_map]
      refine List.countP_congr fun j _ => ?_
      simp
    rw [hcount]
    cases hc : o.creation? id with
    | some c => exact (h.stands id c hc).length_le
    | none =>
      rw [Job.stages_eq_nil]
      · exact Nat.zero_le 1
      · rintro j hj rfl
        obtain ⟨-, c, hc', -⟩ := h.job j hj
        rw [hc] at hc'
        contradiction
  have he : (o.jobs.map fun j => j.link.id) = (o.jobs.map (·.id)).map (·.link) := by
    rw [List.map_map]
    exact List.map_congr_left fun j hj => (h.job j hj).1.symm
  rw [he] at hlinks
  exact List.Nodup.of_map _ hlinks

/-- A handle that is in any phase but the last was made. -/
theorem made_of_ne (h : o.Tidy) {hd : HandleId} (hp : o.phase hd ≠ .closed) : o.HasMade hd := by
  by_contra hm
  exact hp (h.unmade hd hm)

/-- Where no link and no job has changed, the outline stays tidy. -/
theorem of_links (h : o.Tidy) (handles : ∀ k, o.handles k ≤ o'.handles k)
    (creation : o'.creation? = o.creation?) (closings : o'.closings = o.closings)
    (jobs : o'.jobs = o.jobs) (links : ∀ hd, (o'.phase hd).link? = (o.phase hd).link?)
    (pending : ∀ hd queue, o'.phase hd = .pending queue → o.HasMade hd →
      ∃ queue', o.phase hd = .pending queue')
    (unmade : ∀ hd, ¬ o'.HasMade hd → o'.phase hd = .closed) : o'.Tidy where
  owner id c hc := by
    rw [creation] at hc
    exact Nat.lt_of_lt_of_le (h.owner id c hc) (handles _)
  link id c hc := by
    rw [creation] at hc
    exact h.link id c hc
  stands id c hc := by
    rw [creation] at hc
    rw [closings, jobs]
    refine (h.stands id c hc).congr rfl (fun _ => rfl) ?_
    rw [Keeps, links, Keeps]
  arrived id c hc hd queue hp := by
    rw [creation] at hc
    obtain ⟨queue', hp'⟩ := pending _ queue hp (h.owner id c hc)
    exact h.arrived id c hc hd queue' hp'
  offers hd link hl := by
    rw [links] at hl
    rw [creation]
    exact h.offers hd link hl
  job j hj := by
    rw [jobs] at hj
    rw [creation]
    exact h.job j hj
  unmade := unmade
  unasked id hc := by
    rw [creation] at hc
    rw [closings]
    exact h.unasked id hc

/-- Where only one link has gone on its way, only that one has to be looked at. -/
theorem of_change (h : o.Tidy) (id : LinkId) (c' : Creation) (handles : o'.handles = o.handles)
    (creation : ∀ i, o'.creation? i = if i = id then some c' else o.creation? i)
    (closings : ∀ i, i ≠ id → o'.closings i = o.closings i)
    (stages : ∀ i, i ≠ id → Job.stages o'.jobs i = Job.stages o.jobs i)
    (links : ∀ hd link, link.id ≠ id → ((o'.phase hd).link? = some link ↔
      (o.phase hd).link? = some link))
    (pending : ∀ hd queue, o'.phase hd = .pending queue → o.phase hd = .pending queue)
    (unmade : ∀ hd, ¬ o.HasMade hd → o'.phase hd = .closed)
    (same : ∀ c, o.creation? id = some c → c'.owner = c.owner ∧ c'.link = c.link)
    (owner : o.HasMade c'.owner) (link : c'.link.id = id)
    (stands : c'.Stands (o'.Keeps c') (o'.closings id) (Job.stages o'.jobs id))
    (arrived : c'.delivered = true → ∀ queue, o'.phase c'.owner ≠ .pending queue)
    (offers : ∀ hd, (o'.phase hd).link? = some c'.link → c'.owner = hd)
    (only : ∀ hd link, link.id = id → (o'.phase hd).link? = some link → link = c'.link)
    (jobs : ∀ j ∈ o'.jobs, (∃ j' ∈ o.jobs, j'.id = j.id ∧ j'.owner = j.owner ∧ j'.link = j.link) ∨
      j.id.link = id ∧ j.link = c'.link ∧ c'.owner = j.owner) : o'.Tidy where
  owner i c hc := by
    rw [creation] at hc
    rw [HasMade, handles]
    split at hc
    · obtain rfl := Option.some.inj hc
      exact owner
    · exact h.owner i c hc
  link i c hc := by
    rw [creation] at hc
    split at hc
    · rename_i hi
      obtain rfl := Option.some.inj hc
      rw [link, hi]
    · exact h.link i c hc
  stands i c hc := by
    rw [creation] at hc
    split at hc
    · rename_i hi
      obtain rfl := Option.some.inj hc
      rw [hi]
      exact stands
    · rename_i hi
      rw [closings i hi, stages i hi]
      refine (h.stands i c hc).congr rfl (fun _ => rfl) (links _ _ ?_)
      rwa [h.link i c hc]
  arrived i c hc hd queue hp := by
    rw [creation] at hc
    split at hc
    · obtain rfl := Option.some.inj hc
      exact arrived hd queue hp
    · exact h.arrived i c hc hd queue (pending _ queue hp)
  offers hd l hl := by
    rw [creation]
    split
    · rename_i hi
      obtain rfl := only hd l hi hl
      exact ⟨c', rfl, offers hd hl, rfl⟩
    · rename_i hi
      exact h.offers hd l ((links hd l hi).mp hl)
  job j hj := by
    rw [creation]
    rcases jobs j hj with ⟨j', hj', hid, howner, hlink⟩ | ⟨hid, hlink, howner⟩
    · obtain ⟨hname, c, hc, hco, hcl⟩ := h.job j' hj'
      rw [hid, hlink] at hname
      rw [hlink] at hc hcl
      rw [howner] at hco
      refine ⟨hname, ?_⟩
      split
      · rename_i hi
        rw [hi] at hc
        obtain ⟨ho, hl⟩ := same c hc
        exact ⟨c', rfl, ho.trans hco, hl.trans hcl⟩
      · exact ⟨c, hc, hco, hcl⟩
    · have hj : j.link.id = id := by rw [hlink, link]
      rw [if_pos hj]
      exact ⟨hid.trans hj.symm, c', rfl, howner, hlink.symm⟩
  unmade hd hm := by
    rw [HasMade, handles] at hm
    exact unmade hd hm
  unasked i hc := by
    rw [creation] at hc
    split at hc
    · contradiction
    · rename_i hi
      rw [closings i hi]
      exact h.unasked i hc

end Tidy

/-! ## Steps -/

theorem link?_setPhase (o : Outline) (hd h' : HandleId) (p : Phase) :
    ((o.setPhase hd p).phase h').link? = if h' = hd then p.link? else (o.phase h').link? := by
  change (if h' = hd then p else o.phase h').link? = _
  split <;> rfl

theorem pending_setPhase {o : Outline} {hd h' : HandleId} {p : Phase} {queue : List TicketId}
    (hp : ∀ q, p ≠ .pending q) (h : (o.setPhase hd p).phase h' = .pending queue) :
    o.phase h' = .pending queue := by
  change (if h' = hd then p else o.phase h') = _ at h
  split at h
  · exact absurd h (hp queue)
  · exact h

theorem Tidy.unmade_setPhase {o : Outline} (h : o.Tidy) {hd : HandleId}
    (made : o.phase hd ≠ .closed) (p : Phase) (h' : HandleId) (hm : ¬ o.HasMade h') :
    (o.setPhase hd p).phase h' = .closed := by
  change (if h' = hd then p else o.phase h') = _
  rw [if_neg, h.unmade h' hm]
  rintro rfl
  exact hm (h.made_of_ne made)

/-- A handle without a link to offer may move to any phase without one. -/
theorem Tidy.setPhase {o : Outline} (h : o.Tidy) {hd : HandleId} {p : Phase}
    (links : p.link? = (o.phase hd).link?) (made : o.phase hd ≠ .closed)
    (pending : ∀ queue, p = .pending queue → ∃ queue', o.phase hd = .pending queue') :
    (o.setPhase hd p).Tidy := by
  refine h.of_links (fun _ => Nat.le_refl _) rfl rfl rfl ?_ ?_ ?_
  · intro h'
    rw [link?_setPhase]
    split
    · rename_i he
      rw [links, he]
    · rfl
  · intro h' queue hp _
    change (if h' = hd then p else o.phase h') = _ at hp
    split at hp
    · rename_i he
      rw [he]
      exact pending queue hp
    · exact ⟨queue, hp⟩
  · exact h.unmade_setPhase made p

theorem Tidy.addHandle {o : Outline} (h : o.Tidy) (k : Key) (queue : List TicketId) :
    (o.addHandle k (.pending queue)).Tidy := by
  have hnew : o.phase ⟨k, o.handles k⟩ = .closed := h.unmade _ (Nat.lt_irrefl _)
  refine h.of_links (fun j => ?_) rfl rfl rfl ?_ ?_ ?_
  · change o.handles j ≤ if j = k then o.handles k + 1 else o.handles j
    split
    · rename_i hj
      rw [hj]
      exact Nat.le_succ _
    · exact Nat.le_refl _
  · intro h'
    change (if h' = _ then Phase.pending queue else o.phase h').link? = _
    split
    · rename_i he
      rw [he, hnew]
      rfl
    · rfl
  · intro h' q hp hm
    change (if h' = _ then Phase.pending queue else o.phase h') = _ at hp
    split at hp
    · rename_i he
      rw [he] at hm
      exact absurd hm (Nat.lt_irrefl _)
    · exact ⟨q, hp⟩
  · intro h' hm
    change (if h' = _ then Phase.pending queue else o.phase h') = _
    have hm' : ¬ h'.index < if h'.key = k then o.handles k + 1 else o.handles h'.key := hm
    split
    · rename_i he
      subst he
      simp at hm'
    · refine h.unmade h' fun hlt => hm' ?_
      split
      · rename_i hk
        rw [HasMade, hk] at hlt
        exact Nat.lt_succ_of_lt hlt
      · exact hlt

/-- Some jobs are thrown away. -/
theorem Tidy.withJobs {o : Outline} (h : o.Tidy) {jobs : List Job} (fewer : jobs.Sublist o.jobs) :
    (o.withJobs jobs).Tidy where
  owner := h.owner
  link := h.link
  stands id c hc := (h.stands id c hc).sublist (Job.stages_sublist fewer id)
  arrived := h.arrived
  offers := h.offers
  job j hj := h.job j (fewer.subset hj)
  unmade := h.unmade
  unasked := h.unasked

/-- A handle that takes its link in, or gives it away, does not touch other links. -/
theorem links_setPhase_iff {o : Outline} {hd : HandleId} {p : Phase} {id : LinkId}
    (before : ∀ link, (o.phase hd).link? = some link → link.id = id)
    (after : ∀ link, p.link? = some link → link.id = id) (h' : HandleId) (link : Link)
    (hne : link.id ≠ id) :
    ((o.setPhase hd p).phase h').link? = some link ↔ (o.phase h').link? = some link := by
  rw [link?_setPhase]
  split
  · rename_i he
    subst he
    exact iff_of_false (fun e => hne (after link e)) fun e => hne (before link e)
  · exact Iff.rfl

/-- The jobs after one of them was run. -/
theorem mem_left {j j' : Job} {left : Option Stage} (h : j' ∈ j.left left) :
    j'.id = j.id ∧ j'.owner = j.owner ∧ j'.link = j.link := by
  cases left with
  | none => contradiction
  | some stage =>
    obtain rfl : j' = { j with stage := stage } := List.mem_singleton.mp h
    exact ⟨rfl, rfl, rfl⟩

theorem sublist_left {left : Option Stage} {stage : Stage} (h : ∀ s ∈ left, s = stage) :
    left.toList.Sublist [stage] := by
  cases left with
  | none => exact List.nil_sublist _
  | some s => exact h s rfl ▸ List.Sublist.refl _

section Work

variable {o o' : Outline} {j : Job} {pre post : List Job} {left : Option Stage}

/-- The link of a job that is run goes on its way, and no other link does. -/
theorem Tidy.of_work (h : o.Tidy) (split : o.jobs = pre ++ j :: post) {c : Creation} (c' : Creation)
    (found : o.creation? j.link.id = some c) (handles : o'.handles = o.handles)
    (creation : ∀ i, o'.creation? i = if i = j.link.id then some c' else o.creation? i)
    (closings : ∀ i, i ≠ j.link.id → o'.closings i = o.closings i)
    (links : ∀ hd link, link.id ≠ j.link.id → ((o'.phase hd).link? = some link ↔
      (o.phase hd).link? = some link))
    (pending : ∀ hd queue, o'.phase hd = .pending queue → o.phase hd = .pending queue)
    (unmade : ∀ hd, ¬ o.HasMade hd → o'.phase hd = .closed)
    (same : c'.owner = c.owner ∧ c'.link = c.link)
    (stands : c'.Stands (o'.Keeps c') (o'.closings j.link.id) left.toList)
    (arrived : c'.delivered = true → ∀ queue, o'.phase c'.owner ≠ .pending queue)
    (offers : ∀ hd link, link.id = j.link.id → (o'.phase hd).link? = some link →
      link = c'.link ∧ c'.owner = hd) : (o'.withJobs (pre ++ j.left left ++ post)).Tidy := by
  have hmem : j ∈ o.jobs := by
    rw [split]
    simp
  have hle := (h.stands _ c found).length_le
  rw [Job.stages_split split, Job.stages_self, List.length_append, List.length_append,
    List.length_singleton] at hle
  -- the job is the only one for its link
  have hpre : Job.stages pre j.link.id = [] := List.length_eq_zero_iff.mp (by omega)
  have hpost : Job.stages post j.link.id = [] := List.length_eq_zero_iff.mp (by omega)
  have hlink : c'.link.id = j.link.id := by rw [same.2, h.link _ c found]
  refine h.of_change j.link.id c' handles creation closings ?_ links pending unmade ?_ ?_ hlink ?_
    arrived ?_ ?_ ?_
  · intro i hi
    change Job.stages (pre ++ j.left left ++ post) i = _
    rw [Job.stages_split split, Job.stages_append, Job.stages_append,
      Job.stages_left_ne (Ne.symm hi), Job.stages_ne (Ne.symm hi)]
  · intro c₀ hc₀
    obtain rfl := Option.some.inj (found.symm.trans hc₀)
    exact same
  · rw [same.1]
    exact h.owner _ c found
  · change c'.Stands (o'.Keeps c') _ (Job.stages (pre ++ j.left left ++ post) j.link.id)
    rw [Job.stages_append, Job.stages_append, hpre, hpost, Job.stages_left_self, List.nil_append,
      List.append_nil]
    exact stands
  · intro hd hl
    exact (offers hd _ hlink hl).2
  · intro hd link hid hl
    exact (offers hd link hid hl).1
  · intro j' hj'
    refine Or.inl ?_
    rw [show (o'.withJobs _).jobs = pre ++ j.left left ++ post from rfl, List.mem_append,
      List.mem_append] at hj'
    rcases hj' with (hj' | hj') | hj'
    · exact ⟨j', by rw [split]; simp [hj'], rfl, rfl, rfl⟩
    · obtain ⟨hid, howner, hlink'⟩ := mem_left hj'
      exact ⟨j, hmem, hid.symm, howner.symm, hlink'.symm⟩
    · exact ⟨j', by rw [split]; simp [hj'], rfl, rfl, rfl⟩

/-- Nobody but the owner of a creation offers its link. -/
theorem Tidy.offers_eq (h : o.Tidy) {c : Creation} (found : o.creation? c.link.id = some c)
    {hd : HandleId} {link : Link} (hid : link.id = c.link.id)
    (hl : (o.phase hd).link? = some link) : link = c.link ∧ c.owner = hd := by
  obtain ⟨c', hc', howner, hlink⟩ := h.offers hd link hl
  rw [hid, found] at hc'
  obtain rfl := Option.some.inj hc'
  exact ⟨hlink.symm, howner⟩

/-- The answer has reached the creation, and every other one is as before. -/
theorem creation?_deliver {id : LinkId} {c : Creation} (found : o.creation? id = some c)
    (i : LinkId) : (o.deliver id).creation? i =
      if i = id then some { c with delivered := true } else o.creation? i := by
  change (if i = id then (o.creation? i).map _ else _) = _
  split
  · rename_i hi
    rw [hi, found]
    rfl
  · rfl

/-- The provider's answer reaches a handle that waits for it, which moves on. -/
theorem Tidy.settle (h : o.Tidy) (split : o.jobs = pre ++ j :: post) {c : Creation}
    (found : o.creation? j.link.id = some c) (owner : c.owner = j.owner) {queue : List TicketId}
    (waits : o.phase j.owner = .pending queue) (p : Phase) (moved : ∀ queue, p ≠ .pending queue)
    (offer : ∀ link, p.link? = some link → link = c.link) (handles : o'.handles = o.handles)
    (creation : o'.creation? = (o.deliver j.link.id).creation?)
    (phase : o'.phase = (o.setPhase j.owner p).phase)
    (closings : ∀ i, i ≠ j.link.id → o'.closings i = o.closings i)
    (stands : Creation.Stands { c with delivered := true } (p.link? = some c.link)
      (o'.closings j.link.id) left.toList) : (o'.withJobs (pre ++ j.left left ++ post)).Tidy := by
  have hlink : c.link.id = j.link.id := h.link _ c found
  have hfound : o.creation? c.link.id = some c := by rw [hlink, found]
  have hphase : ∀ hd, o'.phase hd = if hd = j.owner then p else o.phase hd := congrFun phase
  have howner : o'.phase c.owner = p := by rw [hphase, if_pos owner]
  have hkeeps : o'.Keeps { c with delivered := true } = (p.link? = some c.link) := by
    rw [Keeps, howner]
  refine h.of_work split { c with delivered := true } found handles
    (fun i => by rw [creation, creation?_deliver found]) closings ?_ ?_ ?_ ⟨rfl, rfl⟩
    (hkeeps ▸ stands) ?_ ?_
  · rw [phase]
    refine links_setPhase_iff (fun link hl => ?_) fun link hl => by rw [offer link hl, hlink]
    rw [waits] at hl
    contradiction
  · rw [phase]
    exact fun _ _ => pending_setPhase moved
  · rw [phase]
    exact h.unmade_setPhase (by simp [waits]) p
  · intro _ queue'
    change o'.phase c.owner ≠ _
    rw [howner]
    exact moved queue'
  · intro hd link hid hl
    rw [hphase] at hl
    split at hl
    · rename_i he
      exact ⟨offer link hl, owner.trans he.symm⟩
    · exact h.offers_eq hfound (hid.trans hlink.symm) hl

/-- A job goes on with its link, and all handles stay where they are. -/
theorem Tidy.stay (h : o.Tidy) (split : o.jobs = pre ++ j :: post) {c c' : Creation}
    (found : o.creation? j.link.id = some c)
    (creation : ∀ i, o'.creation? i = if i = j.link.id then some c' else o.creation? i)
    (same : c'.owner = c.owner ∧ c'.link = c.link) (handles : o'.handles = o.handles)
    (phase : o'.phase = o.phase) (closings : ∀ i, i ≠ j.link.id → o'.closings i = o.closings i)
    (stands : c'.Stands (o.Keeps c) (o'.closings j.link.id) left.toList)
    (arrived : c'.delivered = true → ∀ queue, o.phase c.owner ≠ .pending queue) :
    (o'.withJobs (pre ++ j.left left ++ post)).Tidy := by
  have hlink : c.link.id = j.link.id := h.link _ c found
  have hfound : o.creation? c.link.id = some c := by rw [hlink, found]
  have hkeeps : o'.Keeps c' = o.Keeps c := by rw [Keeps, phase, same.1, same.2, Keeps]
  refine h.of_work split c' found handles creation closings ?_ ?_ ?_ same (hkeeps ▸ stands) ?_ ?_
  · rw [phase]
    exact fun _ _ _ => Iff.rfl
  · rw [phase]
    exact fun _ _ => id
  · rw [phase]
    exact h.unmade
  · rw [phase, same.1]
    exact arrived
  · rw [phase, same.1, same.2]
    exact fun hd link hid => h.offers_eq hfound (hid.trans hlink.symm)

/-- Whatever a job does, the outline stays tidy. -/
theorem Works.tidy (works : Works j o left o') (h : o.Tidy) (split : o.jobs = pre ++ j :: post) :
    (o'.withJobs (pre ++ j.left left ++ post)).Tidy := by
  have hmem : j ∈ o.jobs := by
    rw [split]
    simp
  obtain ⟨-, c, found, howner, hlink⟩ := h.job j hmem
  have hstands := h.stands _ c found
  have hstage := Job.mem_stages hmem
  have hclosed : ¬ Phase.closed.link? = some c.link := by simp [Phase.link?]
  -- where creations are not changed, the link of the job has one all the same
  have hsame : ∀ i, o.creation? i = if i = j.link.id then some c else o.creation? i := by
    intro i
    split
    · rename_i hi
      rw [hi, found]
    · rfl
  have hothers : ∀ i, i ≠ j.link.id → (o.close j.link.id).closings i = o.closings i :=
    fun _ => closings_close_ne o
  cases works with
  | wait awaits =>
    rw [show pre ++ j.left (some .awaitLink) ++ post = o.jobs by
      rw [split, ← awaits]
      simp [Job.left]]
    exact h
  | @granted c₀ queue refs awaits found₀ made pending =>
    obtain rfl := Option.some.inj (found.symm.trans found₀)
    obtain ⟨-, -, hzero⟩ := hstands.of_awaitLink (awaits ▸ hstage)
    refine h.settle split found howner pending (.live j.link refs) (by simp)
      (fun link hl => (Option.some.inj hl).symm.trans hlink.symm) rfl rfl rfl (fun _ _ => rfl) ?_
    change Creation.Stands _ _ (o.closings j.link.id) _
    rw [hzero]
    exact .kept rfl made (congrArg some hlink.symm)
  | @unwanted c₀ queue _ awaits found₀ made pending rest =>
    obtain rfl := Option.some.inj (found.symm.trans found₀)
    obtain ⟨-, -, hzero⟩ := hstands.of_awaitLink (awaits ▸ hstage)
    refine h.settle split found howner pending .closed (by simp) (fun _ hl => by contradiction)
      rfl rfl rfl hothers ?_
    change Creation.Stands _ _ ((o.close j.link.id).closings j.link.id) _
    rw [closings_close_self, hzero]
    exact .asked rfl made hclosed (sublist_left rest)
  | @late c₀ _ awaits found₀ made gone rest =>
    obtain rfl := Option.some.inj (found.symm.trans found₀)
    obtain ⟨-, hfree, hzero⟩ := hstands.of_awaitLink (awaits ▸ hstage)
    refine h.stay split found (creation?_deliver found) ⟨rfl, rfl⟩ rfl rfl hothers ?_
      fun _ => howner ▸ gone
    change Creation.Stands _ _ ((o.close j.link.id).closings j.link.id) _
    rw [closings_close_self, hzero]
    exact .asked rfl made hfree (sublist_left rest)
  | @failed c₀ failure queue awaits found₀ made pending =>
    obtain rfl := Option.some.inj (found.symm.trans found₀)
    obtain ⟨-, -, hzero⟩ := hstands.of_awaitLink (awaits ▸ hstage)
    refine h.settle split found howner pending .closed (by simp) (fun _ hl => by contradiction)
      rfl rfl rfl (fun _ _ => rfl) ?_
    change Creation.Stands _ _ (o.closings j.link.id) _
    rw [hzero]
    exact .failed rfl made hclosed
  | @failedLate c₀ failure awaits found₀ made gone =>
    obtain rfl := Option.some.inj (found.symm.trans found₀)
    obtain ⟨-, hfree, hzero⟩ := hstands.of_awaitLink (awaits ▸ hstage)
    refine h.stay split found (creation?_deliver found) ⟨rfl, rfl⟩ rfl rfl (fun _ _ => rfl) ?_
      fun _ => howner ▸ gone
    change Creation.Stands _ _ (o.closings j.link.id) _
    rw [hzero]
    exact .failed rfl made hfree
  | close closes rest =>
    obtain ⟨hd, hm, hfree, hzero⟩ := hstands.of_close (closes ▸ hstage)
    refine h.stay split found hsame ⟨rfl, rfl⟩ rfl rfl hothers ?_ (h.arrived _ c found)
    rw [closings_close_self, hzero]
    exact .asked hd hm hfree (sublist_left rest)
  | done awaits rest =>
    obtain ⟨hd, hm, hfree, hone⟩ := hstands.of_awaitClose (awaits ▸ hstage)
    refine h.stay split found hsame ⟨rfl, rfl⟩ rfl rfl (fun _ _ => rfl) ?_ (h.arrived _ c found)
    rw [hone]
    exact .asked hd hm hfree (sublist_left rest)

end Work

variable {o o' : Outline}

theorem Tidy.start (h : o.Tidy) {c : Creation} (r : Request) (owner : o.HasMade c.owner)
    (fresh : o.creation? c.link.id = none) (undelivered : c.delivered = false) :
    ((o.request c r).addJob ⟨⟨c.link.id, .create⟩, c.owner, c.link, .awaitLink⟩).Tidy := by
  have hnone : ∀ j ∈ o.jobs, j.link.id ≠ c.link.id := by
    intro j hj e
    obtain ⟨-, c', hc', -⟩ := h.job j hj
    rw [e, fresh] at hc'
    contradiction
  have hfree : ∀ hd link, link.id = c.link.id → (o.phase hd).link? ≠ some link := by
    intro hd link hid hl
    obtain ⟨c', hc', -⟩ := h.offers hd link hl
    rw [hid, fresh] at hc'
    contradiction
  refine h.of_change c.link.id c rfl (fun _ => rfl) (fun _ _ => rfl) ?_
    (fun _ _ _ => Iff.rfl) (fun _ _ => id) h.unmade ?_ owner rfl ?_ ?_ ?_ ?_ ?_
  · intro i hi
    change Job.stages (o.jobs ++ [_]) i = _
    rw [Job.stages_append, Job.stages_ne (Ne.symm hi), List.append_nil]
  · intro c' hc'
    rw [fresh] at hc'
    contradiction
  · change Creation.Stands _ _ (o.closings c.link.id) (Job.stages (o.jobs ++ [_]) c.link.id)
    rw [h.unasked _ fresh, Job.stages_append, Job.stages_eq_nil hnone, List.nil_append]
    refine .due undelivered (hfree _ _ rfl) ?_
    rw [Job.stages_self ⟨⟨c.link.id, .create⟩, c.owner, c.link, .awaitLink⟩]
  · intro hd
    rw [undelivered] at hd
    contradiction
  · exact fun hd hl => absurd hl (hfree hd _ rfl)
  · exact fun hd link hid hl => absurd hl (hfree hd link hid)
  · intro j hj
    rcases List.mem_append.mp hj with hj | hj
    · exact Or.inl ⟨j, hj, rfl, rfl, rfl⟩
    · rw [List.mem_singleton.mp hj]
      exact Or.inr ⟨rfl, rfl, rfl⟩

theorem Tidy.answer (h : o.Tidy) {id : LinkId} {f : Creation → Creation}
    (same : ∀ c, (f c).owner = c.owner ∧ (f c).link = c.link ∧ (f c).delivered = c.delivered)
    (answered : ∀ c, o.creation? id = some c → c.making ≠ .shut → (f c).making = c.making) :
    (o.onCreation id f).Tidy := by
  cases hc : o.creation? id with
  | none =>
    have he : o.onCreation id f = o := by
      have hcreation : (fun i => if i = id then (o.creation? i).map f else o.creation? i) =
          o.creation? := by
        funext i
        split
        · rename_i hi
          rw [hi, hc]
          rfl
        · rfl
      rw [onCreation, hcreation]
    rw [he]
    exact h
  | some c =>
    obtain ⟨howner, hlink, hdelivered⟩ := same c
    have hid := h.link id c hc
    have hfound : o.creation? c.link.id = some c := by rw [hid, hc]
    have hoffers : ∀ hd link, link.id = id → (o.phase hd).link? = some link →
        link = c.link ∧ c.owner = hd := by
      intro hd link hi hl
      exact h.offers_eq hfound (by rw [hi, hid]) hl
    refine h.of_change id (f c) rfl ?_ (fun _ _ => rfl) (fun _ _ => rfl)
      (fun _ _ _ => Iff.rfl) (fun _ _ h => h) h.unmade ?_ ?_ (by rw [hlink, hid]) ?_ ?_ ?_ ?_ ?_
    · intro i
      change (if i = id then (o.creation? i).map f else _) = _
      split
      · rename_i hi
        rw [hi, hc]
        rfl
      · rfl
    · intro c' hc'
      obtain rfl := Option.some.inj (hc.symm.trans hc')
      exact ⟨howner, hlink⟩
    · rw [howner]
      exact h.owner id c hc
    · have hstands := h.stands id c hc
      refine hstands.congr hdelivered (fun hd => answered c hc (hstands.answered hd)) ?_
      change (o.phase (f c).owner).link? = some (f c).link ↔ _
      rw [howner, hlink]
      exact Iff.rfl
    · intro hd queue
      rw [hdelivered] at hd
      rw [howner]
      exact h.arrived id c hc hd queue
    · intro hd hl
      rw [hlink] at hl
      rw [howner]
      exact (hoffers hd _ hid hl).2
    · intro hd link hi hl
      rw [hlink]
      exact (hoffers hd link hi hl).1
    · exact fun j hj => Or.inl ⟨j, hj, rfl, rfl, rfl⟩

/-- A handle gives its link away. -/
theorem Tidy.giveAway (h : o.Tidy) (hd : HandleId) (link : Link) (p : Phase)
    (offered : (o.phase hd).link? = some link) (offer : p.link? = none)
    (pending : ∀ queue, p ≠ .pending queue) (handles : o'.handles = o.handles)
    (phase : o'.phase = (o.setPhase hd p).phase) (creation : o'.creation? = o.creation?)
    (closings : ∀ i, i ≠ link.id → o'.closings i = o.closings i)
    (stages : ∀ i, i ≠ link.id → Job.stages o'.jobs i = Job.stages o.jobs i)
    (stands : ∀ c : Creation, c.delivered = true → c.making = .opened none → ∀ kept : Prop, ¬ kept →
      o.closings link.id = 0 → Job.stages o.jobs link.id = [] →
      c.Stands kept (o'.closings link.id) (Job.stages o'.jobs link.id))
    (jobs : ∀ j ∈ o'.jobs, j ∈ o.jobs ∨ j.id.link = link.id ∧ j.link = link ∧ j.owner = hd) :
    o'.Tidy := by
  obtain ⟨c, found, howner, hlink⟩ := h.offers hd link offered
  have hkeeps : o.Keeps c := by
    rw [Keeps, howner, hlink]
    exact offered
  obtain ⟨hdelivered, hmade, hzero, hnil⟩ := (h.stands _ c found).of_kept hkeeps
  have hne : o.phase hd ≠ .closed := by
    intro e
    rw [e] at offered
    contradiction
  have hlost : ∀ h' l, l.id = link.id → (o'.phase h').link? ≠ some l := by
    intro h' l hid hl
    rw [phase, link?_setPhase] at hl
    split at hl
    · rw [offer] at hl
      contradiction
    · rename_i hh
      obtain ⟨-, e⟩ := h.offers_eq (c := c) (by rw [hlink, found]) (by rw [hid, hlink]) hl
      exact hh (e.symm.trans howner)
  refine h.of_change link.id c handles ?_ closings stages ?_ ?_ ?_ ?_
    (h.owner _ c found) (by rw [hlink]) ?_ ?_ ?_ ?_ ?_
  · intro i
    rw [creation]
    split
    · rename_i hi
      rw [hi, found]
    · rfl
  · rw [phase]
    refine links_setPhase_iff ?_ ?_
    · intro l hl
      rw [← Option.some.inj (offered.symm.trans hl)]
    · intro l hl
      rw [offer] at hl
      contradiction
  · intro h' queue hp
    rw [phase] at hp
    exact pending_setPhase pending hp
  · rw [phase]
    exact h.unmade_setPhase hne p
  · intro c' hc'
    obtain rfl := Option.some.inj (found.symm.trans hc')
    exact ⟨rfl, rfl⟩
  · exact stands c hdelivered hmade _ (hlost _ _ (by rw [hlink])) hzero hnil
  · intro _ queue hp
    rw [phase] at hp
    exact h.arrived _ c found hdelivered queue (pending_setPhase pending hp)
  · intro h' hl
    exact absurd hl (hlost h' _ (by rw [hlink]))
  · intro h' l hid hl
    exact absurd hl (hlost h' l hid)
  · intro j hj
    rcases jobs j hj with hj | ⟨hid, hl, ho⟩
    · exact Or.inl ⟨j, hj, rfl, rfl, rfl⟩
    · exact Or.inr ⟨hid, hl.trans hlink.symm, howner.trans ho.symm⟩

theorem Tidy.release (h : o.Tidy) {hd : HandleId} {link : Link} {refs : Nat}
    (live : o.phase hd = .live link refs) :
    ((o.setPhase hd .closed).addJob ⟨⟨link.id, .close⟩, hd, link, .close⟩).Tidy := by
  refine h.giveAway hd link .closed (by rw [live]; rfl) rfl (by simp) rfl
    rfl rfl (fun _ _ => rfl) ?_ ?_ ?_
  · intro i hi
    change Job.stages (o.jobs ++ [_]) i = _
    rw [Job.stages_append, Job.stages_ne (Ne.symm hi), List.append_nil]
  · intro c hdelivered hmade kept hfree hzero hnil
    change Creation.Stands _ _ (o.closings link.id) (Job.stages (o.jobs ++ [_]) link.id)
    rw [hzero, Job.stages_append, hnil, List.nil_append]
    refine .spent hdelivered hmade hfree ?_
    rw [Job.stages_self ⟨⟨link.id, .close⟩, hd, link, .close⟩]
  · intro j hj
    rcases List.mem_append.mp hj with hj | hj
    · exact Or.inl hj
    · rw [List.mem_singleton.mp hj]
      exact Or.inr ⟨rfl, rfl, rfl⟩

theorem Tidy.force (h : o.Tidy) {hd : HandleId} {link : Link} {refs : Nat}
    (live : o.phase hd = .live link refs) :
    ((o.setPhase hd (.orphaned refs)).close link.id).Tidy := by
  refine h.giveAway hd link (.orphaned refs) (by rw [live]; rfl) rfl (by simp)
    rfl rfl rfl (fun _ => closings_close_ne o) (fun _ _ => rfl) ?_ fun j hj => Or.inl hj
  intro c hdelivered hmade kept hfree hzero hnil
  change Creation.Stands _ _ ((o.close link.id).closings link.id) (Job.stages o.jobs link.id)
  rw [closings_close_self, hzero, hnil]
  exact .asked hdelivered hmade hfree (List.nil_sublist _)

/-- Every step keeps the outline tidy. -/
theorem Step.tidy {kind : Kind} (step : Step kind o o') (h : o.Tidy) : o'.Tidy := by
  cases step with
  | @tend _ hd p alike =>
    refine h.setPhase ?_ ?_ ?_
    · generalize o.phase hd = q at alike
      cases alike <;> rfl
    · generalize o.phase hd = q at alike
      cases alike <;> simp
    · rintro queue rfl
      generalize o.phase hd = q at alike
      cases alike with
      | pending queue' => exact ⟨queue', rfl⟩
  | make => exact h.addHandle _ _
  | start owner link fresh undelivered key => exact h.start _ owner fresh undelivered
  | answer same answered => exact h.answer same answered
  | work split works => exact works.tidy h split
  | release last => exact h.release last
  | drain last => exact h.setPhase (by rw [last]; rfl) (by simp [last]) (by simp)
  | force live => exact h.force live
  | dismiss pending => exact h.setPhase (by rw [pending]; rfl) (by simp [pending]) (by simp)
  | abort fewer => exact h.withJobs fewer
  | discard rule fewer => exact h.withJobs fewer

/-- So does any number of steps. -/
theorem Chain.tidy {kinds : List Kind} (chain : Chain kinds o o') (h : o.Tidy) : o'.Tidy :=
  chain.keeps (fun _ _ _ _ => Step.tidy) h

end Outline

end SharedLinks
