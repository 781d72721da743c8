import Mathlib.Data.List.Find
import SharedLinks.Proofs.Effects
import SharedLinks.Proofs.Replies

/-!
# Keys stay apart

What concerns one key leaves all that belongs to other keys alone: their shelves, their jobs, and what
others see of their links and tickets (`Hub.Apart`). And it depends on nothing but what belongs to the
key: two hubs that agree on it, whatever else they keep, give the same reply, do the same things and
agree on it afterwards (`apart_play`). Only the names of new links come from a source that all keys
share.
-/

namespace SharedLinks

/-- The key that a link is for, if it came from a creation. -/
def LinkId.key? : LinkId → Option Key
  | .made k _ => some k
  | .brought _ => none

/-- The move is a call on the key, something done to a ticket of the key, or one run of a job that is
there for a handle of the key. -/
def Move.Concerns (w : Hub) (k : Key) : Move → Prop
  | .acquire j | .release j | .poll j _ | .park j _ | .drop j _ => j = k
  | .runJob id => ∃ j ∈ w.jobs, j.id = id ∧ j.owner.key = k
  | _ => False

namespace Hub

/-- The jobs for handles of a key. -/
def jobsOf (w : Hub) (k : Key) : List Job := w.jobs.filter fun j => j.owner.key = k

/-- The jobs for links of a key that can go on. -/
def readyOf (w : Hub) (k : Key) : List JobId := w.ready.filter fun id => id.link.key? = some k

/-- Two hubs agree on all that belongs to a key, and on whether they can be reached. -/
structure AgreeOn (k : Key) (w w' : Hub) : Prop where
  shelf : w'.shelf k = w.shelf k
  jobs : w'.jobsOf k = w.jobsOf k
  ready : w'.readyOf k = w.readyOf k
  provider : w'.provider k = w.provider k
  node : w'.node = w.node
  dispatch : w'.dispatch = w.dispatch
  clones : w'.clones = 0 ↔ w.clones = 0
  held : w'.isHeld = w.isHeld

/-- What belongs to other keys than this one is as it was, and nothing was seen of them. -/
structure Apart (k : Key) (w w' : Hub) : Prop where
  shelf : ∀ j, j ≠ k → w'.shelf j = w.shelf j
  jobs : ∀ j, j ≠ k → w'.jobsOf j = w.jobsOf j
  loose : w'.loose = w.loose
  keepers : w'.keepers = w.keepers
  events : ∃ es, w'.events = es ++ w.events ∧ ∀ e ∈ es, e.Within (· = k)

/-- The same things were seen since of both hubs, the names of new links aside, and the same was
counted. -/
structure Likewise (v v' w w' : Hub) : Prop where
  events : ∃ es es', w.events = es ++ v.events ∧ w'.events = es' ++ v'.events ∧
    es'.map Event.nameless = es.map Event.nameless
  counters : ∀ c, w'.counters.get c - v'.counters.get c = w.counters.get c - v.counters.get c

variable {k : Key} {v v' w w' u u' : Hub}

/-! ## Hubs that agree on a key -/

/-- Two hubs go alongside under one key. -/
def oneKey (k : Key) : Accord :=
  { keys := (· = k), places := True, asks := True, takes := True, names := False }

theorem AgreeOn.refl (k : Key) (w : Hub) : AgreeOn k w w :=
  ⟨rfl, rfl, rfl, rfl, rfl, rfl, Iff.rfl, rfl⟩

theorem AgreeOn.start (h : AgreeOn k w w') : Alongside (oneKey k) w w' w w' := by
  refine .start (fun j hj => ?_) (fun j hj => ?_) h.node (fun _ => h.held) False.elim
  · obtain rfl : j = k := hj
    rw [h.shelf]
    exact .refl _ _
  · obtain rfl : j = k := hj
    exact h.provider

/-- Hubs that have gone alongside from where they agreed agree still. -/
theorem AgreeOn.later (h : AgreeOn k v v') (along : Alongside (oneKey k) v v' w w') :
    AgreeOn k w w' := by
  have hshelf := (along.shelf k rfl).eq trivial
  have hheld := along.isHeld trivial
  obtain ⟨g, g', hg, hg', like⟩ := along.growth
  refine ⟨hshelf, ?_, ?_, ?_, ?_, ?_, ?_, hheld⟩
  · rw [jobsOf, hg'.jobs, like.jobs, List.filter_append, ← jobsOf, h.jobs, jobsOf, jobsOf, hg.jobs,
      List.filter_append]
  · rw [readyOf, hg'.ready, like.ready, List.filter_append, ← readyOf, h.ready, readyOf, readyOf,
      hg.ready, List.filter_append]
  · rw [hg'.provider, h.provider, hg.provider]
  · rw [hg'.node, h.node, hg.node]
  · rw [hg'.dispatch, h.dispatch, hg.dispatch]
  · rw [hg'.clones, h.clones, hg.clones]

theorem Alongside.likewise {a : Accord} (h : Alongside a v v' w w') : Likewise v v' w w' := by
  obtain ⟨g, g', hg, hg', like⟩ := h.growth
  refine ⟨⟨g.events, g'.events, hg.events, hg'.events, like.events⟩, fun c => ?_⟩
  have hsub : ∀ x y : UInt64, x + y - x = y := fun x y => by
    rw [UInt64.add_comm, UInt64.add_sub_cancel]
  rw [hg.counters, hg'.counters, hsub, hsub, like.counts]

theorem Alongside.apart (h : Alongside (oneKey k) v v' w w') : Apart k v w := by
  obtain ⟨g, -, hg, -, -⟩ := h.growth
  refine ⟨hg.shelf, fun j hj => ?_, hg.loose, hg.keepers, g.events, hg.events, hg.within⟩
  have hnone : g.jobs.filter (fun j' => j'.owner.key = j) = [] := by
    refine List.filter_eq_nil_iff.mpr fun j' hj' => ?_
    have hk : j'.owner.key = k := hg.owners j' hj'
    simpa [hk] using Ne.symm hj
  rw [jobsOf, hg.jobs, List.filter_append, hnone, List.append_nil, jobsOf]

/-! ## One run of a job -/

/-- The part of a job list that is for handles of a key, after some change that depends on the job. -/
theorem jobsOf_afterWork (w : Hub) (id : JobId) (left : Option Stage) (k : Key) :
    (w.afterWork id left).1.jobsOf k =
      match left with
      | none => (w.jobsOf k).filter fun j => j.id ≠ id
      | some stage => (w.jobsOf k).map fun j => if j.id = id then { j with stage := stage } else j := by
  cases left with
  | none => exact List.filter_comm _ _ _
  | some stage =>
    have hkey : ∀ j : Job, (if j.id = id then { j with stage := stage } else j).owner = j.owner := by
      intro j
      split <;> rfl
    change (w.jobs.map _).filter _ = _
    rw [List.filter_map]
    unfold jobsOf
    congr 1
    refine List.filter_congr fun j _ => ?_
    rw [Function.comp_apply, hkey]

theorem AgreeOn.unready (h : AgreeOn k w w') (id : JobId) :
    AgreeOn k (w.unready id) (w'.unready id) := by
  refine ⟨h.shelf, h.jobs, ?_, h.provider, h.node, h.dispatch, h.clones, h.held⟩
  change (w'.ready.filter _).filter _ = (w.ready.filter _).filter _
  rw [List.filter_comm, ← readyOf, h.ready, readyOf, List.filter_comm]

theorem AgreeOn.afterWork (h : AgreeOn k w w') (id : JobId) (left : Option Stage) :
    AgreeOn k (w.afterWork id left).1 (w'.afterWork id left).1 := by
  have hjobs : (w'.afterWork id left).1.jobsOf k = (w.afterWork id left).1.jobsOf k := by
    rw [jobsOf_afterWork, jobsOf_afterWork, h.jobs]
  cases left with
  | none =>
    exact ⟨h.shelf, hjobs, (h.unready id).ready, h.provider, h.node, h.dispatch, h.clones, h.held⟩
  | some stage => exact ⟨h.shelf, hjobs, h.ready, h.provider, h.node, h.dispatch, h.clones, h.held⟩

/-- A job that has worked is put away without a change for other keys than its own. -/
theorem Apart.afterWork (h : Apart k w w') (id : JobId)
    (hid : ∀ j ∈ w'.jobs, j.id = id → j.owner.key = k) (left : Option Stage) :
    Apart k w (w'.afterWork id left).1 := by
  have hjobs : ∀ j, j ≠ k → (w'.afterWork id left).1.jobsOf j = w.jobsOf j := by
    intro j hj
    have hne : ∀ j' ∈ w'.jobsOf j, j'.id ≠ id := by
      intro j' hm e
      obtain ⟨hm, hkey⟩ := List.mem_filter.mp hm
      exact hj ((of_decide_eq_true hkey).symm.trans (hid j' hm e))
    rw [jobsOf_afterWork, ← h.jobs j hj]
    cases left with
    | none => exact List.filter_eq_self.mpr fun j' hm => by simpa using hne j' hm
    | some stage =>
      refine (List.map_congr_left fun j' hm => ?_).trans (List.map_id _)
      rw [if_neg (hne j' hm), id_eq]
  cases left with
  | none => exact ⟨h.shelf, hjobs, h.loose, h.keepers, h.events⟩
  | some stage => exact ⟨h.shelf, hjobs, h.loose, h.keepers, h.events⟩

/-- A job of the key is the same one in hubs that agree on the key. -/
theorem AgreeOn.job? (h : AgreeOn k w w') (labelled : w.Labelled) (labelled' : w'.Labelled)
    {id : JobId} (hid : id.link.key? = some k) : w'.job? id = w.job? id := by
  have hjob : ∀ u : Hub, u.Labelled → u.job? id = (u.jobsOf k).find? fun j => j.id = id := by
    intro u hu
    rw [Hub.job?, jobsOf, List.find?_filter]
    refine List.find?_congr fun j hj => ?_
    obtain ⟨i, hlink, -⟩ := hu j hj
    by_cases e : j.id = id
    · rw [e] at hlink
      rw [hlink] at hid
      have hkey : j.owner.key = k := Option.some.inj hid
      simp [e, hkey]
    · simp [e]
  rw [hjob w' labelled', hjob w labelled, h.jobs]

/-! ## Moves that concern one key -/

/-- Nothing leads from what belongs to the key to another one. -/
structure Closed (k : Key) (w : Hub) : Prop where
  contained : w.Contained k
  labelled : w.Labelled

/-- What a move that concerns a key comes to in two hubs that agree on the key. -/
theorem AgreeOn.move (h : AgreeOn k w w') (closed : Closed k w) (closed' : Closed k w') {m : Move}
    (concerns : m.Concerns w k) :
    Apart k w (w.move m) ∧ AgreeOn k (w.move m) (w'.move m) ∧ Likewise w w' (w.move m) (w'.move m) ∧
      w'.reply m = w.reply m := by
  have hcontained : ∀ j, (oneKey k).keys j → w.Contained j := by
    rintro j rfl
    exact closed.contained
  have htail := Alongside.tail (a := oneKey k) trivial h.dispatch
  have hall : Alongside (oneKey k) w w' (w.move m) (w'.move m) ∧ w'.reply m = w.reply m →
      Apart k w (w.move m) ∧ AgreeOn k (w.move m) (w'.move m) ∧
        Likewise w w' (w.move m) (w'.move m) ∧ w'.reply m = w.reply m :=
    fun ⟨along, reply⟩ => ⟨along.apart, h.later along, along.likewise, reply⟩
  cases m with
  | acquire j =>
    exact hall (htail.move_call h.start hcontained trivial trivial h.clones concerns (Or.inl rfl))
  | release j =>
    exact hall (htail.move_call h.start hcontained trivial trivial h.clones concerns (Or.inr rfl))
  | poll j n => exact hall (htail.move_ticket h.start hcontained concerns n (Or.inl rfl))
  | park j n => exact hall (htail.move_ticket h.start hcontained concerns n (Or.inr (Or.inl rfl)))
  | drop j n => exact hall (htail.move_ticket h.start hcontained concerns n (Or.inr (Or.inr rfl)))
  | runJob id =>
    obtain ⟨j, hj, rfl, hkey⟩ := concerns
    have hlink : j.id.link.key? = some k := by
      obtain ⟨i, hlink, -⟩ := closed.labelled j hj
      rw [hlink, hkey]
      rfl
    obtain ⟨j', hfound⟩ : ∃ j', w.job? j.id = some j' :=
      Option.isSome_iff_exists.mp (List.find?_isSome.mpr ⟨j, hj, by simp⟩)
    have hfound' : w'.job? j.id = some j' := by
      rw [h.job? closed.labelled closed'.labelled hlink, hfound]
    have hm' : j' ∈ w.jobs := List.mem_of_find?_eq_some hfound
    have hid' : j'.id = j.id := by simpa using List.find?_some hfound
    have howner : ∀ j'' ∈ w.jobs, j''.id = j.id → j''.owner.key = k := by
      intro j'' hj'' e
      obtain ⟨i, hl, -⟩ := closed.labelled j'' hj''
      rw [← e, hl] at hlink
      exact Option.some.inj hlink
    have hkey' := howner j' hm' hid'
    have hunready := h.unready j.id
    obtain ⟨along, left⟩ := hunready.start.work (closed.labelled.worksWithin hm' hkey'
      (hkey' ▸ closed.contained) j.id)
    change Apart k w (w.runJob j.id).1 ∧ AgreeOn k (w.runJob j.id).1 (w'.runJob j.id).1 ∧
      Likewise w w' (w.runJob j.id).1 (w'.runJob j.id).1 ∧
        Reply.ran (w'.runJob j.id).2 = Reply.ran (w.runJob j.id).2
    rw [runJob_of_some hfound, runJob_of_some hfound', left]
    have hafter := (hunready.later along).afterWork j.id ((w.unready j.id).work j').2
    have hapart : Apart k w ((w.unready j.id).work j').1 := by
      obtain ⟨shelf, jobs, loose, keepers, events⟩ := along.apart
      exact ⟨shelf, jobs, loose, keepers, events⟩
    have hlikewise := along.likewise
    have hput := hapart.afterWork j.id (by rwa [jobs_work]) ((w.unready j.id).work j').2
    generalize ((w.unready j.id).work j').2 = left at hafter hput ⊢
    cases left with
    | none => exact ⟨hput, hafter, ⟨hlikewise.events, hlikewise.counters⟩, rfl⟩
    | some stage => exact ⟨hput, hafter, ⟨hlikewise.events, hlikewise.counters⟩, rfl⟩
  | tearDown | pollTeardown | dropTeardown | abortJob | answerMaking | answerClosing | clone
  | dropClone => exact False.elim concerns

section Build

variable {settings : Settings} {seed : UInt64} {ambient : Option Dispatch} {w₀ : Hub}

/-- Whatever has happened to a hub, a move that concerns one key leaves alone what belongs to others.
Whatever has happened to another hub, and whatever it keeps for others, if it agrees on what belongs
to the key, then it gives the same reply, agrees afterwards, and the same is seen of it since. -/
theorem apart_play (built : settings.build seed ambient = .ok w₀) (ms : List Move) (k : Key)
    (m : Move) (concerns : m.Concerns (w₀.play ms) k) :
    Apart k (w₀.play ms) ((w₀.play ms).move m) ∧
    ∀ {settings' : Settings} {seed' : UInt64} {ambient' : Option Dispatch} {w₀' : Hub},
      settings'.build seed' ambient' = .ok w₀' → ∀ ms' : List Move,
      AgreeOn k (w₀.play ms) (w₀'.play ms') →
      (w₀'.play ms').reply m = (w₀.play ms).reply m ∧
      AgreeOn k ((w₀.play ms).move m) ((w₀'.play ms').move m) ∧
      Likewise (w₀.play ms) (w₀'.play ms') ((w₀.play ms).move m) ((w₀'.play ms').move m) := by
  have hclosed : Closed k (w₀.play ms) := ⟨contained_play built ms k, labelled_play built ms⟩
  refine ⟨((AgreeOn.refl k _).move hclosed hclosed concerns).1, ?_⟩
  intro settings' seed' ambient' w₀' built' ms' agree
  have hclosed' : Closed k (w₀'.play ms') := ⟨contained_play built' ms' k, labelled_play built' ms'⟩
  obtain ⟨-, hagree, hlikewise, hreply⟩ := agree.move hclosed hclosed' concerns
  exact ⟨hreply, hagree, hlikewise⟩

/-- A key with a colon in its path. -/
def plainKey : Key := ⟨"a:b", none⟩

/-- A key that prints like it. -/
def joinedKey : Key := ⟨"a", some "b"⟩

/-- Both keys are asked for, and the link of the one arrives. -/
def askBoth : List Move :=
  [.acquire joinedKey, .acquire plainKey, .runJob ⟨.made joinedKey 0, .create⟩]

/-- Then the link of the other arrives. -/
def plainArrives : Move := .runJob ⟨.made plainKey 0, .create⟩

/-- This leaves the first key alone, and is the same in a hub in which nobody ever asked for that. -/
theorem apart_play_askBoth :
    (plainKey.text = joinedKey.text ∧ AgreeOn plainKey (sample.play askBoth)
      (sample.play [.acquire plainKey])) ∧
    Apart plainKey (sample.play askBoth) ((sample.play askBoth).move plainArrives) ∧
    AgreeOn plainKey ((sample.play askBoth).move plainArrives)
      ((sample.play [.acquire plainKey]).move plainArrives) := by
  have hagree : AgreeOn plainKey (sample.play askBoth) (sample.play [.acquire plainKey]) :=
    ⟨rfl, by decide, by decide, rfl, rfl, rfl, by decide, by decide⟩
  have hjob : ∃ j ∈ (sample.play askBoth).jobs, j.id = ⟨.made plainKey 0, .create⟩ ∧
      j.owner.key = plainKey := by
    decide
  obtain ⟨hapart, halike⟩ := apart_play build_sample askBoth plainKey plainArrives hjob
  exact ⟨⟨rfl, hagree⟩, hapart, (halike build_sample [.acquire plainKey] hagree).2.1⟩

end Build

end Hub

end SharedLinks
