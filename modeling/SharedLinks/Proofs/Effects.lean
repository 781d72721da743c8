import SharedLinks.Proofs.Arrivals
import SharedLinks.Proofs.Outline

/-!
# What calls do to the outline of a hub

Each call of a hub comes to some steps of its outline. `works_work` says which of the changes of
`Outline.Works` one run of a job makes, `spawns_spawn` what becomes of a new job, and the lemmas after
them what the calls on handles and keys come to. `chain_move` puts them together: every move is a
chain of steps, and of what kinds depends on the move alone.
-/

namespace SharedLinks

open Outline (Works Chain)

namespace Outline

variable {j : Job} {o o' : Outline} {left : Option Stage}

/-- What a job does has nothing to do with other jobs. -/
theorem Works.withJobs (h : Works j o left o') (jobs : List Job) :
    Works j (o.withJobs jobs) left (o'.withJobs jobs) := by
  cases h with
  | wait awaits => exact .wait awaits
  | granted awaits found made pending => exact .granted awaits found made pending
  | unwanted awaits found made pending rest => exact .unwanted awaits found made pending rest
  | late awaits found made gone rest => exact .late awaits found made gone rest
  | failed awaits found made pending => exact .failed awaits found made pending
  | failedLate awaits found made gone => exact .failedLate awaits found made gone
  | close closes rest => exact .close closes rest
  | done awaits rest => exact .done awaits rest

/-- A run of a job adds no job. -/
theorem Works.jobs (h : Works j o left o') : o'.jobs = o.jobs := by
  cases h <;> rfl

/-- What becomes of a new job, as the rule for new jobs says. -/
inductive Spawns (j : Job) (o : Outline) : Outline → Prop where
  /-- It waits until somebody runs it. -/
  | kept (rule : o.dispatch = .queue) : Spawns j o (o.addJob j)
  /-- It is run at once. -/
  | run {left : Option Stage} {o' : Outline} (rule : o.dispatch = .inline)
      (works : Works j o left o') : Spawns j o (o'.withJobs (o.jobs ++ j.left left))
  /-- It is thrown away. -/
  | discarded (rule : o.dispatch = .discard) : Spawns j o o

/-- The steps that a new job takes at once. -/
theorem Spawns.chain (h : Spawns j o o') : Chain [.work, .discard] (o.addJob j) o' := by
  cases h with
  | kept => exact .refl _
  | run rule works =>
    have hsplit : (o.addJob j).jobs = o.jobs ++ j :: [] := rfl
    have hstep := Step.work hsplit (works.withJobs _)
    rw [List.append_nil] at hstep
    exact .single hstep (by decide)
  | discarded rule =>
    exact .single (Step.discard (o := o.addJob j) rule (List.sublist_append_left ..)) (by decide)

/-- What giving a reference back to a handle does. -/
inductive GivesBack (h : HandleId) (o : Outline) : Outline → Prop where
  /-- There was none. -/
  | vain : GivesBack h o o
  /-- It was not the last one. -/
  | tend {p : Phase} (alike : (o.phase h).Alike p) : GivesBack h o (o.setPhase h p)
  /-- It was the last one on an orphan. -/
  | drain (last : o.phase h = .orphaned 1) : GivesBack h o (o.setPhase h .closed)
  /-- It was the last one on a link, which a new job closes. -/
  | release {o' : Outline} {link : Link} (last : o.phase h = .live link 1)
      (spawns : Spawns ⟨⟨link.id, .close⟩, h, link, .close⟩ (o.setPhase h .closed) o') :
      GivesBack h o o'

/-- A handle asks the provider for a link, and a new job awaits it. -/
inductive Starts (h : HandleId) (k : Key) (o : Outline) : Outline → Prop where
  | intro {o' : Outline} {i : Nat} {c : Creation} {r : Request} (owner : c.owner = h)
      (link : c.link.id = .made k i) (fresh : o.creation? c.link.id = none)
      (undelivered : c.delivered = false) (key : r.key = k)
      (spawns : Spawns ⟨⟨c.link.id, .create⟩, h, c.link, .awaitLink⟩ (o.request c r) o') :
      Starts h k o o'

/-- What asking for links does: a handle takes the tickets in, or a new one is made for them. -/
inductive Asks (o : Outline) : Outline → Prop where
  | rest : Asks o o
  | tend {h : HandleId} {p : Phase} (alike : (o.phase h).Alike p) : Asks o (o.setPhase h p)
  | opened {o' : Outline} {k : Key} {queue : List TicketId}
      (starts : Starts ⟨k, o.handles k⟩ k (o.addHandle k (.pending queue)) o') : Asks o o'

/-- What closing a handle regardless of its holders does. -/
inductive ForceCloses (h : HandleId) (o : Outline) : Outline → Prop where
  /-- It has no link any more. -/
  | rest : ForceCloses h o o
  /-- Its link is asked to close. -/
  | force {link : Link} {refs : Nat} (live : o.phase h = .live link refs) :
      ForceCloses h o ((o.setPhase h (.orphaned refs)).close link.id)
  /-- It ends, and its tickets ask elsewhere. -/
  | dismiss {o' : Outline} {queue : List TicketId} (pending : o.phase h = .pending queue)
      (asks : Asks (o.setPhase h .closed) o') : ForceCloses h o o'

/-- What closing some handles in order does. -/
inductive TearsDown : List HandleId → Outline → Outline → Prop where
  | nil (o : Outline) : TearsDown [] o o
  | cons {h : HandleId} {hs : List HandleId} {o o' o'' : Outline} (first : ForceCloses h o o')
      (rest : TearsDown hs o' o'') : TearsDown (h :: hs) o o''

/-- The kinds of steps of calls that give references back. -/
def Kind.giving : List Kind := [.tend, .release, .drain, .work, .discard]

/-- The kinds of steps of calls that ask for links. -/
def Kind.asking : List Kind := [.tend, .make, .start, .work, .discard]

/-- The kinds of steps of a teardown. -/
def Kind.tearing : List Kind := [.force, .dismiss, .tend, .make, .start, .work, .discard]

theorem GivesBack.chain {h : HandleId} (hg : GivesBack h o o') : Chain Kind.giving o o' := by
  cases hg with
  | vain => exact .refl o
  | tend alike => exact .single (.tend alike) (by decide)
  | drain last => exact .single (.drain last) (by decide)
  | release last spawns =>
    exact (Chain.single (.release last) (by decide)).trans (spawns.chain.mono (by decide))

theorem Starts.chain {h : HandleId} {k : Key} (hs : Starts h k o o') (made : o.HasMade h) :
    Chain [.start, .work, .discard] o o' := by
  obtain ⟨rfl, link, fresh, undelivered, key, spawns⟩ := hs
  exact (Chain.single (.start made link fresh undelivered key) (by decide)).trans
    (spawns.chain.mono (by decide))

theorem hasMade_addHandle (o : Outline) (k : Key) (p : Phase) :
    (o.addHandle k p).HasMade ⟨k, o.handles k⟩ := by
  simp [HasMade, addHandle]

theorem Asks.chain (ha : Asks o o') : Chain Kind.asking o o' := by
  cases ha with
  | rest => exact .refl o
  | tend alike => exact .single (.tend alike) (by decide)
  | opened starts =>
    exact (Chain.single (.make o _ _) (by decide)).trans
      ((starts.chain (hasMade_addHandle o _ _)).mono (by decide))

theorem ForceCloses.chain {h : HandleId} (hf : ForceCloses h o o') : Chain Kind.tearing o o' := by
  cases hf with
  | rest => exact .refl o
  | force live => exact .single (.force live) (by decide)
  | dismiss pending asks =>
    exact (Chain.single (.dismiss pending) (by decide)).trans (asks.chain.mono (by decide))

theorem TearsDown.chain {hs : List HandleId} (ht : TearsDown hs o o') :
    Chain Kind.tearing o o' := by
  induction ht with
  | nil => exact .refl _
  | cons first _ ih => exact first.chain.trans ih

/-- What a call does, by the kinds of steps that it may take. -/
inductive Does : List Kind → Outline → Outline → Prop where
  | rest (kinds : List Kind) (o : Outline) : Does kinds o o
  | makes (o : Outline) (k : Key) (queue : List TicketId) :
      Does [.make] o (o.addHandle k (.pending queue))
  | starts {o o' : Outline} {h : HandleId} {k : Key} (made : o.HasMade h)
      (starts : Starts h k o o') : Does [.start, .work, .discard] o o'
  | answers {o : Outline} {id : LinkId} {f : Creation → Creation}
      (same : ∀ c, (f c).owner = c.owner ∧ (f c).link = c.link ∧ (f c).delivered = c.delivered)
      (answered : ∀ c, o.creation? id = some c → c.making ≠ .shut → (f c).making = c.making) :
      Does [.answer] o (o.onCreation id f)
  | works {o o' : Outline} {j : Job} {pre post : List Job} {left : Option Stage}
      (split : o.jobs = pre ++ j :: post) (works : Works j o left o') :
      Does [.work] o (o'.withJobs (pre ++ j.left left ++ post))
  | aborts {o : Outline} {jobs : List Job} (fewer : jobs.Sublist o.jobs) :
      Does [.abort] o (o.withJobs jobs)
  | gives {o o' : Outline} {h : HandleId} (gives : GivesBack h o o') : Does Kind.giving o o'
  | asks {o o' : Outline} (asks : Asks o o') : Does Kind.asking o o'
  | tears {o o' : Outline} {hs : List HandleId} (tears : TearsDown hs o o') :
      Does Kind.tearing o o'

theorem Does.chain {kinds : List Kind} (hd : Does kinds o o') : Chain kinds o o' := by
  cases hd with
  | rest => exact .refl o
  | makes => exact .single (.make o _ _) (by decide)
  | starts made starts => exact starts.chain made
  | answers same answered => exact .single (.answer same answered) (by decide)
  | works split works => exact .single (.work split works) (by decide)
  | aborts fewer => exact .single (.abort fewer) (by decide)
  | gives gives => exact gives.chain
  | asks asks => exact asks.chain
  | tears tears => exact tears.chain

end Outline

namespace Hub

variable {w : Hub}

/-! ## Jobs -/

/-- A link that reaches its handle opens it for good, or has to be closed again. -/
theorem outline_fulfil (w : Hub) (h : HandleId) (link : Link) :
    (∃ queue, w.phase h = .pending queue ∧
      ((w.fulfil h link).2 = false ∧
        (∃ refs, (w.fulfil h link).1.outline = w.outline.setPhase h (.live link refs)) ∨
      (w.fulfil h link).2 = true ∧
        (w.fulfil h link).1.outline = w.outline.setPhase h .closed)) ∨
    (∀ queue, w.phase h ≠ .pending queue) ∧ (w.fulfil h link).2 = true ∧
      (w.fulfil h link).1.outline = w.outline := by
  unfold fulfil
  cases hp : w.phase h with
  | pending queue =>
    have hgrant := outline_grant w h link queue
    have hne : w.outline.phase h ≠ .closed := by
      change w.phase h ≠ .closed
      simp [hp]
    refine Or.inl ⟨queue, rfl, ?_⟩
    simp only
    generalize w.grant h link queue = g at hgrant
    obtain ⟨w', refs⟩ := g
    simp only at hgrant ⊢
    split
    · refine Or.inr ⟨rfl, ?_⟩
      rw [outline_count, outline_forget, outline_note]
      exact outline_setPhase_of_eq ((outline_note w' _).trans hgrant) hne _
    · exact Or.inl ⟨rfl, refs, outline_setPhase_of_eq ((outline_note w' _).trans hgrant) hne _⟩
  | closed => exact Or.inr ⟨by simp, rfl, rfl⟩
  | live l refs => exact Or.inr ⟨by simp, rfl, rfl⟩
  | orphaned refs => exact Or.inr ⟨by simp, rfl, rfl⟩

/-- A failure that reaches its handle ends it, if it was waiting. -/
theorem outline_fail (w : Hub) (h : HandleId) (failure : String) :
    (∃ queue, w.phase h = .pending queue ∧
      (w.fail h failure).outline = w.outline.setPhase h .closed) ∨
    (∀ queue, w.phase h ≠ .pending queue) ∧ (w.fail h failure).outline = w.outline := by
  unfold fail
  simp only
  rw [show ∀ n c, ((w.note n).count c).phase h = w.phase h from fun _ _ => rfl]
  cases hp : w.phase h with
  | pending queue =>
    refine Or.inl ⟨queue, rfl, ?_⟩
    rw [outline_refuse, outline_forget]
    exact outline_setPhase_of_eq rfl (by change w.phase h ≠ .closed; simp [hp]) _
  | closed => exact Or.inr ⟨by simp, rfl⟩
  | live l refs => exact Or.inr ⟨by simp, rfl⟩
  | orphaned refs => exact Or.inr ⟨by simp, rfl⟩

@[simp] theorem outline_workAwaitClose (w : Hub) (j : Job) :
    (w.workAwaitClose j).1.outline = w.outline := by
  have h := outline_awaitClose w j.owner j.link
  unfold workAwaitClose
  split <;> simp_all

theorem outline_workClose (w : Hub) (j : Job) :
    (w.workClose j).1.outline = w.outline.close j.link.id :=
  (outline_workAwaitClose _ j).trans (outline_beginClose w j.owner j.link)

theorem left_workClose (w : Hub) (j : Job) : ∀ s ∈ (w.workClose j).2, s = .awaitClose :=
  fun _ hs => stage_workAwaitClose _ j hs

/-- What the provider has answered, and to what creation. -/
theorem creation_of_making {id : LinkId} {answer : Option String}
    (h : w.making id = .opened answer) :
    ∃ c, w.outline.creation? id = some c ∧ c.making = .opened answer := by
  unfold making at h
  cases hc : w.creation? id with
  | none => simp [hc] at h
  | some c => exact ⟨c, hc, by simpa [hc] using h⟩

/-- What one run of a job does to the outline. -/
theorem works_work (w : Hub) (j : Job) : Works j w.outline (w.work j).2 (w.work j).1.outline := by
  unfold work
  cases hstage : j.stage with
  | close =>
    simp only
    rw [outline_workClose]
    exact .close hstage (left_workClose w j)
  | awaitClose =>
    simp only
    rw [outline_workAwaitClose]
    exact .done hstage fun _ hs => stage_workAwaitClose w j hs
  | awaitLink =>
    simp only
    cases hmaking : w.making j.link.id with
    | shut => exact .wait hstage
    | opened answer =>
      obtain ⟨c, found, made⟩ := creation_of_making hmaking
      have hmark := outline_markDelivered w j.link.id
      have hphase : (w.markDelivered j.link.id).phase = w.phase := congrArg Outline.phase hmark
      cases answer with
      | some failure =>
        simp only
        rcases outline_fail (w.markDelivered j.link.id) j.owner failure with
          ⟨queue, hp, he⟩ | ⟨hp, he⟩
        · rw [he, hmark]
          have hpending : w.outline.phase j.owner = .pending queue := by
            rw [← hp, hphase]
            rfl
          exact .failed hstage found made hpending
        · rw [he, hmark]
          exact .failedLate hstage found made fun queue => by
            have := hp queue
            rwa [hphase] at this
      | none =>
        have hfulfil := outline_fulfil (w.markDelivered j.link.id) j.owner j.link
        simp only
        generalize (w.markDelivered j.link.id).fulfil j.owner j.link = r at hfulfil
        obtain ⟨w', again⟩ := r
        rw [hmark, hphase] at hfulfil
        rcases hfulfil with ⟨queue, hp, ⟨rfl, refs, he⟩ | ⟨rfl, he⟩⟩ | ⟨hp, rfl, he⟩
        · simp only at he ⊢
          rw [he]
          exact .granted hstage found made hp
        · simp only at he ⊢
          rw [outline_workClose, he]
          exact .unwanted hstage found made hp (left_workClose w' j)
        · simp only at he ⊢
          rw [outline_workClose, he]
          exact .late hstage found made hp (left_workClose w' j)

theorem jobs_work (w : Hub) (j : Job) : (w.work j).1.jobs = w.jobs := (works_work w j).jobs

theorem spawns_spawn (w : Hub) (j : Job) : Outline.Spawns j w.outline (w.spawn j).outline := by
  unfold spawn
  split
  · rename_i hd
    exact .kept hd
  · rename_i hd
    have hworks := works_work w j
    generalize w.work j = r at hworks
    obtain ⟨w', left⟩ := r
    have hrun := Outline.Spawns.run hd hworks
    rw [← hworks.jobs] at hrun
    cases left with
    | none =>
      rw [Job.left, Option.map_none, Option.toList_none, List.append_nil] at hrun
      exact hrun
    | some stage => exact hrun
  · rename_i hd
    exact .discarded hd

/-- One run of a job, where no two jobs have the same name. -/
theorem does_runJob (distinct : (w.jobs.map (·.id)).Nodup) (id : JobId) :
    Outline.Does [.work] w.outline (w.runJob id).1.outline := by
  unfold runJob
  cases hfind : w.job? id with
  | none => exact .rest _ _
  | some j =>
    obtain ⟨hid, pre, post, hsplit, hpre⟩ := List.find?_eq_some_iff_append.mp hfind
    have hid : j.id = id := by simpa using hid
    rw [hsplit, List.map_append, List.map_cons, List.nodup_append, List.nodup_cons] at distinct
    have hpost : ∀ j' ∈ post, j'.id ≠ id := by
      rintro j' hj' rfl
      exact distinct.2.1.1 (hid ▸ List.mem_map_of_mem hj')
    have hpre : ∀ j' ∈ pre, j'.id ≠ id := by simpa using hpre
    have hworks := works_work (w.unready id) j
    have hdoes := Outline.Does.works (o := w.outline) hsplit hworks
    simp only
    generalize (w.unready id).work j = r at hworks hdoes
    obtain ⟨w', left⟩ := r
    have hjobs : w'.jobs = pre ++ j :: post := hworks.jobs.trans hsplit
    -- the job is the only one of its name, so the others stay as they are
    cases left with
    | none =>
      have he : w'.jobs.filter (fun j' => j'.id ≠ id) = pre ++ post := by
        rw [hjobs, List.filter_append, List.filter_cons_of_neg (by simp [hid]),
          List.filter_eq_self.mpr (by simpa using hpre),
          List.filter_eq_self.mpr (by simpa using hpost)]
      rw [Job.left, Option.map_none, Option.toList_none, List.append_nil, ← he] at hdoes
      exact hdoes
    | some stage =>
      have he : w'.jobs.map (fun j' => if j'.id = id then { j' with stage := stage } else j') =
          pre ++ [{ j with stage := stage }] ++ post := by
        have hkeep : ∀ js : List Job, (∀ j' ∈ js, j'.id ≠ id) →
            js.map (fun j' => if j'.id = id then { j' with stage := stage } else j') = js := by
          intro js hjs
          refine (List.map_congr_left fun j' hj' => ?_).trans (List.map_id js)
          exact if_neg (hjs j' hj')
        rw [hjobs, List.map_append, List.map_cons, hkeep pre hpre, hkeep post hpost, if_pos hid]
        simp
      rw [Job.left, Option.map_some, Option.toList_some, ← he] at hdoes
      exact hdoes

/-! ## Handles -/

theorem givesBack_giveBack (w : Hub) (h : HandleId) (report : Bool) :
    Outline.GivesBack h w.outline (w.giveBack h report).1.outline := by
  have hne : ∀ {p : Phase}, w.phase h = p → p ≠ .closed → w.outline.phase h ≠ .closed :=
    fun e hp => by rw [← e] at hp; exact hp
  unfold giveBack
  split
  · rename_i link refs hp
    rw [outline_count, outline_setPhase_of_eq rfl (hne hp (by simp))]
    exact .tend (by rw [show w.outline.phase h = _ from hp]; exact .live _ _ _)
  · rename_i link hp
    have hs := spawns_spawn ((((w.setPhase h .closed).forget h.key h).count .releases).count .closes)
      ⟨⟨link.id, .close⟩, h, link, .close⟩
    rw [outline_count, outline_count, outline_forget,
      outline_setPhase_of_eq rfl (hne hp (by simp))] at hs
    exact .release hp hs
  · rename_i refs hp
    rw [outline_count, outline_setPhase_of_eq rfl (hne hp (by simp))]
    exact .tend (by rw [show w.outline.phase h = _ from hp]; exact .orphaned _ _)
  · rename_i hp
    simp only
    rw [outline_note, outline_count, outline_forget,
      outline_setPhase_of_eq rfl (hne hp (by simp))]
    exact .drain hp
  · simp only
    split <;> exact .vain

/-- A creation is requested from the provider. -/
theorem outline_request (w : Hub) (k : Key) {c : Creation} {r : Request}
    (link : c.link.id = .made k (w.shelf k).creations.length) :
    ((w.emit (.create c.link.id r)).onShelf k fun s =>
      { s with creations := s.creations ++ [c] }).outline = w.outline.request c r := by
  generalize hw' : ((w.emit (.create c.link.id r)).onShelf k fun s =>
    { s with creations := s.creations ++ [c] }) = w'
  have hshelf : ∀ j, (w'.shelf j).phases = (w.shelf j).phases ∧ (w'.shelf j).creations =
      if j = k then (w.shelf k).creations ++ [c] else (w.shelf j).creations := by
    intro j
    rw [← hw']
    by_cases hj : j = k
    · subst hj
      rw [shelf_onShelf_self, if_pos rfl]
      exact ⟨rfl, rfl⟩
    · rw [shelf_onShelf_ne _ hj, if_neg hj]
      exact ⟨rfl, rfl⟩
  have hevents : w'.events = .create c.link.id r :: w.events := by
    rw [← hw']
    rfl
  have hphase : w'.phase = w.phase := by
    funext h
    rw [phase, (hshelf h.key).1, phase]
  have hcreation : w'.creation? = fun id => if id = c.link.id then some c else w.creation? id := by
    funext id
    cases id with
    | brought name => simp [creation?, link]
    | made j n =>
      rw [creation?, (hshelf j).2, creation?, link]
      by_cases hj : j = k
      · subst hj
        simp only [if_pos, LinkId.made.injEq, true_and]
        rcases Nat.lt_trichotomy n (w.shelf j).creations.length with hlt | rfl | hgt
        · rw [List.getElem?_append_left hlt, if_neg (by omega)]
        · simp
        · rw [List.getElem?_append_right (by omega), List.getElem?_eq_none (by simp; omega),
            List.getElem?_eq_none (by omega), if_neg (by omega)]
      · simp [hj]
  have hrest : w'.jobs = w.jobs ∧ w'.dispatch = w.dispatch := by
    rw [← hw']
    exact ⟨rfl, rfl⟩
  unfold outline Outline.request
  simp only [hphase, hshelf, hcreation, hevents, hrest]
  congr 1
  · funext id
    by_cases hid : id = c.link.id
    · simp [Event.request?, hid]
    · simp [Event.request?, hid, Ne.symm hid]

/-- The request shows, and then the job; the rest of the preparations do not. -/
theorem starts_spawn (w : Hub) (namer : Namer) (n : Notice) (k : Key) {c : Creation} {r : Request}
    (link : c.link.id = .made k (w.shelf k).creations.length) (undelivered : c.delivered = false)
    (key : r.key = k) :
    Outline.Starts c.owner k w.outline
      (((((({ w with namer := namer }.note n).count .creations).emit
        (.create c.link.id r)).onShelf k fun s => { s with creations := s.creations ++ [c] }).spawn
          ⟨⟨c.link.id, .create⟩, c.owner, c.link, .awaitLink⟩).outline) := by
  have hspawns := spawns_spawn (((({ w with namer := namer }.note n).count .creations).emit
    (.create c.link.id r)).onShelf k fun s => { s with creations := s.creations ++ [c] })
      ⟨⟨c.link.id, .create⟩, c.owner, c.link, .awaitLink⟩
  have hrequest := outline_request (c := c) (r := r)
    (({ w with namer := namer }.note n).count .creations) k link
  rw [outline_count, outline_note, outline_namer] at hrequest
  rw [hrequest] at hspawns
  refine .intro rfl link ?_ undelivered key hspawns
  rw [link]
  exact List.getElem?_eq_none (Nat.le_refl _)

theorem starts_startCreation (w : Hub) (h : HandleId) (k : Key) :
    Outline.Starts h k w.outline (w.startCreation h k).outline := by
  unfold startCreation
  extract_lets request index prospect link creation
  exact starts_spawn w w.namer.advance (.creating h.key request.linkName request.target) k
    (c := creation) (r := request) rfl rfl rfl

theorem asks_openHandle (w : Hub) (k : Key) (queue : List TicketId) :
    Outline.Asks w.outline (w.openHandle k queue).outline := by
  have hs := starts_startCreation ((w.addHandle k (.pending queue)).setServing k
    (some (w.nextHandle k))) (w.nextHandle k) k
  rw [outline_setServing, outline_addHandle] at hs
  exact .opened hs

theorem asks_join (w : Hub) (h : HandleId) : Outline.Asks w.outline (w.join h).1.outline := by
  unfold join
  split
  · rename_i link refs hp
    simp only
    rw [outline_count, outline_setPhase_of_eq (outline_addTicket w _ _)
      (by rw [show w.outline.phase h = _ from hp]; simp)]
    exact .tend (by rw [show w.outline.phase h = _ from hp]; exact .live _ _ _)
  · rename_i queue hp
    simp only
    rw [outline_count, outline_setPhase_of_eq (outline_addTicket w _ _)
      (by rw [show w.outline.phase h = _ from hp]; simp)]
    exact .tend (by rw [show w.outline.phase h = _ from hp]; exact .pending _ _)
  · exact .rest
  · exact .rest

theorem asks_joinFresh (w : Hub) (k : Key) :
    Outline.Asks w.outline (w.joinFresh k).1.outline := by
  have h := asks_openHandle ((w.addTicket k .fresh).count .waits) k [w.nextTicket k]
  rw [outline_count, outline_addTicket] at h
  exact h

theorem asks_acquire (w : Hub) (k : Key) : Outline.Asks w.outline (w.acquire k).1.outline := by
  unfold acquire
  simp only
  split
  · exact asks_joinFresh (w.count .acquires) k
  · rename_i h _
    have hjoin := asks_join (w.count .acquires) h
    split
    · rename_i heq
      rw [heq] at hjoin
      exact hjoin
    · rename_i w' heq
      have hsame : w'.outline = w.outline := by
        unfold join at heq
        split at heq
        · simp at heq
        · simp at heq
        all_goals
          obtain ⟨rfl, -⟩ := Prod.mk.inj heq
          rfl
      have := asks_joinFresh (w'.note (.acquireRetried k)).purge k
      rw [outline_purge, outline_note, hsame] at this
      exact this

theorem asks_adopt {w' : Hub} {h : HandleId} {ids : List TicketId}
    (hw : w.adopt h ids = .ok w') : Outline.Asks w.outline w'.outline := by
  unfold adopt at hw
  split at hw
  · rename_i queue hp
    obtain rfl := Except.ok.inj hw
    rw [outline_setPhase_of_eq rfl (by rw [show w.outline.phase h = _ from hp]; simp)]
    exact .tend (by rw [show w.outline.phase h = _ from hp]; exact .pending _ _)
  · rename_i link refs hp
    obtain rfl := Except.ok.inj hw
    rw [outline_countBy, outline_setPhase_of_eq (outline_grant w h link ids)
      (by rw [show w.outline.phase h = _ from hp]; simp)]
    exact .tend (by rw [show w.outline.phase h = _ from hp]; exact .live _ _ _)
  · contradiction
  · contradiction

theorem asks_requeue (w : Hub) (k : Key) (ids : List TicketId) :
    Outline.Asks w.outline (w.requeue k ids).outline := by
  unfold requeue
  split
  · exact .rest
  · split
    · exact asks_openHandle w k _
    · split
      · rename_i hadopt
        exact asks_adopt hadopt
      · rename_i refused _
        have := asks_openHandle w.purge k refused
        rwa [outline_purge] at this

/-! ## Teardowns -/

theorem forceCloses_forceClose (w : Hub) (h : HandleId) :
    Outline.ForceCloses h w.outline (w.forceClose h).1.outline := by
  unfold forceClose
  split
  · rename_i link refs hp
    simp only
    rw [outline_awaitPart, outline_beginClose, outline_note, outline_count,
      outline_setPhase_of_eq (outline_note w _)
        (by rw [show w.outline.phase h = _ from hp]; simp)]
    exact .force hp
  · rename_i queue hp
    have hclosed : ((w.setPhase h .closed).forget h.key h).outline = w.outline.setPhase h .closed := by
      rw [outline_forget]
      exact outline_setPhase_of_eq rfl (by rw [show w.outline.phase h = _ from hp]; simp) _
    refine .dismiss hp ?_
    rw [← hclosed]
    simp only
    split
    · exact .rest
    · have := asks_requeue (((w.setPhase h .closed).forget h.key h).note
        (.requeueing h.key queue.length)) h.key queue
      rwa [outline_note] at this
  · exact .rest
  · exact .rest

theorem tearsDown_forceCloseEach (w : Hub) (hs : List HandleId) :
    Outline.TearsDown hs w.outline (w.forceCloseEach hs).1.outline := by
  induction hs generalizing w with
  | nil => exact .nil _
  | cons h hs ih => exact .cons (forceCloses_forceClose w h) (ih _)

theorem outline_unlinkAll (w : Hub) (wish : List Key) :
    (w.unlinkAll wish).1.outline = w.outline := by
  unfold unlinkAll
  dsimp only
  generalize w.servedInOrder wish = ks
  induction ks generalizing w with
  | nil => rfl
  | cons k ks ih => exact (ih (w.unlink k)).trans (outline_unlink w k)

theorem tearsDown_beginTeardown (w : Hub) (scope : Scope) (wish : List Key) :
    ∃ hs, Outline.TearsDown hs w.outline (w.beginTeardown scope wish).1.outline := by
  cases scope with
  | one h => exact ⟨[h], tearsDown_forceCloseEach w [h]⟩
  | all =>
    have h := tearsDown_forceCloseEach ((w.unlinkAll wish).1.note
      (.tearingDown (w.unlinkAll wish).2.length)) (w.unlinkAll wish).2
    rw [outline_note, outline_unlinkAll] at h
    exact ⟨_, h⟩

theorem does_pollTeardown (w : Hub) (i : Nat) (wish : List Key) :
    Outline.Does Outline.Kind.tearing w.outline (w.pollTeardown i wish).1.outline := by
  unfold pollTeardown
  split
  · simp only
    rw [outline_concludeTeardown]
    exact .tears (tearsDown_beginTeardown w _ wish).choose_spec
  · simp only
    rw [outline_concludeTeardown, outline_awaitParts]
    exact .rest _ _
  · exact .rest _ _
  · exact .rest _ _
  · exact .rest _ _

/-! ## Releases and tickets -/

/-- A release gives back one reference at most, to one handle. -/
theorem does_release (w : Hub) (k : Key) :
    Outline.Does Outline.Kind.giving w.outline (w.release k).1.outline := by
  have hfirst : ∀ (hs : List HandleId) (w' : Hub), w.giveBackFirst hs = some w' →
      Outline.Does Outline.Kind.giving w.outline w'.outline := by
    intro hs
    induction hs with
    | nil =>
      intro w' hw
      contradiction
    | cons h hs ih =>
      intro w' hw
      have hgive := givesBack_giveBack w h false
      unfold giveBackFirst at hw
      split at hw
      · rename_i heq
        rw [heq] at hgive
        obtain rfl := Option.some.inj hw
        exact .gives hgive
      · exact ih w' hw
  unfold release
  split
  · rename_i w' hw
    exact hfirst _ w' hw
  · split
    · exact .rest _ _
    · split
      · simp only
        rw [outline_note, outline_purge, outline_note]
        exact .rest _ _
      · exact .gives (givesBack_giveBack w _ true)

theorem does_dropTicket (w : Hub) (id : TicketId) :
    Outline.Does Outline.Kind.giving w.outline (w.dropTicket id).outline := by
  unfold dropTicket
  split
  · exact .rest _ _
  · split
    · rw [outline_setTicket]
      exact .rest _ _
    · rename_i t r _
      cases r with
      | handle h =>
        have hg := givesBack_giveBack ((w.setTicket id t).note (.unclaimed h.key)) h false
        rw [outline_note, outline_setTicket] at hg
        exact .gives hg
      | mark name =>
        rw [refund, outline_emit _ (fun _ => Event.noConfusion) (fun _ => rfl), outline_setTicket]
        exact .rest _ _

/-! ## Answers -/

theorem does_answerMaking (w : Hub) (id : LinkId) (failure : Option String) :
    Outline.Does [.answer] w.outline (((w.answerMaking id failure).map Prod.fst).getD w).outline := by
  unfold answerMaking
  cases hc : w.creation? id with
  | none => exact .rest _ _
  | some c =>
    simp only [Option.map_some, Option.getD_some]
    split
    · exact .rest _ _
    · rename_i hshut
      change Outline.Does _ _ (w.onCreation id _).outline
      rw [outline_onCreation]
      refine .answers (fun _ => ⟨rfl, rfl, rfl⟩) fun c' hc' hne => ?_
      obtain rfl := Option.some.inj (hc.symm.trans hc')
      exact absurd hshut hne

theorem does_answerClosing (w : Hub) (id : LinkId) (failure : Option String) :
    Outline.Does [.answer] w.outline
      (((w.answerClosing id failure).map Prod.fst).getD w).outline := by
  unfold answerClosing
  cases w.creation? id with
  | none => exact .rest _ _
  | some c =>
    simp only [Option.map_some, Option.getD_some]
    split
    · exact .rest _ _
    · change Outline.Does _ _ (w.onCreation id _).outline
      rw [outline_onCreation]
      exact .answers (fun _ => ⟨rfl, rfl, rfl⟩) fun _ _ _ => rfl

end Hub

/-! ## Moves -/

/-- The kinds of steps that a move may take. -/
def Move.kinds : Move → List Outline.Kind
  | .acquire _ => Outline.Kind.asking
  | .release _ | .drop _ _ => Outline.Kind.giving
  | .pollTeardown _ _ => Outline.Kind.tearing
  | .runJob _ => [.work]
  | .abortJob _ => [.abort]
  | .answerMaking _ _ | .answerClosing _ _ => [.answer]
  | .poll _ _ | .park _ _ | .tearDown | .dropTeardown _ | .clone | .dropClone => []

namespace Hub

variable {w : Hub}

/-- What each move does to the outline. -/
theorem does_move (distinct : (w.jobs.map (·.id)).Nodup) (m : Move) :
    Outline.Does m.kinds w.outline (w.move m).outline := by
  have hasked : ∀ (f : Hub → Hub) (kinds : List Outline.Kind),
      Outline.Does kinds w.outline (f w).outline →
        Outline.Does kinds w.outline (w.asked f).outline := by
    intro f kinds hf
    exact asked_induction (P := fun w' => Outline.Does kinds w.outline w'.outline)
      (fun _ => .rest _ _) fun _ => hf
  have hsame : ∀ {w' : Hub}, w'.outline = w.outline → Outline.Does [] w.outline w'.outline := by
    intro w' he
    rw [he]
    exact .rest _ _
  cases m with
  | acquire k => exact hasked _ _ (.asks (asks_acquire w k))
  | release k => exact hasked _ _ (does_release w k)
  | poll k n => exact hsame (outline_pollTicket w _)
  | park k n => exact hsame (outline_parkTicket w _)
  | drop k n => exact does_dropTicket w _
  | tearDown => exact hasked _ _ (.rest _ _)
  | pollTeardown i wish => exact does_pollTeardown w i wish
  | dropTeardown i => exact hsame (outline_dropTeardown w i)
  | runJob id => exact does_runJob distinct id
  | abortJob id => exact .aborts List.filter_sublist
  | answerMaking id failure => exact does_answerMaking w id failure
  | answerClosing id failure => exact does_answerClosing w id failure
  | clone => exact hasked _ _ (.rest _ _)
  | dropClone =>
    refine hsame ?_
    change w.dropClone.outline = w.outline
    unfold dropClone
    split
    · rfl
    · exact outline_noteIfAbandoned _

/-- Every move is a chain of steps of its kinds. -/
theorem chain_move (distinct : (w.jobs.map (·.id)).Nodup) (m : Move) :
    Chain m.kinds w.outline (w.move m).outline :=
  (does_move distinct m).chain

end Hub

end SharedLinks
