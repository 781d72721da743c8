import SharedLinks.Proofs.Shelf
import SharedLinks.Proofs.Moves

/-!
# The outline of a hub

Whether a link is closed, and how often, depends on little of a hub: on the phases of its handles, on
its creations and jobs, and on what it has asked of the provider. `Hub.outline` is this part of a hub.
Tickets, counters, notices and the places of handles are not in it, and neither are the orders in
which they change.

`Outline.Step` says once and for all what can happen in an outline, in steps of ten kinds. A job that
is run makes at most one of the changes of `Outline.Works`. The module ends with the writes of a hub
and what each of them does to the outline.
-/

namespace SharedLinks

/-! ## Outlines -/

/-- What a hub has to do with handles and links, apart from who waits for them. -/
structure Outline where
  /-- Where each handle is in its life. -/
  phase : HandleId → Phase
  /-- How many handles of each key were made. -/
  handles : Key → Nat
  /-- The creations by the links they are for. -/
  creation? : LinkId → Option Creation
  /-- How often each link was asked to close. -/
  closings : LinkId → Nat
  /-- What the provider was asked for, by link, the earliest request first. -/
  requests : LinkId → List Request
  /-- The jobs that are not done. -/
  jobs : List Job
  /-- What becomes of new jobs. -/
  dispatch : Dispatch

/-- The link that a handle in this phase has to offer. -/
def Phase.link? : Phase → Option Link
  | .live link _ => some link
  | .pending _ | .orphaned _ | .closed => none

/-- The phases differ at most in the tickets or references that they count. -/
inductive Phase.Alike : Phase → Phase → Prop where
  | pending (queue queue' : List TicketId) : Alike (.pending queue) (.pending queue')
  | live (link : Link) (refs refs' : Nat) : Alike (.live link refs) (.live link refs')
  | orphaned (refs refs' : Nat) : Alike (.orphaned refs) (.orphaned refs')

namespace Outline

/-- The handle was made. -/
def HasMade (o : Outline) (h : HandleId) : Prop := h.index < o.handles h.key

instance (o : Outline) (h : HandleId) : Decidable (o.HasMade h) := Nat.decLt _ _

/-- The owner of the creation offers its link to callers. -/
def Keeps (o : Outline) (c : Creation) : Prop := (o.phase c.owner).link? = some c.link

/-- Moves a handle to another phase. -/
def setPhase (o : Outline) (h : HandleId) (p : Phase) : Outline :=
  { o with phase := fun h' => if h' = h then p else o.phase h' }

/-- Adds a handle of a key. -/
def addHandle (o : Outline) (k : Key) (p : Phase) : Outline :=
  { o with
    phase := fun h => if h = ⟨k, o.handles k⟩ then p else o.phase h
    handles := fun j => if j = k then o.handles k + 1 else o.handles j }

/-- Changes a creation. -/
def onCreation (o : Outline) (id : LinkId) (f : Creation → Creation) : Outline :=
  { o with creation? := fun id' => if id' = id then (o.creation? id').map f else o.creation? id' }

/-- Marks a creation's answer as having reached the owner. -/
def deliver (o : Outline) (id : LinkId) : Outline :=
  o.onCreation id fun c => { c with delivered := true }

/-- Asks a link to close. -/
def close (o : Outline) (id : LinkId) : Outline :=
  { o with closings := fun id' => if id' = id then o.closings id' + 1 else o.closings id' }

theorem closings_close_self (o : Outline) (id : LinkId) :
    (o.close id).closings id = o.closings id + 1 := if_pos rfl

theorem closings_close_ne (o : Outline) {id id' : LinkId} (h : id' ≠ id) :
    (o.close id).closings id' = o.closings id' := if_neg h

theorem closings_le_close (o : Outline) (id id' : LinkId) :
    o.closings id' ≤ (o.close id).closings id' := by
  by_cases h : id' = id
  · rw [h, closings_close_self]
    exact Nat.le_succ _
  · exact Nat.le_of_eq (closings_close_ne o h).symm

theorem one_le_closings_close (o : Outline) (id : LinkId) : 1 ≤ (o.close id).closings id := by
  rw [closings_close_self]
  exact Nat.le_add_left 1 _

/-- Asks the provider for a link. -/
def request (o : Outline) (c : Creation) (r : Request) : Outline :=
  { o with
    creation? := fun id => if id = c.link.id then some c else o.creation? id
    requests := fun id => if id = c.link.id then o.requests id ++ [r] else o.requests id }

/-- Has these jobs to do. -/
def withJobs (o : Outline) (jobs : List Job) : Outline := { o with jobs := jobs }

/-- Takes up a job. -/
def addJob (o : Outline) (j : Job) : Outline := o.withJobs (o.jobs ++ [j])

end Outline

/-! ## What can happen -/

/-- The job at the stage it has reached, if there is something left to do. -/
def Job.left (j : Job) (stage : Option Stage) : List Job :=
  (stage.map fun s => { j with stage := s }).toList

namespace Outline

/-- What one run of a job does, and what is then left to do. -/
inductive Works (j : Job) (o : Outline) : Option Stage → Outline → Prop where
  /-- The provider has not answered yet. -/
  | wait (awaits : j.stage = .awaitLink) : Works j o (some .awaitLink) o
  /-- The link arrives where somebody waits for it. -/
  | granted {c : Creation} {queue : List TicketId} {refs : Nat} (awaits : j.stage = .awaitLink)
      (found : o.creation? j.link.id = some c) (made : c.making = .opened none)
      (pending : o.phase j.owner = .pending queue) :
      Works j o none ((o.deliver j.link.id).setPhase j.owner (.live j.link refs))
  /-- The link arrives where nobody waits for it any more, and is asked to close. -/
  | unwanted {c : Creation} {queue : List TicketId} {left : Option Stage}
      (awaits : j.stage = .awaitLink) (found : o.creation? j.link.id = some c)
      (made : c.making = .opened none) (pending : o.phase j.owner = .pending queue)
      (rest : ∀ s ∈ left, s = .awaitClose) :
      Works j o left (((o.deliver j.link.id).setPhase j.owner .closed).close j.link.id)
  /-- The link arrives at a handle that does not wait for one, and is asked to close. -/
  | late {c : Creation} {left : Option Stage} (awaits : j.stage = .awaitLink)
      (found : o.creation? j.link.id = some c) (made : c.making = .opened none)
      (gone : ∀ queue, o.phase j.owner ≠ .pending queue) (rest : ∀ s ∈ left, s = .awaitClose) :
      Works j o left ((o.deliver j.link.id).close j.link.id)
  /-- The creation has failed, and the handle that waited for it ends. -/
  | failed {c : Creation} {failure : String} {queue : List TicketId}
      (awaits : j.stage = .awaitLink) (found : o.creation? j.link.id = some c)
      (made : c.making = .opened (some failure)) (pending : o.phase j.owner = .pending queue) :
      Works j o none ((o.deliver j.link.id).setPhase j.owner .closed)
  /-- The creation has failed, which the handle did not wait to hear. -/
  | failedLate {c : Creation} {failure : String} (awaits : j.stage = .awaitLink)
      (found : o.creation? j.link.id = some c) (made : c.making = .opened (some failure))
      (gone : ∀ queue, o.phase j.owner ≠ .pending queue) : Works j o none (o.deliver j.link.id)
  /-- The link is asked to close. -/
  | close {left : Option Stage} (closes : j.stage = .close) (rest : ∀ s ∈ left, s = .awaitClose) :
      Works j o left (o.close j.link.id)
  /-- The link may have closed. -/
  | done {left : Option Stage} (awaits : j.stage = .awaitClose)
      (rest : ∀ s ∈ left, s = .awaitClose) : Works j o left o

/-- The kinds of steps. -/
inductive Kind where
  | tend | make | start | answer | work | release | drain | force | dismiss | abort | discard
  deriving DecidableEq

/-- What happens in an outline at a time. -/
inductive Step : Kind → Outline → Outline → Prop where
  /-- Tickets or references of a handle come or go. -/
  | tend {o : Outline} {h : HandleId} {p : Phase} (alike : (o.phase h).Alike p) :
      Step .tend o (o.setPhase h p)
  /-- A handle is made. -/
  | make (o : Outline) (k : Key) (queue : List TicketId) :
      Step .make o (o.addHandle k (.pending queue))
  /-- A handle asks the provider for a link of some key, and a job will await it. -/
  | start {o : Outline} {k : Key} {i : Nat} {c : Creation} {r : Request} (owner : o.HasMade c.owner)
      (link : c.link.id = .made k i) (fresh : o.creation? c.link.id = none)
      (undelivered : c.delivered = false) (key : r.key = k) :
      Step .start o ((o.request c r).addJob ⟨⟨c.link.id, .create⟩, c.owner, c.link, .awaitLink⟩)
  /-- The provider answers. What was made stays as it was. -/
  | answer {o : Outline} {id : LinkId} {f : Creation → Creation}
      (same : ∀ c, (f c).owner = c.owner ∧ (f c).link = c.link ∧ (f c).delivered = c.delivered)
      (answered : ∀ c, o.creation? id = some c → c.making ≠ .shut → (f c).making = c.making) :
      Step .answer o (o.onCreation id f)
  /-- A job is run. -/
  | work {o o' : Outline} {j : Job} {pre post : List Job} {left : Option Stage}
      (split : o.jobs = pre ++ j :: post) (works : Works j o left o') :
      Step .work o (o'.withJobs (pre ++ j.left left ++ post))
  /-- The last reference on a link is given back, and a job will close it. -/
  | release {o : Outline} {h : HandleId} {link : Link} (last : o.phase h = .live link 1) :
      Step .release o ((o.setPhase h .closed).addJob ⟨⟨link.id, .close⟩, h, link, .close⟩)
  /-- The last reference on an orphan is given back. -/
  | drain {o : Outline} {h : HandleId} (last : o.phase h = .orphaned 1) :
      Step .drain o (o.setPhase h .closed)
  /-- A teardown closes a link that is held. -/
  | force {o : Outline} {h : HandleId} {link : Link} {refs : Nat}
      (live : o.phase h = .live link refs) :
      Step .force o ((o.setPhase h (.orphaned refs)).close link.id)
  /-- A teardown ends a handle that waits for its link. -/
  | dismiss {o : Outline} {h : HandleId} {queue : List TicketId}
      (pending : o.phase h = .pending queue) : Step .dismiss o (o.setPhase h .closed)
  /-- Somebody throws jobs away. -/
  | abort {o : Outline} {jobs : List Job} (fewer : jobs.Sublist o.jobs) :
      Step .abort o (o.withJobs jobs)
  /-- A new job is thrown away by the rule. -/
  | discard {o : Outline} {jobs : List Job} (rule : o.dispatch = .discard)
      (fewer : jobs.Sublist o.jobs) : Step .discard o (o.withJobs jobs)

/-- Some steps of these kinds, one after the other. -/
inductive Chain (kinds : List Kind) : Outline → Outline → Prop where
  | refl (o : Outline) : Chain kinds o o
  | tail {o o' o'' : Outline} {kind : Kind} (chain : Chain kinds o o') (step : Step kind o' o'')
      (allowed : kind ∈ kinds) : Chain kinds o o''

namespace Chain

variable {kinds kinds' : List Kind} {o o' o'' : Outline} {kind : Kind}

theorem single (step : Step kind o o') (allowed : kind ∈ kinds) : Chain kinds o o' :=
  .tail (.refl o) step allowed

theorem trans (h : Chain kinds o o') (h' : Chain kinds o' o'') : Chain kinds o o'' := by
  induction h' with
  | refl => exact h
  | tail _ step allowed ih => exact .tail ih step allowed

theorem mono (h : Chain kinds o o') (hk : kinds ⊆ kinds') : Chain kinds' o o' := by
  induction h with
  | refl => exact .refl o
  | tail _ step allowed ih => exact .tail ih step (hk allowed)

/-- What every step keeps is kept. -/
theorem keeps {P : Outline → Prop} (h : Chain kinds o o')
    (step : ∀ kind ∈ kinds, ∀ o o', Step kind o o' → P o → P o') (ho : P o) : P o' := by
  induction h with
  | refl => exact ho
  | tail _ s allowed ih => exact step _ allowed _ _ s ih

end Chain

end Outline

/-! ## The outline of a hub -/

/-- What the provider is asked for, if it is this link. -/
def Event.request? (id : LinkId) : Event → Option Request
  | .create link request => if link = id then some request else none
  | _ => none

namespace Hub

/-- The hub's handles, creations and jobs, and what it has asked of the provider. -/
def outline (w : Hub) : Outline where
  phase := w.phase
  handles k := (w.shelf k).phases.length
  creation? := w.creation?
  closings id := w.events.count (.close id)
  requests id := w.events.reverse.filterMap (Event.request? id)
  jobs := w.jobs
  dispatch := w.dispatch

variable (w : Hub)

/-- The outline depends on nothing but these parts of a hub. -/
theorem outline_congr {w w' : Hub} (phases : ∀ k, (w'.shelf k).phases = (w.shelf k).phases)
    (creations : ∀ k, (w'.shelf k).creations = (w.shelf k).creations)
    (events : w'.events = w.events) (jobs : w'.jobs = w.jobs) (dispatch : w'.dispatch = w.dispatch) :
    w'.outline = w.outline := by
  have hphase : w'.phase = w.phase := by
    funext h
    rw [phase, phases, phase]
  have hcreation : w'.creation? = w.creation? := by
    funext id
    cases id with
    | made k i => rw [creation?, creations, creation?]
    | brought name => rfl
  unfold outline
  simp only [hphase, phases, hcreation, events, jobs, dispatch]

/-! ### Writes that do not show -/

@[simp] theorem outline_note (n : Notice) : (w.note n).outline = w.outline := rfl

theorem outline_namer (namer : Namer) : { w with namer := namer }.outline = w.outline := rfl

@[simp] theorem outline_countBy (c : Counter) (n : Nat) : (w.countBy c n).outline = w.outline := rfl

@[simp] theorem outline_count (c : Counter) : (w.count c).outline = w.outline := rfl

/-- What is neither a request for a link nor the closing of one does not show. -/
theorem outline_emit {e : Event} (hc : ∀ id, e ≠ .close id) (hr : ∀ id, e.request? id = none) :
    (w.emit e).outline = w.outline := by
  unfold outline emit
  congr 1
  · funext id
    rw [List.count_cons_of_ne (hc id)]
  · funext id
    simp [hr]

@[simp] theorem outline_wake (id : TicketId) (sleeper : Option Sleeper) :
    (w.wake id sleeper).outline = w.outline := by
  unfold wake
  split
  · exact outline_emit w (fun _ => Event.noConfusion) fun _ => rfl
  · rfl
  · rfl

/-- A write that concerns tickets or places does not show. -/
theorem outline_onShelf (k : Key) {f : Shelf → Shelf} (phases : ∀ s, (f s).phases = s.phases)
    (creations : ∀ s, (f s).creations = s.creations) : (w.onShelf k f).outline = w.outline := by
  have hshelf : ∀ j, ((w.onShelf k f).shelf j).phases = (w.shelf j).phases ∧
      ((w.onShelf k f).shelf j).creations = (w.shelf j).creations := by
    intro j
    by_cases hj : j = k
    · subst hj
      rw [shelf_onShelf_self]
      exact ⟨phases _, creations _⟩
    · rw [shelf_onShelf_ne w hj]
      exact ⟨rfl, rfl⟩
  exact outline_congr (fun j => (hshelf j).1) (fun j => (hshelf j).2) rfl rfl rfl

@[simp] theorem outline_setServing (k : Key) (h : Option HandleId) :
    (w.setServing k h).outline = w.outline :=
  outline_onShelf w k (fun _ => rfl) fun _ => rfl

@[simp] theorem outline_addTicket (k : Key) (t : Ticket) : (w.addTicket k t).outline = w.outline :=
  outline_onShelf w k (fun _ => rfl) fun _ => rfl

@[simp] theorem outline_setTicket (id : TicketId) (t : Ticket) :
    (w.setTicket id t).outline = w.outline := by
  cases id with
  | forKey k n => exact outline_onShelf w k (fun _ => rfl) fun _ => rfl
  | loose n => rfl

@[simp] theorem outline_forget (k : Key) (h : HandleId) : (w.forget k h).outline = w.outline := by
  unfold forget
  split
  · split
    · rw [outline_note, outline_setServing]
    · refine outline_onShelf w k (fun s => ?_) fun s => ?_ <;> obtain ⟨o, ho⟩ := s.dropOrphan_eq h <;>
        rw [ho]
  · rfl

@[simp] theorem outline_unlink (k : Key) : (w.unlink k).outline = w.outline := by
  unfold unlink
  split
  · rfl
  · exact outline_onShelf w k (fun _ => rfl) fun _ => rfl

@[simp] theorem outline_purge : w.purge.outline = w.outline := by
  unfold purge
  generalize w.servedKeys = ks
  induction ks generalizing w with
  | nil => rfl
  | cons k ks ih =>
    rw [List.foldl_cons, ih]
    unfold purgeKey
    split
    · rfl
    · split
      · rfl
      · exact outline_setServing w k none

@[simp] theorem outline_settle (id : TicketId) (outcome : Outcome) (refund : Option Refund) :
    (w.settle id outcome refund).1.outline = w.outline := by
  unfold settle
  split
  · rfl
  · rw [outline_wake, outline_setTicket]

@[simp] theorem outline_grant (h : HandleId) (link : Link) (ids : List TicketId) :
    (w.grant h link ids).1.outline = w.outline := by
  induction ids generalizing w with
  | nil => rfl
  | cons id ids ih => exact (ih _).trans (outline_settle w id _ _)

@[simp] theorem outline_refuse (error : LinkError) (ids : List TicketId) :
    (w.refuse error ids).outline = w.outline := by
  induction ids generalizing w with
  | nil => rfl
  | cons id ids ih => exact (ih _).trans (outline_settle w id _ _)

@[simp] theorem outline_awaitClose (h : HandleId) (link : Link) :
    (w.awaitClose h link).1.outline = w.outline := by
  unfold awaitClose
  split <;> rfl

@[simp] theorem outline_awaitPart (h : HandleId) (link : Link) :
    (w.awaitPart h link).1.outline = w.outline := by
  have hs := outline_awaitClose w h link
  unfold awaitPart
  split <;> simp_all

@[simp] theorem outline_awaitParts (parts : List Part) :
    (w.awaitParts parts).1.outline = w.outline := by
  induction parts generalizing w with
  | nil => rfl
  | cons part parts ih =>
    cases part with
    | closing h link => exact (ih _).trans (outline_awaitPart w h link)
    | done result => exact ih w

@[simp] theorem outline_noteIfAbandoned : w.noteIfAbandoned.outline = w.outline := by
  unfold noteIfAbandoned
  split <;> rfl

@[simp] theorem outline_concludeTeardown (i : Nat) (scope : Scope) (parts : List Part) :
    (w.concludeTeardown i scope parts).1.outline = w.outline := by
  unfold concludeTeardown
  split
  · rfl
  · rw [outline_noteIfAbandoned]
    unfold teardownResult
    split <;> rfl

@[simp] theorem outline_dropTeardown (i : Nat) : (w.dropTeardown i).outline = w.outline := by
  unfold dropTeardown
  split
  · rfl
  · dsimp only
    split
    · exact outline_noteIfAbandoned _
    · rfl

@[simp] theorem outline_pollTicket (id : TicketId) : (w.pollTicket id).1.outline = w.outline := by
  unfold pollTicket
  split
  · rfl
  · exact outline_setTicket w id _

@[simp] theorem outline_parkTicket (id : TicketId) : (w.parkTicket id).1.outline = w.outline := by
  unfold parkTicket
  split
  · rfl
  · exact outline_setTicket w id _

/-! ### Writes that show -/

variable {w}

theorem lt_of_phase_ne {h : HandleId} (hp : w.phase h ≠ .closed) : w.outline.HasMade h :=
  Shelf.lt_of_phase_ne (s := w.shelf h.key) hp

theorem outline_setPhase {h : HandleId} (made : w.outline.HasMade h) (p : Phase) :
    (w.setPhase h p).outline = w.outline.setPhase h p := by
  have hphase : (w.setPhase h p).phase = fun h' => if h' = h then p else w.phase h' := by
    funext h'
    by_cases hk : h'.key = h.key
    · rw [phase_eq, hk, setPhase_eq, shelf_onShelf_self, Shelf.phase_setPhase made, phase_eq, hk]
      obtain ⟨k', i'⟩ := h'
      obtain ⟨k, i⟩ := h
      obtain rfl : k' = k := hk
      simp
    · rw [phase_eq, setPhase_eq, shelf_onShelf_ne w hk, if_neg fun e => hk (by rw [e])]
      rfl
  have hshelf : ∀ k, ((w.setPhase h p).shelf k).phases.length = (w.shelf k).phases.length ∧
      ((w.setPhase h p).shelf k).creations = (w.shelf k).creations := by
    intro k
    by_cases hk : k = h.key
    · subst hk
      rw [setPhase_eq, shelf_onShelf_self]
      exact ⟨Shelf.length_setPhase _ _ _, rfl⟩
    · rw [setPhase_eq, shelf_onShelf_ne w hk]
      exact ⟨rfl, rfl⟩
  have hcreation : (w.setPhase h p).creation? = w.creation? := by
    funext id
    cases id with
    | made k i => rw [creation?, (hshelf k).2, creation?]
    | brought name => rfl
  unfold outline Outline.setPhase
  simp only [hphase, hshelf, hcreation]
  rfl

/-- A handle moves on after writes that do not show. -/
theorem outline_setPhase_of_eq {o : Outline} {h : HandleId} (eq : w.outline = o)
    (phase : o.phase h ≠ .closed) (p : Phase) : (w.setPhase h p).outline = o.setPhase h p := by
  subst eq
  exact outline_setPhase (lt_of_phase_ne phase) p

theorem outline_addHandle (w : Hub) (k : Key) (p : Phase) :
    (w.addHandle k p).outline = w.outline.addHandle k p := by
  have hshelf : ∀ j, ((w.addHandle k p).shelf j).phases =
      (if j = k then (w.shelf j).phases ++ [p] else (w.shelf j).phases) ∧
      ((w.addHandle k p).shelf j).creations = (w.shelf j).creations := by
    intro j
    by_cases hj : j = k
    · subst hj
      rw [addHandle, shelf_onShelf_self, if_pos rfl]
      exact ⟨rfl, rfl⟩
    · rw [addHandle, shelf_onShelf_ne w hj, if_neg hj]
      exact ⟨rfl, rfl⟩
  have hcreation : (w.addHandle k p).creation? = w.creation? := by
    funext id
    cases id with
    | made j i => rw [creation?, (hshelf j).2, creation?]
    | brought name => rfl
  have hphase : (w.addHandle k p).phase =
      fun h => if h = ⟨k, (w.shelf k).phases.length⟩ then p else w.phase h := by
    funext ⟨j, i⟩
    rw [phase, (hshelf j).1, phase]
    by_cases hj : j = k
    · subst hj
      simp only [if_pos, HandleId.mk.injEq, true_and]
      rcases Nat.lt_trichotomy i (w.shelf j).phases.length with hlt | rfl | hgt
      · rw [List.getElem?_append_left hlt, if_neg (by omega)]
      · simp
      · rw [List.getElem?_append_right (by omega), List.getElem?_eq_none (by simp; omega),
          List.getElem?_eq_none (by omega), if_neg (by omega)]
    · simp [hj]
  have hhandles : ∀ j, ((w.addHandle k p).shelf j).phases.length =
      if j = k then (w.shelf k).phases.length + 1 else (w.shelf j).phases.length := by
    intro j
    rw [(hshelf j).1]
    split
    · rename_i hj
      rw [hj, List.length_append, List.length_singleton]
    · rfl
  unfold outline Outline.addHandle
  simp only [hphase, hhandles, hcreation]
  rfl

theorem outline_onCreation (w : Hub) (id : LinkId) (f : Creation → Creation) :
    (w.onCreation id f).outline = w.outline.onCreation id f := by
  cases id with
  | brought name =>
    have hcreation : w.creation? =
        fun id => if id = .brought name then (w.creation? id).map f else w.creation? id := by
      funext id
      split
      · rename_i e
        rw [e]
        rfl
      · rfl
    change w.outline = _
    unfold outline Outline.onCreation
    simp only
    rw [← hcreation]
  | made k i =>
    have hshelf : ∀ j, ((w.onCreation (.made k i) f).shelf j).phases = (w.shelf j).phases ∧
        ((w.onCreation (.made k i) f).shelf j).creations =
          if j = k then (w.shelf j).creations.modify i f else (w.shelf j).creations := by
      intro j
      by_cases hj : j = k
      · subst hj
        rw [onCreation, shelf_onShelf_self, if_pos rfl]
        exact ⟨rfl, rfl⟩
      · rw [onCreation, shelf_onShelf_ne w hj, if_neg hj]
        exact ⟨rfl, rfl⟩
    have hphase : (w.onCreation (.made k i) f).phase = w.phase := by
      funext h
      rw [phase, (hshelf h.key).1, phase]
    have hcreation : (w.onCreation (.made k i) f).creation? =
        fun id => if id = .made k i then (w.creation? id).map f else w.creation? id := by
      funext id
      cases id with
      | brought name => rfl
      | made j n =>
        rw [creation?, (hshelf j).2, creation?]
        by_cases hj : j = k
        · subst hj
          simp only [if_pos, LinkId.made.injEq, true_and]
          rw [List.getElem?_modify]
          by_cases hn : n = i
          · simp [hn]
          · simp [hn, Ne.symm hn]
        · simp [hj]
    unfold outline Outline.onCreation
    simp only [hphase, hshelf, hcreation]
    rfl

theorem outline_markDelivered (w : Hub) (id : LinkId) :
    (w.markDelivered id).outline = w.outline.deliver id :=
  outline_onCreation w id _

@[simp] theorem outline_beginClose (w : Hub) (h : HandleId) (link : Link) :
    (w.beginClose h link).outline = w.outline.close link.id := by
  unfold outline beginClose Outline.close
  congr 1
  · funext id
    change (Event.close link.id :: w.events).count (.close id) = _
    rw [List.count_cons]
    by_cases hid : id = link.id
    · simp [hid]
    · simp [hid, Ne.symm hid]
  · funext id
    change (Event.close link.id :: w.events).reverse.filterMap _ = _
    simp [Event.request?]

end Hub

end SharedLinks
