import SharedLinks.Proofs.Drains
import SharedLinks.Proofs.Quiescence

/-!
# What the first poll of a teardown does to each key

With jobs that wait until they are run, the first poll of a teardown settles the fate of every handle
in service (`Hub.fate`): it is left to its holders while its link closes, replaced by a fresh handle
that takes over its tickets, or ended. The fate of a handle depends on its key alone, and so does what
others see of it. `forceClose_drained` follows one handle to its fate, `forceCloseEach_drained` all of
them, whatever the order; `drains_play` puts that together for every state that a hub can reach.
-/

namespace SharedLinks

/-- What the first poll of a teardown makes of the handle in a key's service. -/
inductive Fate where
  /-- There is none. -/
  | untouched
  /-- Its link is asked to close, and its holders keep their references on it. -/
  | orphaned (handle : HandleId) (link : Link) (refs : Nat)
  /-- A fresh handle takes over these tickets, of which there is at least one. -/
  | replaced (handle : HandleId) (first : TicketId) (rest : List TicketId)
  /-- It ends, since nobody waits for it any more. -/
  | ended (handle : HandleId)

/-- The key that an event is about. -/
def Event.key? : Event → Option Key
  | .create (.made k _) _ | .close (.made k _) | .wake (.forKey k _) _ => some k
  | .create (.brought _) _ | .close (.brought _) | .wake (.loose _) _ | .refund _ => none

@[simp] theorem Event.key?_nameless (e : Event) : e.nameless.key? = e.key? := by
  cases e with
  | create link r => cases link <;> rfl
  | close | wake | refund => rfl

namespace Hub

variable {w w' w₀ : Hub} {k : Key} {h : HandleId} {n : Nat}

/-! ## Fates -/

/-- The tickets of a queue that were not dropped. -/
def wanted (w : Hub) (queue : List TicketId) : List TicketId :=
  queue.filter fun id => !w.isDropped id

/-- What a teardown makes of the handle in a key's service. -/
def fate (w : Hub) (k : Key) : Fate :=
  match w.serving k with
  | none => .untouched
  | some h =>
    match w.phase h with
    | .live link refs => .orphaned h link refs
    | .pending queue =>
      match w.wanted queue with
      | [] => .ended h
      | first :: rest => .replaced h first rest
    | .orphaned _ | .closed => .untouched

/-! The fates, by what is in service. -/

theorem fate_of_free (hs : w.serving k = none) : w.fate k = .untouched := by rw [fate, hs]

theorem fate_of_live (hs : w.serving k = some h) {link : Link} {refs : Nat}
    (hp : w.phase h = .live link refs) : w.fate k = .orphaned h link refs := by
  rw [fate, hs]
  simp only [hp]

section Pending

variable {queue : List TicketId} (hs : w.serving k = some h) (hp : w.phase h = .pending queue)

include hs hp

theorem fate_of_unwanted (hw : w.wanted queue = []) : w.fate k = .ended h := by
  rw [fate, hs]
  simp only [hp, hw]

theorem fate_of_wanted {first : TicketId} {rest : List TicketId}
    (hw : w.wanted queue = first :: rest) : w.fate k = .replaced h first rest := by
  rw [fate, hs]
  simp only [hp, hw]

end Pending

/-- The creation that the next handle of a key asks for. -/
def nextCreation (w : Hub) (k : Key) : Creation :=
  (w.provider k (w.shelf k).creations.length).creation (w.nextHandle k)
    (.made k (w.shelf k).creations.length)

/-- The shelf of a key once the handle in service has met its fate. -/
def drainedShelf (w : Hub) (k : Key) : Shelf :=
  match w.fate k with
  | .untouched => w.shelf k
  | .orphaned h _ refs => ((w.shelf k).unlink h).setPhase h.index (.orphaned refs)
  | .replaced h first rest =>
    (((w.shelf k).setPhase h.index .closed).serve none).openHandle k (first :: rest) (w.nextCreation k)
  | .ended h => ((w.shelf k).setPhase h.index .closed).serve none

/-- What others see of a key, the names of new links aside. -/
def drainedEvents (w : Hub) (k : Key) : List Event :=
  match w.fate k with
  | .untouched | .ended _ => []
  | .orphaned _ link _ => [.close link.id]
  | .replaced _ _ _ =>
    [(Event.create (.made k (w.shelf k).creations.length) (Request.make k "" w.node)).nameless]

/-- The provider has answered that the link could not be closed. -/
def refusesClose (w : Hub) (id : LinkId) : Bool :=
  match w.closing id with
  | .opened (some _) => true
  | .opened none | .shut => false

/-- The key makes this counter go up. -/
def drainCounts (w : Hub) (c : Counter) (k : Key) : Bool :=
  match w.fate k, c with
  | .orphaned _ _ _, .forceCloses => true
  | .orphaned _ link _, .closeFailures => w.refusesClose link.id
  | .replaced _ _ _, .creations => true
  | _, _ => false

/-! ## Opening a handle -/

theorem shelf_requested (w : Hub) (h : HandleId) (k : Key) (r : Request) (c : Creation) :
    (w.requested h k r c).shelf k =
      { w.shelf k with creations := (w.shelf k).creations ++ [c] } := by
  rw [requested, shelf_onShelf_self]
  rfl

theorem events_requested (w : Hub) (h : HandleId) (k : Key) (r : Request) (c : Creation) :
    (w.requested h k r c).events = .create c.link.id r :: w.events := rfl

theorem get_counters_requested (w : Hub) (h : HandleId) (k : Key) (r : Request) (cr : Creation)
    (c : Counter) : (w.requested h k r cr).counters.get c =
      w.counters.get c + UInt64.ofNat (if c = .creations then 1 else 0) := by
  change (w.counters.add .creations (UInt64.ofNat 1)).get c = _
  rw [Counters.get_add]
  split
  · rfl
  · exact (UInt64.add_zero _).symm

@[simp] theorem shelf_rename (w : Hub) (n : Namer) (k : Key) :
    ({ w with namer := n } : Hub).shelf k = w.shelf k := rfl

section Waits

variable (rule : w.dispatch = .queue) (j : Job)

include rule

theorem shelf_spawn_queue (k : Key) : (w.spawn j).shelf k = w.shelf k := by
  rw [spawn_queue rule]
  rfl

theorem events_spawn_queue : (w.spawn j).events = w.events := by rw [spawn_queue rule]

theorem counters_spawn_queue : (w.spawn j).counters = w.counters := by rw [spawn_queue rule]

end Waits

/-- A handle is opened and its creation requested, for a job that waits until it is run. -/
theorem openHandle_queue (rule : w.dispatch = .queue) (k : Key) (queue : List TicketId) :
    (w.openHandle k queue).shelf k = (w.shelf k).openHandle k queue (w.nextCreation k) ∧
    (w.openHandle k queue).events =
      .create (.made k (w.shelf k).creations.length) (Request.make k w.namer.name w.node) ::
        w.events ∧
    ∀ c, (w.openHandle k queue).counters.get c =
      w.counters.get c + UInt64.ofNat (if c = .creations then 1 else 0) := by
  let v := (w.addHandle k (.pending queue)).setServing k (some (w.nextHandle k))
  have hshelf : v.shelf k = { w.shelf k with
      serving := some (w.nextHandle k), phases := (w.shelf k).phases ++ [.pending queue] } := by
    rw [show v.shelf k = _ from shelf_onShelf_self _ k _, addHandle, shelf_onShelf_self]
  have hopen : w.openHandle k queue = v.startCreation (w.nextHandle k) k := rfl
  have hrule : ∀ (n : Namer) (r : Request) (cr : Creation),
      ({ v with namer := n }.requested (w.nextHandle k) k r cr).dispatch = .queue :=
    fun _ _ _ => rule
  rw [hopen, startCreation_eq, shelf_spawn_queue (hrule _ _ _), events_spawn_queue (hrule _ _ _),
    counters_spawn_queue (hrule _ _ _), shelf_requested, events_requested, shelf_rename, hshelf]
  refine ⟨rfl, rfl, fun c => ?_⟩
  rw [get_counters_requested]
  rfl

/-! ## One handle -/

/-- A look at whether a link has closed shows in no more than a failure that is counted. -/
theorem get_counters_awaitPart (w : Hub) (h : HandleId) (link : Link) (c : Counter) :
    (w.awaitPart h link).1.counters.get c = w.counters.get c +
      UInt64.ofNat (if c = .closeFailures ∧ w.refusesClose link.id = true then 1 else 0) := by
  have hzero : w.counters.get c + UInt64.ofNat 0 = w.counters.get c := UInt64.add_zero _
  cases hcl : w.closing link.id with
  | shut =>
    rw [if_neg (by simp [refusesClose, hcl]), hzero]
    simp only [awaitPart, awaitClose, hcl]
  | opened answer =>
    cases answer with
    | none =>
      rw [if_neg (by simp [refusesClose, hcl]), hzero]
      simp only [awaitPart, awaitClose, hcl]
      rfl
    | some failure =>
      simp only [awaitPart, awaitClose, hcl, refusesClose, and_true]
      change (w.counters.add .closeFailures (UInt64.ofNat 1)).get c = _
      rw [Counters.get_add]
      split
      · rfl
      · exact hzero.symm

theorem closing_congr {id : LinkId} (hid : id = .made k n)
    (hc : (w'.shelf k).creations = (w.shelf k).creations) : w'.closing id = w.closing id := by
  rw [hid, closing, creation?, hc, closing, creation?]

/-- An established link is asked to close, whoever holds it. -/
theorem forceClose_live {link : Link} {refs : Nat} (hp : w.phase h = .live link refs)
    (hid : link.id = .made h.key h.index) :
    (w.forceClose h).1.shelf h.key = (w.shelf h.key).setPhase h.index (.orphaned refs) ∧
    (w.forceClose h).1.events = .close link.id :: w.events ∧
    ∀ c, (w.forceClose h).1.counters.get c = w.counters.get c +
      UInt64.ofNat (if c = .forceCloses then 1 else 0) +
      UInt64.ofNat (if c = .closeFailures ∧ w.refusesClose link.id = true then 1 else 0) := by
  let w₁ := ((((w.note (.orphaning h.key refs)).setPhase h (.orphaned refs)).count
    .forceCloses).note (.forceClosing h.key link.identity)).beginClose h link
  have hclose : (w.forceClose h).1 = (w₁.awaitPart h link).1 := by
    unfold forceClose
    rw [hp]
  have hshelf : w₁.shelf h.key = (w.shelf h.key).setPhase h.index (.orphaned refs) :=
    shelf_onShelf_self (w.note (.orphaning h.key refs)) h.key _
  have hsilent := silent_awaitPart w₁ h link
  rw [hclose]
  refine ⟨(hsilent.shelf h.key).trans hshelf, hsilent.events, fun c => ?_⟩
  have hrefuses : w₁.refusesClose link.id = w.refusesClose link.id := by
    rw [refusesClose, closing_congr (w := w) hid (by rw [hshelf]; rfl), refusesClose]
  rw [get_counters_awaitPart, hrefuses]
  congr 1
  change (w.counters.add .forceCloses (UInt64.ofNat 1)).get c = _
  rw [Counters.get_add]
  split
  · rfl
  · exact (UInt64.add_zero _).symm

/-- The tickets of a pending handle that has ended look for another one. -/
theorem forceClose_pending {queue : List TicketId} (hp : w.phase h = .pending queue) :
    ∃ journal, (w.forceClose h).1 =
      { (w.setPhase h .closed).forget h.key h with journal := journal }.requeue h.key queue := by
  unfold forceClose
  rw [hp]
  dsimp only
  generalize (w.setPhase h .closed).forget h.key h = w₁
  cases queue with
  | nil => exact ⟨w₁.journal, rfl⟩
  | cons id ids => exact ⟨_, rfl⟩

/-- Tickets that look for another handle open one, if no handle serves their key. -/
theorem requeue_of_free (free : w.serving k = none) (queue : List TicketId) :
    w.requeue k queue =
      match w.wanted queue with
      | [] => w
      | first :: rest => w.openHandle k (first :: rest) := by
  unfold requeue wanted
  rw [free]
  cases queue.filter fun id => !w.isDropped id <;> rfl

/-- One key has come to what `w₀` had in store for it. -/
structure Meets (w₀ w w' : Hub) (k : Key) : Prop where
  shelf : w'.shelf k = w₀.drainedShelf k
  events : ∃ es, w'.events = es ++ w.events ∧ es.map Event.nameless = w₀.drainedEvents k
  counters : ∀ c, w'.counters.get c =
    w.counters.get c + UInt64.ofNat (if w₀.drainCounts c k then 1 else 0)

section Meets

variable (hs : w.shelf h.key = (w₀.shelf h.key).unlink h) (serving : w₀.serving h.key = some h)
  (orderly : (w₀.shelf h.key).Orderly h.key)

include hs serving orderly

theorem meets_live {link : Link} {refs : Nat} (hp : w₀.phase h = .live link refs) :
    Meets w₀ w (w.forceClose h).1 h.key := by
  have hfate := fate_of_live serving hp
  have hid : link.id = .made h.key h.index := orderly.recorded.id_of_live hp
  have hphase : w.phase h = .live link refs := by
    rw [phase_eq, hs, Shelf.phase_unlink, ← phase_eq, hp]
  obtain ⟨hshelf, hevents, hcounters⟩ := forceClose_live hphase hid
  have hrefuses : w.refusesClose link.id = w₀.refusesClose link.id := by
    rw [refusesClose, closing_congr (w := w₀) hid (by rw [hs]; rfl), refusesClose]
  refine ⟨?_, ⟨[.close link.id], hevents, ?_⟩, fun c => ?_⟩
  · rw [hshelf, hs, drainedShelf, hfate]
  · rw [drainedEvents, hfate]
    rfl
  · rw [hcounters, hrefuses, UInt64.add_assoc, ← UInt64.ofNat_add]
    unfold drainCounts
    rw [hfate]
    congr 2
    cases c <;> simp

theorem meets_pending (held : w.isHeld = true) (fixed : w.fixtures = w₀.fixtures)
    (rule : w₀.dispatch = .queue) {queue : List TicketId} (hp : w₀.phase h = .pending queue) :
    Meets w₀ w (w.forceClose h).1 h.key := by
  have hphase : w.phase h = .pending queue := by
    rw [phase_eq, hs, Shelf.phase_unlink, ← phase_eq, hp]
  obtain ⟨journal, hclose⟩ := forceClose_pending hphase
  have hended : ((w.setPhase h .closed).forget h.key h).shelf h.key =
      ((w₀.shelf h.key).setPhase h.index .closed).serve none := by
    rw [shelf_forget (w := w.setPhase h .closed) held, setPhase_eq, shelf_onShelf_self, hs]
    exact Shelf.forget_unlink orderly.placed hp
  obtain ⟨hevents, hcounters, hfixtures⟩ := forget_rest (w.setPhase h .closed) h.key h
  generalize (w.setPhase h .closed).forget h.key h = w₁ at *
  let w₂ : Hub := { w₁ with journal := journal }
  have hshelf : w₂.shelf h.key = ((w₀.shelf h.key).setPhase h.index .closed).serve none := hended
  have hfree : w₂.serving h.key = none := by rw [serving_eq, hshelf]; rfl
  have hfixed : w₂.fixtures = w₀.fixtures := hfixtures.trans fixed
  have hwanted : w₂.wanted queue = w₀.wanted queue := by
    have htickets : (w₂.shelf h.key).tickets = (w₀.shelf h.key).tickets := by rw [hshelf]; rfl
    exact (orderly.queued.filter_isDropped hp htickets).trans
      (orderly.queued.filter_isDropped (w := w₀) hp rfl).symm
  rw [hclose, requeue_of_free hfree, hwanted]
  cases hw : w₀.wanted queue with
  | nil =>
    have hfate := fate_of_unwanted serving hp hw
    refine ⟨?_, ⟨[], hevents, ?_⟩, fun c => ?_⟩
    · rw [drainedShelf, hfate]
      exact hshelf
    · rw [drainedEvents, hfate]
      rfl
    · unfold drainCounts
      rw [hfate]
      exact (congrArg (·.get c) hcounters).trans (UInt64.add_zero _).symm
  | cons first rest =>
    have hfate := fate_of_wanted serving hp hw
    have hrule : w₂.dispatch = .queue := (congrArg (·.2.1) hfixed).trans rule
    have hnode : w₂.node = w₀.node := congrArg (·.2.2.1) hfixed
    have hprovider : w₂.provider = w₀.provider := congrArg (·.1) hfixed
    have hnext : w₂.nextCreation h.key = w₀.nextCreation h.key := by
      rw [nextCreation, nextHandle, hprovider, hshelf, nextCreation, nextHandle]
      exact congrArg (fun n => (w₀.provider h.key _).creation ⟨h.key, n⟩ _)
        (Shelf.length_setPhase (w₀.shelf h.key) h.index .closed)
    obtain ⟨hopened, hasked, hcounted⟩ := openHandle_queue hrule h.key (first :: rest)
    refine ⟨?_, ⟨[_], hasked.trans (congrArg _ hevents), ?_⟩, fun c => ?_⟩
    · rw [drainedShelf, hfate]
      exact hopened.trans (by rw [hshelf, hnext])
    · rw [drainedEvents, hfate, hshelf]
      exact congrArg (fun r => [Event.create _ r]) (by rw [hnode]; exact Request.make_nameless ..)
    · unfold drainCounts
      rw [hfate]
      rw [hcounted, show w₂.counters = w.counters from hcounters]
      congr 2
      cases c <;> simp

end Meets

/-- A handle that is out of service meets its fate when it is force closed. -/
theorem meets_forceClose (held : w₀.isHeld = true) (orderly : ∀ k, (w₀.shelf k).Orderly k)
    (rule : w₀.dispatch = .queue) {hs : List HandleId} (out : Withdrawn w₀ w (h :: hs))
    (fixed : w.fixtures = w₀.fixtures) : Meets w₀ w (w.forceClose h).1 h.key := by
  have hshelf := out.shelf h (List.mem_cons_self ..)
  have hserving := out.serving h (List.mem_cons_self ..)
  have hopen := (((orderly h.key).placed.serving_iff h).mp hserving).2
  have hheld : w.isHeld = true := by rwa [isHeld, out.clones, out.teardowns]
  change (w₀.phase h).isOpen = true at hopen
  cases hp : w₀.phase h with
  | live link refs => exact meets_live hshelf hserving (orderly h.key) hp
  | pending queue => exact meets_pending hshelf hserving (orderly h.key) hheld fixed rule hp
  | orphaned refs =>
    rw [hp] at hopen
    contradiction
  | closed =>
    rw [hp] at hopen
    contradiction

/-! ## All handles -/

/-- The keys of a list have come to what `w₀` had in store for them, one after the other. -/
structure Drains (w₀ w w' : Hub) (ks : List Key) : Prop where
  shelf : ∀ k ∈ ks, w'.shelf k = w₀.drainedShelf k
  others : ∀ k, k ∉ ks → w'.shelf k = w.shelf k
  events : ∃ es, w'.events = es ++ w.events ∧
    es.map Event.nameless = ks.reverse.flatMap w₀.drainedEvents
  counters : ∀ c, w'.counters.get c =
    w.counters.get c + UInt64.ofNat (ks.countP (w₀.drainCounts c))
  fixtures : w'.fixtures = w.fixtures

/-- Handles that are out of service meet their fates one after the other. -/
theorem drains_forceCloseEach (held : w₀.isHeld = true) (orderly : ∀ k, (w₀.shelf k).Orderly k)
    (rule : w₀.dispatch = .queue) {hs : List HandleId} (out : Withdrawn w₀ w hs)
    (fixed : w.fixtures = w₀.fixtures) :
    Drains w₀ w (w.forceCloseEach hs).1 (hs.map (·.key)) := by
  induction hs generalizing w with
  | nil =>
    refine ⟨fun k hk => ?_, fun _ _ => rfl, ⟨[], rfl, rfl⟩, fun c => (UInt64.add_zero _).symm, rfl⟩
    contradiction
  | cons h hs ih =>
    have hone := meets_forceClose held orderly rule out fixed
    obtain ⟨g, hg⟩ := exists_grows_forceClose (out.fits orderly)
    have hsame : (w.forceClose h).1.fixtures = w.fixtures := hg.fixtures
    obtain ⟨-, hframe, -, hout⟩ := out.forceClose held orderly
    have hnodup := out.nodup
    rw [List.map_cons, List.nodup_cons] at hnodup
    have hrest := ih hout (hsame.trans fixed)
    obtain ⟨es, hes, hmap⟩ := hone.events
    obtain ⟨es', hes', hmap'⟩ := hrest.events
    change Drains w₀ w ((w.forceClose h).1.forceCloseEach hs).1 (h.key :: hs.map (·.key))
    refine ⟨fun k hk => ?_, fun k hk => ?_, ⟨es' ++ es, ?_, ?_⟩, fun c => ?_,
      hrest.fixtures.trans hsame⟩
    · rcases List.mem_cons.mp hk with rfl | hk
      · exact (hrest.others h.key hnodup.1).trans hone.shelf
      · exact hrest.shelf k hk
    · rw [List.mem_cons, not_or] at hk
      exact (hrest.others k hk.2).trans (hframe.shelf k hk.1)
    · rw [hes', hes, List.append_assoc]
    · rw [List.map_append, hmap, hmap', List.reverse_cons, List.flatMap_append,
        List.flatMap_singleton]
    · rw [hrest.counters, hone.counters, UInt64.add_assoc, ← UInt64.ofNat_add, List.countP_cons,
        Nat.add_comm]

/-! ## What a key looks like afterwards -/

/-- The handle has ended, and no key serves or keeps it. -/
structure IsOver (w : Hub) (h : HandleId) : Prop where
  closed : w.phase h = .closed
  unserved : ∀ k, w.serving k ≠ some h
  unkept : ∀ k, h ∉ (w.shelf k).orphans

theorem isOver_of_closed (orderly : ∀ k, (w.shelf k).Orderly k) (hp : w.phase h = .closed) :
    w.IsOver h := by
  refine ⟨hp, fun k hs => ?_, fun k hm => ?_⟩
  · obtain ⟨rfl, hopen⟩ := ((orderly k).placed.serving_iff h).mp hs
    rw [← phase_eq, hp] at hopen
    contradiction
  · obtain ⟨rfl, refs, horphaned⟩ := ((orderly k).placed.mem_orphans_iff h).mp hm
    rw [← phase_eq, hp] at horphaned
    contradiction

/-- What the first poll of a teardown has made of a key, between `w` and `w'`; the events are those of
the key in between. -/
structure KeyDrained (w w' : Hub) (es : List Event) (k : Key) : Prop where
  /-- A handle with a link is the newest orphan, with all its references, and its link was asked to
  close once. -/
  live : ∀ h link refs, w.serving k = some h → w.phase h = .live link refs →
    w'.serving k = none ∧ (w'.shelf k).orphans = (w.shelf k).orphans ++ [h] ∧
      w'.phase h = .orphaned refs ∧ es = [.close link.id]
  /-- A handle that somebody waited for has ended. A fresh handle has its tickets but those that were
  dropped, in their order, and has asked for a link once. -/
  requeued : ∀ h queue, w.serving k = some h → w.phase h = .pending queue → w.wanted queue ≠ [] →
    w'.serving k = some (w.nextHandle k) ∧ w'.phase (w.nextHandle k) = .pending (w.wanted queue) ∧
      (w'.shelf k).creations = (w.shelf k).creations ++ [w.nextCreation k] ∧
      es.map Event.nameless =
        [.create (.made k (w.shelf k).creations.length) (Request.make k "" w.node)] ∧
      w'.IsOver h ∧ h ≠ w.nextHandle k
  /-- A handle that nobody waited for any more has ended. -/
  dismissed : ∀ h queue, w.serving k = some h → w.phase h = .pending queue → w.wanted queue = [] →
    w'.serving k = none ∧ (w'.shelf k).creations = (w.shelf k).creations ∧ es = [] ∧ w'.IsOver h
  /-- Nothing happens to a key without a handle in service. -/
  free : w.serving k = none → w'.shelf k = w.shelf k ∧ es = []
  /-- The orphans of before keep their places. -/
  orphans : (w.shelf k).orphans <+: (w'.shelf k).orphans
  /-- All handles but the one in service keep their references. -/
  phases : ∀ i, i < (w.shelf k).phases.length → w.serving k ≠ some ⟨k, i⟩ →
    w'.phase ⟨k, i⟩ = w.phase ⟨k, i⟩
  tickets : (w'.shelf k).tickets = (w.shelf k).tickets

/-- An event that is more than its name gone. -/
theorem nameless_eq_close {e : Event} {id : LinkId} (he : e.nameless = .close id) : e = .close id := by
  cases e with
  | create => contradiction
  | close | wake | refund => exact he

theorem tickets_drainedShelf (w : Hub) (k : Key) :
    (w.drainedShelf k).tickets = (w.shelf k).tickets := by
  unfold drainedShelf
  split <;> rfl

theorem prefix_drainedShelf (w : Hub) (k : Key) :
    (w.shelf k).orphans <+: (w.drainedShelf k).orphans := by
  unfold drainedShelf
  split
  · exact List.prefix_rfl
  · exact List.prefix_append _ _
  · exact List.prefix_rfl
  · exact List.prefix_rfl

/-- The fate of the handle in service shows at no other one. -/
theorem phase_drainedShelf {i : Nat} (hi : i < (w.shelf k).phases.length)
    (hne : ∀ h, w.serving k = some h → i ≠ h.index) :
    (w.drainedShelf k).phase i = (w.shelf k).phase i := by
  unfold drainedShelf fate
  cases hs : w.serving k with
  | none => rfl
  | some h =>
    have hout := hne h hs
    dsimp only
    cases hp : w.phase h with
    | orphaned | closed => rfl
    | live => exact Shelf.phase_setPhase_ne hout _
    | pending queue =>
      dsimp only
      cases w.wanted queue with
      | nil => exact Shelf.phase_setPhase_ne hout _
      | cons first rest =>
        dsimp only
        rw [Shelf.phase_openHandle, if_neg ?_]
        · exact Shelf.phase_setPhase_ne hout _
        · change i ≠ ((w.shelf k).setPhase h.index .closed).phases.length
          rw [Shelf.length_setPhase]
          omega

/-- A key that has met its fate looks as it should. -/
theorem keyDrained_of_fate (orderly : (w.shelf k).Orderly k) (orderly' : ∀ k, (w'.shelf k).Orderly k)
    {es : List Event} (hshelf : w'.shelf k = w.drainedShelf k)
    (hevents : es.map Event.nameless = w.drainedEvents k) : KeyDrained w w' es k := by
  have hkey : ∀ h, w.serving k = some h → h.key = k ∧ h.index < (w.shelf k).phases.length := by
    intro h hs
    obtain ⟨rfl, hopen⟩ := (orderly.placed.serving_iff h).mp hs
    exact ⟨rfl, Shelf.lt_of_phase_ne (by intro e; simp [e, Phase.isOpen] at hopen)⟩
  constructor
  case live =>
    intro h link refs hs hp
    obtain ⟨rfl, hlt⟩ := hkey h hs
    rw [drainedShelf, fate_of_live hs hp] at hshelf
    rw [drainedEvents, fate_of_live hs hp] at hevents
    refine ⟨?_, ?_, ?_, ?_⟩
    · rw [serving_eq, hshelf]
      rfl
    · rw [hshelf]
      rfl
    · rw [phase_eq, hshelf, Shelf.phase_setPhase_self (s := (w.shelf h.key).unlink h) hlt]
    · obtain ⟨e, rfl, he⟩ := List.map_eq_singleton_iff.mp hevents
      rw [nameless_eq_close he]
  case requeued =>
    intro h queue hs hp hw
    obtain ⟨rfl, hlt⟩ := hkey h hs
    obtain ⟨first, rest, hw⟩ := List.exists_cons_of_ne_nil hw
    rw [drainedShelf, fate_of_wanted hs hp hw] at hshelf
    rw [drainedEvents, fate_of_wanted hs hp hw] at hevents
    have hlength : ((w.shelf h.key).setPhase h.index .closed).phases.length =
        (w.shelf h.key).phases.length := Shelf.length_setPhase _ _ _
    refine ⟨?_, ?_, ?_, hevents, isOver_of_closed orderly' ?_, ?_⟩
    · rw [serving_eq, hshelf, nextHandle, ← hlength]
      rfl
    · rw [phase_eq, nextHandle, hshelf, hw, ← hlength]
      exact Shelf.phase_openHandle_self _ _ _ _
    · rw [hshelf]
      rfl
    · rw [phase_eq, hshelf, Shelf.phase_openHandle, if_neg ?_]
      · exact Shelf.phase_setPhase_self hlt _
      · change h.index ≠ ((w.shelf h.key).setPhase h.index .closed).phases.length
        rw [hlength]
        omega
    · intro e
      rw [e] at hlt
      exact Nat.lt_irrefl _ hlt
  case dismissed =>
    intro h queue hs hp hw
    obtain ⟨rfl, hlt⟩ := hkey h hs
    rw [drainedShelf, fate_of_unwanted hs hp hw] at hshelf
    rw [drainedEvents, fate_of_unwanted hs hp hw] at hevents
    refine ⟨?_, ?_, List.map_eq_nil_iff.mp hevents, isOver_of_closed orderly' ?_⟩
    · rw [serving_eq, hshelf]
      rfl
    · rw [hshelf]
      rfl
    · rw [phase_eq, hshelf]
      exact Shelf.phase_setPhase_self hlt _
  case free =>
    intro hs
    rw [drainedShelf, fate_of_free hs] at hshelf
    rw [drainedEvents, fate_of_free hs] at hevents
    exact ⟨hshelf, List.map_eq_nil_iff.mp hevents⟩
  case orphans =>
    rw [hshelf]
    exact prefix_drainedShelf w k
  case phases =>
    intro i hi hne
    rw [phase_eq, hshelf, phase_eq]
    refine phase_drainedShelf hi fun h hs e => hne ?_
    obtain ⟨rfl, -⟩ := hkey h hs
    obtain rfl : i = h.index := e
    exact hs
  case tickets =>
    rw [hshelf]
    exact tickets_drainedShelf w k

/-! ## The first poll -/

theorem of_fate_orphaned {link : Link} {refs : Nat} (hf : w.fate k = .orphaned h link refs) :
    w.serving k = some h ∧ w.phase h = .live link refs := by
  unfold fate at hf
  cases hs : w.serving k with
  | none => simp [hs] at hf
  | some h' =>
    simp only [hs] at hf
    split at hf
    · rename_i hp
      obtain ⟨rfl, rfl, rfl⟩ := Fate.orphaned.inj hf
      exact ⟨rfl, hp⟩
    · split at hf <;> contradiction
    · contradiction
    · contradiction

/-- What others see of a key's fate is about that key, and wakes nobody. -/
theorem of_mem_drainedEvents (orderly : (w.shelf k).Orderly k) {e : Event}
    (he : e ∈ w.drainedEvents k) : e.key? = some k ∧ ∀ id n, e ≠ .wake id n := by
  unfold drainedEvents at he
  split at he
  · contradiction
  · contradiction
  · rename_i h link refs hfate
    obtain ⟨hs, hp⟩ := of_fate_orphaned hfate
    obtain ⟨rfl, -⟩ := (orderly.placed.serving_iff h).mp hs
    rw [List.mem_singleton.mp he, orderly.recorded.id_of_live hp]
    exact ⟨rfl, fun id n => Event.noConfusion⟩
  · rw [List.mem_singleton.mp he]
    exact ⟨rfl, fun id n => Event.noConfusion⟩

theorem filter_flatMap_drainedEvents (orderly : ∀ k, (w.shelf k).Orderly k) {ks : List Key}
    (distinct : ks.Nodup) (k : Key) :
    (ks.flatMap w.drainedEvents).filter (fun e => e.key? = some k) =
      if k ∈ ks then w.drainedEvents k else [] := by
  induction ks with
  | nil => rfl
  | cons j ks ih =>
    rw [List.nodup_cons] at distinct
    rw [List.flatMap_cons, List.filter_append, ih distinct.2]
    by_cases hj : k = j
    · subst hj
      rw [if_neg distinct.1, List.append_nil, if_pos (List.mem_cons_self ..), List.filter_eq_self]
      intro e he
      simpa using (of_mem_drainedEvents (orderly k) he).1
    · have hnone : (w.drainedEvents j).filter (fun e => e.key? = some k) = [] := by
        refine List.filter_eq_nil_iff.mpr fun e he => ?_
        simpa [(of_mem_drainedEvents (orderly j) he).1] using Ne.symm hj
      rw [hnone, List.nil_append]
      simp [hj]

/-- What others see of a key when all keys come to their fates, the names of new links aside. -/
theorem filter_drained (orderly : ∀ k, (w.shelf k).Orderly k) {wish : List Key} {es : List Event}
    (hes : es.map Event.nameless = (w.servedInOrder wish).reverse.flatMap w.drainedEvents) (k : Key) :
    (es.filter fun e => e.key? = some k).map Event.nameless = w.drainedEvents k := by
  have hfilter : (es.filter fun e => e.key? = some k).map Event.nameless =
      (es.map Event.nameless).filter fun e => e.key? = some k := by
    rw [List.filter_map]
    simp only [Function.comp_def, Event.key?_nameless]
  rw [hfilter, hes, filter_flatMap_drainedEvents orderly
    (List.nodup_reverse.mpr (nodup_servedInOrder w wish))]
  split
  · rfl
  · rename_i hk
    rw [List.mem_reverse, mem_servedInOrder, Option.not_isSome_iff_eq_none] at hk
    rw [drainedEvents, fate_of_free hk]

/-- All that others see then is about a key, and nobody is woken. -/
theorem key_of_drained (orderly : ∀ k, (w.shelf k).Orderly k) {wish : List Key} {es : List Event}
    (hes : es.map Event.nameless = (w.servedInOrder wish).reverse.flatMap w.drainedEvents) {e : Event}
    (he : e ∈ es) : e.key?.isSome = true ∧ ∀ id n, e ≠ .wake id n := by
  have hm : e.nameless ∈ (w.servedInOrder wish).reverse.flatMap w.drainedEvents :=
    hes ▸ List.mem_map_of_mem he
  obtain ⟨k, -, hk⟩ := List.mem_flatMap.mp hm
  obtain ⟨hkey, hwake⟩ := of_mem_drainedEvents (orderly k) hk
  refine ⟨?_, fun id n hw => ?_⟩
  · rw [← Event.key?_nameless, hkey]
    rfl
  · subst hw
    exact hwake id n rfl

/-- When the first poll of a teardown begins, it brings every key to its fate. -/
theorem drains_beginTeardown (held : w.isHeld = true) (orderly : ∀ k, (w.shelf k).Orderly k)
    (rule : w.dispatch = .queue) (wish : List Key) :
    Drains w w (w.beginTeardown .all wish).1 (w.servedInOrder wish) := by
  obtain ⟨hout, hkeys⟩ := withdrawn_unlinkAll orderly wish
    (.tearingDown (w.unlinkAll wish).2.length)
  obtain ⟨hevents, -, -, -⟩ := foldl_unlink w (w.servedInOrder wish)
  obtain ⟨hcounters, hfixtures⟩ : ((w.servedInOrder wish).foldl unlink w).counters = w.counters ∧
      ((w.servedInOrder wish).foldl unlink w).fixtures = w.fixtures := by
    obtain ⟨shelves, e⟩ := exists_shelves_unlink w (w.servedInOrder wish)
    rw [e]
    exact ⟨rfl, rfl⟩
  have hshelf := shelf_foldl_unlink w _ (nodup_servedInOrder w wish)
  have hdrains := drains_forceCloseEach held orderly rule hout hfixtures
  rw [hkeys] at hdrains
  obtain ⟨es, hes, hmap⟩ := hdrains.events
  refine ⟨hdrains.shelf, fun k hk => ?_, ⟨es, hes.trans (congrArg _ hevents), hmap⟩, fun c => ?_,
    hdrains.fixtures.trans hfixtures⟩
  · have hsame := hshelf k
    rw [if_neg hk] at hsame
    exact (hdrains.others k hk).trans hsame
  · exact (hdrains.counters c).trans (congrArg (fun m => Counters.get m c + _) hcounters)

/-- A teardown that was not polled yet holds the hub. -/
theorem held_of_begins {i : Nat} (idle : w.begins i = true) :
    w.isHeld = true ∧ ∃ scope, w.teardowns[i]? = some ⟨scope, .idle⟩ := by
  unfold begins at idle
  split at idle
  · rename_i scope found
    rw [isHeld, Bool.or_eq_true, List.any_eq_true]
    exact ⟨Or.inr ⟨_, List.mem_of_getElem? found, rfl⟩, scope, found⟩
  · contradiction

/-- So the hub is sound, and the teardown is of everything. -/
theorem sound_of_begins {i : Nat} (sound : w.isHeld = true → w.Sound) (idle : w.begins i = true) :
    w.isHeld = true ∧ w.Sound ∧ w.teardowns[i]? = some ⟨.all, .idle⟩ := by
  obtain ⟨held, scope, found⟩ := held_of_begins idle
  obtain rfl : scope = .all := (sound held).scope _ (List.mem_of_getElem? found)
  exact ⟨held, sound held, found⟩

/-- What the first poll of a teardown does, for jobs that wait until they are run. Every key comes to
what is said in `KeyDrained`, no ticket is settled and nobody woken, and the counters go up by what is
said in `drainCounts`, once for each key that was served. -/
theorem drains_play {settings : Settings} {seed : UInt64} {ambient : Option Dispatch} {w₀ : Hub}
    (built : settings.build seed ambient = .ok w₀) (rule : w₀.dispatch = .queue) (ms : List Move)
    {i : Nat} (idle : (w₀.play ms).begins i = true) (wish : List Key) :
    ∃ es, ((w₀.play ms).move (.pollTeardown i wish)).events = es ++ (w₀.play ms).events ∧
      (∀ k, KeyDrained (w₀.play ms) ((w₀.play ms).move (.pollTeardown i wish))
        (es.filter fun e => e.key? = some k) k) ∧
      (∀ e ∈ es, e.key?.isSome = true ∧ ∀ id n, e ≠ .wake id n) ∧
      ((w₀.play ms).move (.pollTeardown i wish)).loose = (w₀.play ms).loose ∧
      ∀ c, ((w₀.play ms).move (.pollTeardown i wish)).counters.get c =
        (w₀.play ms).counters.get c +
          UInt64.ofNat ((w₀.play ms).servedKeys.countP ((w₀.play ms).drainCounts c)) := by
  have hrule : (w₀.play ms).dispatch = .queue := (dispatch_play (tidy_build built) ms).trans rule
  have hsound : (w₀.play ms).isHeld = true → (w₀.play ms).Sound := (sound_build built).play
  generalize w₀.play ms = w at *
  obtain ⟨held, scope, found⟩ := held_of_begins idle
  obtain ⟨orderly, -, hscope⟩ := hsound held
  obtain rfl : scope = .all := hscope _ (List.mem_of_getElem? found)
  have hdrains := drains_beginTeardown held orderly hrule wish
  obtain ⟨hmoves, -, -⟩ := beginTeardown_moves held orderly wish
  have hpoll : w.move (.pollTeardown i wish) = ((w.beginTeardown .all wish).1.concludeTeardown i .all
      (w.beginTeardown .all wish).2).1 := by
    exact congrArg Prod.fst (pollTeardown_of_idle found wish)
  have hconclude := concludeTeardown_eq (w.beginTeardown .all wish).1 i .all
    (w.beginTeardown .all wish).2
  obtain ⟨hshelves, hevents, hcounters, hloose⟩ :
      ((w.beginTeardown .all wish).1.concludeTeardown i .all (w.beginTeardown .all wish).2).1.shelves =
        (w.beginTeardown .all wish).1.shelves ∧
      ((w.beginTeardown .all wish).1.concludeTeardown i .all (w.beginTeardown .all wish).2).1.events =
        (w.beginTeardown .all wish).1.events ∧
      ((w.beginTeardown .all wish).1.concludeTeardown i .all
          (w.beginTeardown .all wish).2).1.counters = (w.beginTeardown .all wish).1.counters ∧
      ((w.beginTeardown .all wish).1.concludeTeardown i .all
          (w.beginTeardown .all wish).2).1.loose = (w.beginTeardown .all wish).1.loose := by
    obtain ⟨journal, e⟩ := hconclude
    rw [e]
    exact ⟨rfl, rfl, rfl, rfl⟩
  have hshelf : ∀ k, (w.beginTeardown .all wish).1.shelf k = w.drainedShelf k := by
    intro k
    by_cases hk : k ∈ w.servedInOrder wish
    · exact hdrains.shelf k hk
    · rw [mem_servedInOrder, Option.not_isSome_iff_eq_none] at hk
      rw [hdrains.others k (by rw [mem_servedInOrder, hk]; simp), drainedShelf, fate_of_free hk]
  obtain ⟨es, hes, hmap⟩ := hdrains.events
  have hshelf' : ∀ k, ((w.beginTeardown .all wish).1.concludeTeardown i .all
      (w.beginTeardown .all wish).2).1.shelf k = w.drainedShelf k :=
    fun k => (congrArg (·.get k) hshelves).trans (hshelf k)
  rw [hpoll]
  refine ⟨es, hevents.trans hes, fun k => ?_, fun e he => ?_, ?_, fun c => ?_⟩
  · refine keyDrained_of_fate (orderly k) (fun j => ?_) (hshelf' k) ?_
    · obtain ⟨woken, hstep, -⟩ := hmoves.step j
      have horderly := hstep.orderly (orderly j)
      rw [hshelf j, ← hshelf' j] at horderly
      exact horderly
    · exact filter_drained orderly hmap k
  · exact key_of_drained orderly hmap he
  · exact hloose.trans (congrArg (fun f => f.2.2.2.2) hdrains.fixtures)
  · rw [hcounters, hdrains.counters c, (perm_servedInOrder w wish).countP_eq]

/-- Two keys are asked for, one of them twice, and the link of the other arrives; then one of the three
callers goes away, and a teardown is made. -/
def askThree : List Move :=
  [.acquire sampleKey, .acquire sampleKey, .acquire ⟨"b", none⟩, .runJob ⟨.made ⟨"b", none⟩ 0, .create⟩,
    .drop sampleKey 0, .tearDown]

/-- The first poll of the teardown moves the caller who is left to a fresh handle, and leaves the link
that has arrived to its holder. -/
theorem drains_play_askThree : (sample.play askThree).begins 0 = true ∧
    (sample.play askThree).wanted [.forKey sampleKey 0, .forKey sampleKey 1] =
      [.forKey sampleKey 1] ∧
    ((sample.play askThree).move (.pollTeardown 0 [])).phase ⟨sampleKey, 1⟩ =
      .pending [.forKey sampleKey 1] ∧
    ((sample.play askThree).move (.pollTeardown 0 [])).phase ⟨⟨"b", none⟩, 0⟩ = .orphaned 1 ∧
    ((sample.play askThree).move (.pollTeardown 0 [])).counters.get .forceCloses =
      (sample.play askThree).counters.get .forceCloses +
        UInt64.ofNat ((sample.play askThree).servedKeys.countP
          ((sample.play askThree).drainCounts .forceCloses)) := by
  have hbegins : (sample.play askThree).begins 0 = true := by decide
  have hwanted : (sample.play askThree).wanted [.forKey sampleKey 0, .forKey sampleKey 1] =
      [.forKey sampleKey 1] := by decide
  obtain ⟨es, -, hkeys, -, -, hcounters⟩ := drains_play build_sample rfl askThree hbegins []
  obtain ⟨-, hqueue, -⟩ := (hkeys sampleKey).requeued ⟨sampleKey, 0⟩
    [.forKey sampleKey 0, .forKey sampleKey 1] (by decide) (by decide) (by rw [hwanted]; simp)
  obtain ⟨-, -, horphaned, -⟩ := (hkeys ⟨"b", none⟩).live ⟨⟨"b", none⟩, 0⟩
    (({} : Prospect).link (.made ⟨"b", none⟩ 0)) 1 (by decide) (by decide)
  refine ⟨hbegins, hwanted, ?_, horphaned, hcounters _⟩
  rw [hwanted] at hqueue
  exact hqueue

end Hub

end SharedLinks
