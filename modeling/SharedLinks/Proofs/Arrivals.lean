import SharedLinks.Proofs.Offers

/-!
# Outcomes of creations arrive

`fulfil_arrived` and `fail_arrived` show that the outcome of a creation, given to its handle, changes
the shelf of its key by one `Arrival`, wakes exactly the polls that the arrival names, and touches no
other key. Counting and noting is `Silent` throughout.
-/

namespace SharedLinks

namespace Hub

/-! ## Counting and noting -/

/-- Only counters, journal and link names have changed. -/
structure Silent (w w' : Hub) : Prop where
  shelves : w'.shelves = w.shelves
  events : w'.events = w.events
  jobs : w'.jobs = w.jobs
  dispatch : w'.dispatch = w.dispatch
  clones : w'.clones = w.clones
  teardowns : w'.teardowns = w.teardowns

namespace Silent

variable {w w' : Hub}

theorem refl (w : Hub) : Silent w w := ⟨rfl, rfl, rfl, rfl, rfl, rfl⟩

theorem trans {w'' : Hub} (h : Silent w w') (h' : Silent w' w'') : Silent w w'' :=
  ⟨h'.shelves.trans h.shelves, h'.events.trans h.events, h'.jobs.trans h.jobs,
    h'.dispatch.trans h.dispatch, h'.clones.trans h.clones, h'.teardowns.trans h.teardowns⟩

theorem shelf (h : Silent w w') (k : Key) : w'.shelf k = w.shelf k := by
  rw [Hub.shelf, h.shelves, Hub.shelf]

theorem wakes (h : Silent w w') (k : Key) : w'.wakes k = w.wakes k := by
  rw [Hub.wakes, h.events, Hub.wakes]

theorem frame (h : Silent w w') (k : Key) : Frame k w w' :=
  ⟨fun j _ => h.shelf j, fun j _ => h.wakes j, h.clones, h.teardowns⟩

theorem closes (h : Silent w w') (id : LinkId) : w'.HasClosed id ↔ w.HasClosed id := by
  rw [HasClosed, h.events, HasClosed]

end Silent

theorem silent_note (w : Hub) (n : Notice) : Silent w (w.note n) := ⟨rfl, rfl, rfl, rfl, rfl, rfl⟩

theorem silent_countBy (w : Hub) (c : Counter) (n : Nat) : Silent w (w.countBy c n) :=
  ⟨rfl, rfl, rfl, rfl, rfl, rfl⟩

theorem silent_count (w : Hub) (c : Counter) : Silent w (w.count c) := silent_countBy w c 1

/-- Looking whether a link has closed shows in counters and journal only. -/
theorem silent_awaitClose (w : Hub) (h : HandleId) (link : Link) :
    Silent w (w.awaitClose h link).1 := by
  unfold awaitClose
  split
  · exact Silent.refl w
  · exact silent_note _ _
  · exact (silent_count _ _).trans (silent_note _ _)

theorem silent_workAwaitClose (w : Hub) (j : Job) : Silent w (w.workAwaitClose j).1 := by
  have h := silent_awaitClose w j.owner j.link
  unfold workAwaitClose
  split <;> simp_all

theorem stage_workAwaitClose (w : Hub) (j : Job) {stage : Stage}
    (h : (w.workAwaitClose j).2 = some stage) : stage = .awaitClose := by
  unfold workAwaitClose at h
  split at h <;> simp_all

/-! ## Outcomes of creations -/

/-- The outcome of creation `i` of the key has reached its handle. -/
structure Arrived (k : Key) (i : Nat) (woken : List (Nat × Nat)) (w w' : Hub) : Prop where
  frame : Frame k w w'
  arrival : Shelf.Arrival k i (w.shelf k) woken (w'.shelf k)
  wakes : w'.wakes k = w.wakes k ++ woken
  jobs : w'.jobs = w.jobs
  closes : ∀ id, w'.HasClosed id → w.HasClosed id

variable {w : Hub} {k : Key} {i : Nat} {c : Creation}

theorem shelf_markDelivered (w : Hub) (k : Key) (i : Nat) :
    (w.markDelivered (.made k i)).shelf k = (w.shelf k).markDelivered i := by
  rw [markDelivered_eq, shelf_onShelf_self]

/-- Nobody takes an offer when nobody waits. -/
theorem settle_eq_self {s : Shelf} (h : s.waiting = 0) (outcome : Outcome)
    (refund : Option Refund) : s.settle outcome refund = s := by
  rw [Shelf.waiting, List.countP_eq_zero] at h
  unfold Shelf.settle
  have : s.tickets.map (·.accept outcome refund) = s.tickets := by
    rw [List.map_congr_left (g := id), List.map_id]
    intro t ht
    exact Ticket.accept_of_not_isWaiting (by simpa using h t ht) _ _
  rw [this]

theorem sleepers_eq_nil {s : Shelf} (h : s.waiting = 0) (k : Key) (queue : List TicketId) :
    s.sleepers k queue = [] := by
  rw [Shelf.waiting, List.countP_eq_zero] at h
  unfold Shelf.sleepers
  rw [List.filterMap_eq_nil_iff]
  rintro (⟨j, n⟩ | n) -
  · dsimp only
    split
    · cases ht : s.tickets[n]? with
      | none => rfl
      | some t =>
        have hw : t.isWaiting = false := by simpa using h t (List.mem_of_getElem? ht)
        rw [Option.bind_some, Ticket.sleeper?_of_not_isWaiting hw]
        rfl
    · rfl
  · rfl

/-- A handle in service that ends leaves the key without one. -/
theorem shelf_forget_serving {w : Hub} (held : w.isHeld = true)
    (hs : (w.shelf k).serving = some ⟨k, i⟩) :
    (w.forget k ⟨k, i⟩).shelf k = (w.shelf k).serve none := by
  rw [shelf_forget held, Shelf.forget_of_serving hs]

/-- A link that arrives in time or too late changes the shelf by an arrival; if it has to be closed
again, its handle has come to its end. -/
theorem fulfil_arrived (held : w.isHeld = true) (h : (w.shelf k).Orderly k)
    (found : (w.shelf k).creations[i]? = some c) (made : c.making = .opened none)
    (fresh : c.delivered = false) :
    ∃ woken, Arrived k i woken w ((w.markDelivered (.made k i)).fulfil ⟨k, i⟩ c.link).1 ∧
      (((w.markDelivered (.made k i)).fulfil ⟨k, i⟩ c.link).2 = true →
        (((w.markDelivered (.made k i)).fulfil ⟨k, i⟩ c.link).1.shelf k).phase i = .closed) := by
  have hmark := shelf_markDelivered w k i
  have hframe : Frame k w (w.markDelivered (.made k i)) := (Frame.refl k w).onShelf _
  have hphase : (w.markDelivered (.made k i)).phase ⟨k, i⟩ = (w.shelf k).phase i := by
    rw [phase_eq, hmark]
    rfl
  have hfits := h.recorded.fits i c found
  unfold fulfil
  rw [hphase]
  cases hp : (w.shelf k).phase i with
  | closed =>
    refine ⟨[], ⟨(hframe.note _).count _, ?_, (List.append_nil _).symm, rfl, fun _ => id⟩, ?_⟩
    · change Shelf.Arrival k i (w.shelf k) [] ((w.markDelivered (.made k i)).shelf k)
      rw [hmark]
      exact .late hp found fresh
    · intro _
      change ((w.markDelivered (.made k i)).shelf k).phase i = .closed
      rw [hmark]
      exact hp
  -- a handle that has its link, or had it, belongs to a creation that was delivered
  | live link refs =>
    rw [hp] at hfits
    rw [hfits.2] at fresh
    contradiction
  | orphaned refs =>
    rw [hp] at hfits
    rw [show c.delivered = true from hfits] at fresh
    contradiction
  | pending queue =>
    obtain ⟨hset, hrefs⟩ := grant_settled h hp (w := w.markDelivered (.made k i)) (by rw [hmark]; rfl)
      ⟨k, i⟩ c.link
    have hgframe := hframe.trans hset.frame
    have hshelf := hset.shelf
    have hwakes := hset.wakes
    rw [hmark] at hshelf hwakes
    simp only
    rw [hrefs]
    generalize ((w.markDelivered (.made k i)).grant ⟨k, i⟩ c.link queue).1 = w' at *
    split
    · -- nobody takes the link: the handle ends, and the link is closed again
      rename_i hzero
      rw [settle_eq_self (s := (w.shelf k).markDelivered i) hzero] at hshelf
      rw [sleepers_eq_nil (s := (w.shelf k).markDelivered i) hzero] at hwakes
      let w'' := ((w'.note (.created k c.link.identity (w.shelf k).waiting)).setPhase ⟨k, i⟩
        .closed).note (.unwanted k queue.length)
      have hw'' : w''.shelf k = ((w.shelf k).markDelivered i).setPhase i .closed := by
        rw [← hshelf]
        exact shelf_onShelf_self _ _ _
      have hframe'' : Frame k w w'' := ((hgframe.note _).onShelf _).note _
      have hend : ((w''.forget k ⟨k, i⟩).count .closes).shelf k =
          (((w.shelf k).markDelivered i).setPhase i .closed).serve none := by
        rw [shelf_count, shelf_forget_serving (by rw [hframe''.isHeld, held]), hw'']
        rw [hw'']
        exact h.placed.serving_of_pending hp
      refine ⟨[], ⟨(hframe''.trans (frame_forget _ _ _)).count _, ?_, ?_, ?_, ?_⟩, fun _ => ?_⟩
      · exact hend ▸ .unwanted hp found made hzero
      · exact (wakes_forget w'' k k _).trans hwakes
      · exact (jobs_forget w'' k _).trans hset.jobs
      · intro id hid
        rw [HasClosed, show ((w''.forget k ⟨k, i⟩).count .closes).events = w''.events from
          events_forget w'' k _] at hid
        exact hset.closes id hid
      · change (((w''.forget k ⟨k, i⟩).count .closes).shelf k).phase i = .closed
        rw [hend, Shelf.phase_serve, Shelf.phase_setPhase_self]
        exact Shelf.lt_of_phase_ne (s := w.shelf k) (by simp [hp])
    · -- the handle goes live with one reference for each who took the link
      rename_i hpos
      refine ⟨(w.shelf k).sleepers k queue,
        ⟨(hgframe.note _).onShelf _, ?_, hwakes, hset.jobs, hset.closes⟩, ?_⟩
      · rw [setPhase_eq, shelf_onShelf_self, shelf_note, hshelf]
        exact .granted hp found made (Nat.pos_of_ne_zero hpos)
      · intro e
        contradiction

/-- A failure that arrives in time or too late changes the shelf by an arrival. -/
theorem fail_arrived (held : w.isHeld = true) (h : (w.shelf k).Orderly k)
    (found : (w.shelf k).creations[i]? = some c) {failure : String}
    (made : c.making = .opened (some failure)) (fresh : c.delivered = false) :
    ∃ woken, Arrived k i woken w ((w.markDelivered (.made k i)).fail ⟨k, i⟩ failure) := by
  have hmark := shelf_markDelivered w k i
  let w' := ((w.markDelivered (.made k i)).note (.creationFailed k
    (.creation k (.message failure)))).count .creationFailures
  have hframe : Frame k w w' := (((Frame.refl k w).onShelf _).note _).count _
  have hphase : w'.phase ⟨k, i⟩ = (w.shelf k).phase i := by
    rw [← Shelf.phase_markDelivered (w.shelf k) i i, ← hmark]
    rfl
  have hfits := h.recorded.fits i c found
  unfold fail
  dsimp only
  rw [show (((w.markDelivered (.made k i)).note _).count _).phase ⟨k, i⟩ = (w.shelf k).phase i
    from hphase]
  cases hp : (w.shelf k).phase i with
  | closed =>
    refine ⟨[], ⟨hframe, ?_, (List.append_nil _).symm, rfl, fun _ => id⟩⟩
    change Shelf.Arrival k i (w.shelf k) [] ((w.markDelivered (.made k i)).shelf k)
    rw [hmark]
    exact .late hp found fresh
  -- as for links, only a closed or a pending handle can still get this outcome
  | live link refs =>
    rw [hp] at hfits
    rw [hfits.2] at fresh
    contradiction
  | orphaned refs =>
    rw [hp] at hfits
    rw [show c.delivered = true from hfits] at fresh
    contradiction
  | pending queue =>
    have hclosed : (w'.setPhase ⟨k, i⟩ .closed).shelf k =
        ((w.shelf k).markDelivered i).setPhase i .closed := by
      rw [← hmark]
      exact shelf_onShelf_self _ _ _
    have hframe' : Frame k w ((w'.setPhase ⟨k, i⟩ .closed).forget k ⟨k, i⟩) :=
      (hframe.onShelf _).trans (frame_forget _ _ _)
    have hend : ((w'.setPhase ⟨k, i⟩ .closed).forget k ⟨k, i⟩).shelf k =
        (((w.shelf k).markDelivered i).setPhase i .closed).serve none := by
      have hheld : (w'.setPhase ⟨k, i⟩ .closed).isHeld = true := (hframe.onShelf _).isHeld.trans held
      rw [shelf_forget_serving hheld, hclosed]
      rw [hclosed]
      exact h.placed.serving_of_pending hp
    -- those who wait are told after the handle is off the shelf
    have hset := refuse_settled h hp (w := (w'.setPhase ⟨k, i⟩ .closed).forget k ⟨k, i⟩)
      (by rw [hend]; rfl) (.creation k (.message failure))
    refine ⟨(w.shelf k).sleepers k queue, ⟨hframe'.trans hset.frame, ?_, ?_, ?_, ?_⟩⟩
    · rw [hset.shelf, hend]
      exact .failed hp found made
    · rw [hset.wakes, hend, wakes_forget]
      rfl
    · rw [hset.jobs, jobs_forget]
      rfl
    · intro id hid
      have := hset.closes id hid
      rwa [HasClosed, events_forget] at this

end Hub

end SharedLinks
