import SharedLinks.Hub.Teardown
import SharedLinks.Proofs.Books

/-!
# What a call leaves alone

Most of what a hub does concerns one key. `Hub.Frame` says what such a call leaves alone: the shelves
of the other keys with the wakes of their tickets, and who holds the hub. The lemmas on `settle`,
`grant`, `refuse`, `beginClose` and `awaitClose` say what these do to the shelf of the key itself, to
the wakes and to the closes that others can see.
-/

namespace SharedLinks

/-- The wake of a key's ticket, by ticket and number of the poll. -/
def Event.wake? (k : Key) : Event → Option (Nat × Nat)
  | .wake (.forKey j n) poll => if j = k then some (n, poll) else none
  | _ => none

namespace Hub

/-- The wakes of a key's tickets, the earliest first. -/
def wakes (w : Hub) (k : Key) : List (Nat × Nat) := w.events.reverse.filterMap (Event.wake? k)

/-- Others have seen that the link was asked to close. -/
def HasClosed (w : Hub) (id : LinkId) : Prop := Event.close id ∈ w.events

/-- A call that concerns one key leaves the others and the holders of the hub alone. -/
structure Frame (k : Key) (w w' : Hub) : Prop where
  shelf : ∀ j, j ≠ k → w'.shelf j = w.shelf j
  wakes : ∀ j, j ≠ k → w'.wakes j = w.wakes j
  clones : w'.clones = w.clones
  teardowns : w'.teardowns = w.teardowns

namespace Frame

variable {k : Key} {w w' : Hub}

theorem refl (k : Key) (w : Hub) : Frame k w w := ⟨fun _ _ => rfl, fun _ _ => rfl, rfl, rfl⟩

theorem trans {w'' : Hub} (h : Frame k w w') (h' : Frame k w' w'') : Frame k w w'' :=
  ⟨fun j hj => (h'.shelf j hj).trans (h.shelf j hj), fun j hj => (h'.wakes j hj).trans (h.wakes j hj),
    h'.clones.trans h.clones, h'.teardowns.trans h.teardowns⟩

theorem isHeld (h : Frame k w w') : w'.isHeld = w.isHeld := by
  rw [Hub.isHeld, h.clones, h.teardowns, Hub.isHeld]

/-- A write on the shelf of the key. -/
theorem onShelf (h : Frame k w w') (f : Shelf → Shelf) : Frame k w (w'.onShelf k f) :=
  ⟨fun j hj => (shelf_onShelf_ne w' hj f).trans (h.shelf j hj), h.wakes, h.clones, h.teardowns⟩

theorem note (h : Frame k w w') (n : Notice) : Frame k w (w'.note n) :=
  ⟨h.shelf, h.wakes, h.clones, h.teardowns⟩

theorem countBy (h : Frame k w w') (c : Counter) (n : Nat) : Frame k w (w'.countBy c n) :=
  ⟨h.shelf, h.wakes, h.clones, h.teardowns⟩

theorem count (h : Frame k w w') (c : Counter) : Frame k w (w'.count c) := h.countBy c 1

/-- Something becomes visible that is not the wake of another key's ticket. -/
theorem emit (h : Frame k w w') {e : Event} (he : ∀ j, j ≠ k → e.wake? j = none) :
    Frame k w (w'.emit e) := by
  refine ⟨h.shelf, fun j hj => ?_, h.clones, h.teardowns⟩
  rw [← h.wakes j hj]
  unfold Hub.wakes Hub.emit
  rw [List.reverse_cons, List.filterMap_append, List.filterMap_cons, he j hj]
  simp

theorem jobs (h : Frame k w w') (jobs : List Job) (ready : List JobId) :
    Frame k w { w' with jobs := jobs, ready := ready } :=
  ⟨h.shelf, h.wakes, h.clones, h.teardowns⟩

end Frame

/-! ## Reads after writes -/

@[simp] theorem shelf_note (w : Hub) (n : Notice) (k : Key) : (w.note n).shelf k = w.shelf k := rfl

@[simp] theorem shelf_emit (w : Hub) (e : Event) (k : Key) : (w.emit e).shelf k = w.shelf k := rfl

@[simp] theorem shelf_count (w : Hub) (c : Counter) (k : Key) : (w.count c).shelf k = w.shelf k :=
  rfl

@[simp] theorem events_onShelf (w : Hub) (k : Key) (f : Shelf → Shelf) :
    (w.onShelf k f).events = w.events := rfl

theorem wakes_emit (w : Hub) (k : Key) (e : Event) :
    (w.emit e).wakes k = w.wakes k ++ (e.wake? k).toList := by
  unfold wakes emit
  rw [List.reverse_cons, List.filterMap_append]
  cases h : e.wake? k <;> simp [h]

/-- Taking a handle off the shelf of its key, while somebody holds the hub. -/
theorem shelf_forget {w : Hub} (held : w.isHeld = true) (k : Key) (h : HandleId) :
    (w.forget k h).shelf k = (w.shelf k).forget h := by
  unfold forget Shelf.forget
  rw [if_pos held, serving_eq]
  split
  · rw [shelf_note, setServing_eq, shelf_onShelf_self]
  · rw [shelf_onShelf_self]

theorem frame_forget (w : Hub) (k : Key) (h : HandleId) : Frame k w (w.forget k h) := by
  unfold forget
  split
  · split
    · exact ((Frame.refl k w).onShelf _).note _
    · exact (Frame.refl k w).onShelf _
  · exact Frame.refl k w

@[simp] theorem events_forget (w : Hub) (k : Key) (h : HandleId) :
    (w.forget k h).events = w.events := by
  unfold forget
  split
  · split <;> rfl
  · rfl

@[simp] theorem wakes_forget (w : Hub) (k j : Key) (h : HandleId) :
    (w.forget k h).wakes j = w.wakes j := by
  rw [wakes, events_forget, wakes]

@[simp] theorem jobs_forget (w : Hub) (k : Key) (h : HandleId) :
    (w.forget k h).jobs = w.jobs := by
  unfold forget
  split
  · split <;> rfl
  · rfl

end Hub

/-! ## Offers to tickets -/

namespace Shelf

/-- Offers an outcome to one ticket. -/
def offer (s : Shelf) (n : Nat) (outcome : Outcome) (refund : Option Refund) : Shelf :=
  { s with tickets := s.tickets.modify n (·.accept outcome refund) }

/-- Offers an outcome to some tickets in order. -/
def offerAll (s : Shelf) (ns : List Nat) (outcome : Outcome) (refund : Option Refund) : Shelf :=
  ns.foldl (fun s n => s.offer n outcome refund) s

theorem getElem?_offer (s : Shelf) (n j : Nat) (outcome : Outcome) (refund : Option Refund) :
    (s.offer n outcome refund).tickets[j]? =
      if n = j then (s.tickets[j]?).map (·.accept outcome refund) else s.tickets[j]? := by
  unfold offer
  rw [List.getElem?_modify]
  split <;> simp

theorem offerAll_eq (s : Shelf) (ns : List Nat) (outcome : Outcome) (refund : Option Refund) :
    s.offerAll ns outcome refund =
      { s with tickets := (s.offerAll ns outcome refund).tickets } := by
  induction ns generalizing s with
  | nil => rfl
  | cons n ns ih =>
    change (s.offer n outcome refund).offerAll ns outcome refund = _
    rw [ih]
    rfl

theorem accept_accept (t : Ticket) (outcome : Outcome) (refund : Option Refund) :
    (t.accept outcome refund).accept outcome refund = t.accept outcome refund :=
  Ticket.accept_of_not_isWaiting (t.not_isWaiting_accept outcome refund) _ _

theorem getElem?_offerAll (s : Shelf) (ns : List Nat) (j : Nat) (outcome : Outcome)
    (refund : Option Refund) :
    (s.offerAll ns outcome refund).tickets[j]? =
      if j ∈ ns then (s.tickets[j]?).map (·.accept outcome refund) else s.tickets[j]? := by
  induction ns generalizing s with
  | nil => rfl
  | cons n ns ih =>
    change ((s.offer n outcome refund).offerAll ns outcome refund).tickets[j]? = _
    rw [ih, getElem?_offer]
    by_cases hn : n = j
    · subst hn
      cases s.tickets[n]? <;> simp [accept_accept]
    · simp [hn, Ne.symm hn]

/-- An offer to all who wait is an offer to every ticket. -/
theorem offerAll_eq_settle {s : Shelf} {ns : List Nat} (outcome : Outcome) (refund : Option Refund)
    (h : ∀ (n : Nat) (t : Ticket), s.tickets[n]? = some t → t.isWaiting = true → n ∈ ns) :
    s.offerAll ns outcome refund = s.settle outcome refund := by
  rw [offerAll_eq]
  unfold settle
  congr 1
  apply List.ext_getElem?
  intro j
  rw [getElem?_offerAll, List.getElem?_map]
  split
  · rfl
  · rename_i hj
    cases ht : s.tickets[j]? with
    | none => rfl
    | some t =>
      have hw : t.isWaiting = false := by
        by_contra hw
        exact hj (h j t ht (by simpa using hw))
      rw [Option.map_some, Ticket.accept_of_not_isWaiting hw]

/-- Offers to tickets that are not in the queue do not change who sleeps there. -/
theorem sleepers_offer {s : Shelf} {n : Nat} {ns : List Nat} (k : Key) (outcome : Outcome)
    (refund : Option Refund) (hn : n ∉ ns) :
    (s.offer n outcome refund).sleepers k (ns.map (.forKey k)) =
      s.sleepers k (ns.map (.forKey k)) := by
  unfold sleepers
  rw [List.filterMap_map, List.filterMap_map]
  apply List.filterMap_congr
  intro j hj
  have hne : n ≠ j := by
    rintro rfl
    exact hn hj
  simp only [Function.comp_apply, getElem?_offer, if_neg hne]

/-- Whoever takes an offer waits no more. -/
theorem waiting_offer (s : Shelf) (n : Nat) (outcome : Outcome) (refund : Option Refund) :
    (s.offer n outcome refund).waiting + (if (s.tickets[n]?).any Ticket.isWaiting then 1 else 0)
      = s.waiting := by
  cases hn : s.tickets[n]? with
  | none =>
    have : s.offer n outcome refund = s := by
      unfold offer
      rw [List.modify_eq_self (List.getElem?_eq_none_iff.mp hn)]
    rw [this]
    rfl
  | some t =>
    have he : s.offer n outcome refund = s.setTicket n (t.accept outcome refund) := by
      unfold offer setTicket
      rw [List.modify_eq_set, hn]
      rfl
    have := countP_setTicket hn (t.accept outcome refund) Ticket.isWaiting
    rw [t.not_isWaiting_accept] at this
    rw [he]
    exact this

end Shelf

end SharedLinks
