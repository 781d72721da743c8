import SharedLinks.Proofs.Frame

/-!
# Outcomes are offered to queues

`Hub.grant` and `Hub.refuse` go through a queue and offer every ticket an outcome. `Hub.Offered` says
what that comes to: the tickets of the queue that are waited for take the outcome, the polls that
sleep on them are woken in the order of the queue, and nothing else happens. `grant_offered` adds that
the count of those who took a link is by how many fewer wait afterwards.
-/

namespace SharedLinks

namespace Hub

/-- Some tickets of a key were offered an outcome, in order. -/
structure Offered (k : Key) (ns : List Nat) (outcome : Outcome) (refund : Option Refund)
    (w w' : Hub) : Prop where
  frame : Frame k w w'
  shelf : w'.shelf k = (w.shelf k).offerAll ns outcome refund
  wakes : w'.wakes k = w.wakes k ++ (w.shelf k).sleepers k (ns.map (.forKey k))
  jobs : w'.jobs = w.jobs
  closes : ∀ id, w'.HasClosed id → w.HasClosed id

variable {k : Key} {outcome : Outcome} {refund : Option Refund}

theorem Offered.nil (w : Hub) : Offered k [] outcome refund w w :=
  ⟨Frame.refl k w, rfl, (List.append_nil _).symm, rfl, fun _ => id⟩

/-- An offer to one ticket and then to others that differ from it. -/
theorem Offered.cons {w w' w'' : Hub} {n : Nat} {ns : List Nat} (hn : n ∉ ns)
    (h : Offered k [n] outcome refund w w') (h' : Offered k ns outcome refund w' w'') :
    Offered k (n :: ns) outcome refund w w'' := by
  refine ⟨h.frame.trans h'.frame, ?_, ?_, h'.jobs.trans h.jobs, fun id hid => h.closes id (h'.closes id hid)⟩
  · rw [h'.shelf, h.shelf]
    rfl
  · rw [h'.wakes, h.wakes, h.shelf, List.append_assoc]
    change _ ++ (_ ++ ((w.shelf k).offer n outcome refund).sleepers k _) = _
    -- the second offer starts from a changed shelf, but on it the others sleep as before
    rw [Shelf.sleepers_offer k outcome refund hn]
    unfold Shelf.sleepers
    rw [List.map_cons, ← List.filterMap_append]
    rfl

theorem offer_eq_self {s : Shelf} {n : Nat}
    (h : (s.tickets[n]?).any Ticket.isWaiting = false) (outcome : Outcome)
    (refund : Option Refund) : s.offer n outcome refund = s := by
  unfold Shelf.offer
  have : s.tickets.modify n (·.accept outcome refund) = s.tickets := by
    apply List.ext_getElem?
    intro j
    rw [List.getElem?_modify]
    cases ht : s.tickets[j]? with
    | none => rfl
    | some t =>
      simp only [Option.map_eq_map, Option.map_some]
      split
      · rename_i e
        subst e
        rw [ht] at h
        rw [Ticket.accept_of_not_isWaiting (by simpa using h)]
      · rfl
  rw [this]

/-- Settling a ticket of the key is an offer to it, and tells whether somebody waited for it. -/
theorem settle_offered (w : Hub) (k : Key) (n : Nat) (outcome : Outcome) (refund : Option Refund) :
    Offered k [n] outcome refund w (w.settle (.forKey k n) outcome refund).1 ∧
      (w.settle (.forKey k n) outcome refund).2 =
        ((w.shelf k).tickets[n]?).any Ticket.isWaiting := by
  have hstay : ((w.shelf k).tickets[n]?).any Ticket.isWaiting = false →
      Offered k [n] outcome refund w w := by
    intro hw
    refine ⟨Frame.refl k w, (offer_eq_self hw outcome refund).symm, ?_, rfl, fun _ => id⟩
    have : (w.shelf k).sleepers k ([n].map (.forKey k)) = [] := by
      cases ht : (w.shelf k).tickets[n]? with
      | none => simp [Shelf.sleepers, ht]
      | some t =>
        rw [ht, Option.any_some] at hw
        simp [Shelf.sleepers, ht, Ticket.sleeper?_of_not_isWaiting hw]
    rw [this, List.append_nil]
  unfold settle
  rw [ticket?_eq]
  cases ht : (w.shelf k).tickets[n]? with
  | none => exact ⟨hstay (by rw [ht]; rfl), rfl⟩
  | some t =>
    rw [Option.bind_some]
    cases hw : t.isWaiting with
    | false =>
      rw [Ticket.settle_of_not_isWaiting hw]
      exact ⟨hstay (by rw [ht]; exact hw), hw.symm⟩
    | true =>
      obtain ⟨sleeper, hs⟩ := Ticket.isWaiting_iff.mp hw
      rw [Ticket.settle_of_waiting hs]
      refine ⟨?_, hw.symm⟩
      have hshelf : (w.setTicket (.forKey k n) { t with state := .settled outcome refund }).shelf k =
          (w.shelf k).offerAll [n] outcome refund := by
        rw [setTicket_eq, shelf_onShelf_self, ← Ticket.accept_of_isWaiting hw]
        change _ = (w.shelf k).offer n outcome refund
        unfold Shelf.setTicket Shelf.offer
        rw [List.modify_eq_set, ht]
        rfl
      have hsleep : (w.shelf k).sleepers k ([n].map (.forKey k)) =
          (t.sleeper?.map (n, ·)).toList := by
        unfold Shelf.sleepers
        cases hq : t.sleeper? <;> simp [ht, hq]
      have hframe : Frame k w (w.setTicket (.forKey k n) { t with state := .settled outcome refund }) :=
        (Frame.refl k w).onShelf _
      -- a ticket that nobody has polled yet, or that a thread asks, wakes no poll
      have hquiet : t.sleeper? = none → Offered k [n] outcome refund w
          (w.setTicket (.forKey k n) { t with state := .settled outcome refund }) := by
        intro hnone
        refine ⟨hframe, hshelf, ?_, rfl, fun _ => id⟩
        rw [hsleep, hnone]
        exact (List.append_nil _).symm
      obtain _ | number | _ := sleeper
      · exact hquiet (by rw [Ticket.sleeper?, hs])
      · refine ⟨hframe.emit ?_, hshelf, ?_, rfl, ?_⟩
        · intro j hj
          simp [Event.wake?, Ne.symm hj]
        · rw [hsleep]
          simp only [wake, wakes_emit, Event.wake?, ↓reduceIte, Ticket.sleeper?, hs]
          rfl
        · intro id hid
          simpa [HasClosed, wake, emit, setTicket_eq] using hid
      · exact hquiet (by rw [Ticket.sleeper?, hs])

/-- A refusal is offered to the whole queue. -/
theorem refuse_offered (w : Hub) (k : Key) (error : LinkError) {ns : List Nat} (h : ns.Nodup) :
    Offered k ns (.error error) none w (w.refuse error (ns.map (.forKey k))) := by
  induction ns generalizing w with
  | nil => exact Offered.nil w
  | cons n ns ih =>
    rw [List.nodup_cons] at h
    exact (settle_offered w k n _ _).1.cons h.1 (ih _ h.2)

/-- A link is offered to the whole queue, and those who take it are counted. -/
theorem grant_offered (w : Hub) (k : Key) (h : HandleId) (link : Link) {ns : List Nat}
    (hns : ns.Nodup) :
    Offered k ns (.ok link) (some (.handle h)) w (w.grant h link (ns.map (.forKey k))).1 ∧
      (w.grant h link (ns.map (.forKey k))).2 +
        ((w.grant h link (ns.map (.forKey k))).1.shelf k).waiting = (w.shelf k).waiting := by
  induction ns generalizing w with
  | nil => exact ⟨Offered.nil w, Nat.zero_add _⟩
  | cons n ns ih =>
    rw [List.nodup_cons] at hns
    obtain ⟨hone, hflag⟩ := settle_offered w k n (.ok link) (some (.handle h))
    obtain ⟨hrest, hcount⟩ := ih (w.settle (.forKey k n) (.ok link) (some (.handle h))).1 hns.2
    refine ⟨hone.cons hns.1 hrest, ?_⟩
    -- one offer lowers the number of those who wait by what it adds to the count
    have hoffer := (w.shelf k).waiting_offer n (.ok link) (some (.handle h))
    rw [← hflag] at hoffer
    change ((w.shelf k).offerAll [n] _ _).waiting + _ = _ at hoffer
    rw [← hone.shelf] at hoffer
    simp only [List.map_cons, grant]
    cases ht : (w.settle (.forKey k n) (.ok link) (some (.handle h))).2 with
    | true =>
      rw [ht, if_pos rfl] at hoffer
      rw [if_pos rfl]
      omega
    | false =>
      rw [ht, if_neg (by simp)] at hoffer
      rw [if_neg (by simp)]
      omega

/-! ## The queue of a pending handle -/

/-- Everybody who waits for a link of the key has got the outcome. -/
structure Settled (k : Key) (queue : List TicketId) (outcome : Outcome) (refund : Option Refund)
    (w w' : Hub) : Prop where
  frame : Frame k w w'
  shelf : w'.shelf k = (w.shelf k).settle outcome refund
  wakes : w'.wakes k = w.wakes k ++ (w.shelf k).sleepers k queue
  jobs : w'.jobs = w.jobs
  closes : ∀ id, w'.HasClosed id → w.HasClosed id

/-- The queue of a pending handle holds all who wait, so an offer to it settles them all. -/
theorem Offered.settled {w w' : Hub} {ns : List Nat} (h : Offered k ns outcome refund w w')
    (hall : ∀ (n : Nat) (t : Ticket), (w.shelf k).tickets[n]? = some t → t.isWaiting = true →
      n ∈ ns) : Settled k (ns.map (.forKey k)) outcome refund w w' :=
  ⟨h.frame, h.shelf.trans (Shelf.offerAll_eq_settle outcome refund hall), h.wakes, h.jobs, h.closes⟩

variable {s : Shelf} {i : Nat} {queue : List TicketId}

/-- The queue of a pending handle lists each ticket once, and all that are waited for. -/
theorem exists_queue (h : s.Orderly k) (hp : s.phase i = .pending queue) :
    ∃ ns : List Nat, queue = ns.map (.forKey k) ∧ ns.Nodup ∧
      ∀ (n : Nat) (t : Ticket), s.tickets[n]? = some t → t.isWaiting = true → n ∈ ns := by
  obtain ⟨ns, rfl, hsorted, -⟩ := h.queued.queue i queue hp
  refine ⟨ns, rfl, hsorted.imp Nat.ne_of_lt, fun n t ht hw => ?_⟩
  simpa using h.mem_queue hp ht hw

theorem not_isWaiting_settle (s : Shelf) (outcome : Outcome) (refund : Option Refund) :
    (s.settle outcome refund).waiting = 0 := by
  rw [Shelf.waiting, List.countP_eq_zero]
  intro t ht
  obtain ⟨t, -, rfl⟩ := List.mem_map.mp ht
  simp [Ticket.not_isWaiting_accept]

/-- A link is granted to all who wait for it. -/
theorem grant_settled (h : s.Orderly k) (hp : s.phase i = .pending queue) {w : Hub}
    (ht : (w.shelf k).tickets = s.tickets) (hd : HandleId) (link : Link) :
    Settled k queue (.ok link) (some (.handle hd)) w (w.grant hd link queue).1 ∧
      (w.grant hd link queue).2 = s.waiting := by
  obtain ⟨ns, rfl, hnodup, hall⟩ := exists_queue h hp
  rw [← ht] at hall
  obtain ⟨hoff, hcount⟩ := grant_offered w k hd link hnodup
  have hsettled := hoff.settled hall
  refine ⟨hsettled, ?_⟩
  rw [hsettled.shelf, not_isWaiting_settle] at hcount
  rw [Shelf.waiting, ← ht]
  exact hcount

/-- A failure is told to all who wait for the link. -/
theorem refuse_settled (h : s.Orderly k) (hp : s.phase i = .pending queue) {w : Hub}
    (ht : (w.shelf k).tickets = s.tickets) (error : LinkError) :
    Settled k queue (.error error) none w (w.refuse error queue) := by
  obtain ⟨ns, rfl, hnodup, hall⟩ := exists_queue h hp
  rw [← ht] at hall
  exact (refuse_offered w k error hnodup).settled hall

end Hub

end SharedLinks
