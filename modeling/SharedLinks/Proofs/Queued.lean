import SharedLinks.Proofs.Recorded

/-!
# Which tickets wait, and where

`Shelf.Queued` says that the tickets which are waited for are exactly those of a queue: every one of
them is in the queue of a pending handle, and a queue lists tickets that were never settled, in the
order in which they were given out. Together with the places of handles and the creations this makes
up `Shelf.Orderly`, which every turn and every arrival keeps (`Turn.orderly`, `Arrival.orderly`).
-/

namespace SharedLinks

/-! ## Tickets in the hands of their owners -/

namespace TicketState.Touch

variable {t t' : Ticket}

theorem outcome?_of_link (h : t.state.Touch t'.state) {link : Link}
    (ht : t'.outcome? = some (.ok link)) : t.outcome? = some (.ok link) := by
  unfold Ticket.outcome? at *
  generalize t.state = a at *
  generalize t'.state = b at *
  cases h <;> simp_all

theorem outcome?_eq_none (h : t.state.Touch t'.state) (ht : t.outcome? = none) :
    t'.outcome? = none := by
  unfold Ticket.outcome? at *
  generalize t.state = a at *
  generalize t'.state = b at *
  cases h <;> simp_all

theorem isWaiting (h : t.state.Touch t'.state) (ht : t'.isWaiting = true) : t.isWaiting = true := by
  unfold Ticket.isWaiting at *
  generalize t.state = a at *
  generalize t'.state = b at *
  cases h <;> simp_all

theorem settled (h : t.state.Touch t'.state) {link : Link} {r : Option Refund}
    (ht : t'.state = .settled (.ok link) r) : t.state = .settled (.ok link) r := by
  generalize t.state = a at *
  generalize t'.state = b at *
  cases h <;> simp_all

theorem held?_eq (h : t.state.Touch t'.state) : t'.held? = t.held? := by
  unfold Ticket.held?
  generalize t.state = a at *
  generalize t'.state = b at *
  cases h <;> try rfl
  rename_i outcome refund
  cases outcome <;> rfl

end TicketState.Touch

namespace Shelf

/-- The tickets of the key that are waited for stand in a queue, in the order they were given out. -/
structure Queued (k : Key) (s : Shelf) : Prop where
  /-- A queue lists tickets of the key that were never settled, the oldest first. -/
  queue : ∀ i queue, s.phase i = .pending queue → ∃ ns : List Nat,
    queue = ns.map (.forKey k) ∧ ns.Pairwise (· < ·) ∧
      ∀ n ∈ ns, ∃ t : Ticket, s.tickets[n]? = some t ∧ t.outcome? = none
  /-- A ticket that is waited for is in a queue. -/
  waiting : ∀ (n : Nat) (t : Ticket), s.tickets[n]? = some t → t.isWaiting = true →
    ∃ i queue, s.phase i = .pending queue ∧ .forKey k n ∈ queue

/-! ## Links of tickets -/

namespace Granted

variable {k : Key} {s s' : Shelf}

/-- Only tickets that were not there before have to be looked at. -/
theorem of_change (h : s.Granted k) (hs : s.Extends s')
    (ht : ∀ t' ∈ s'.tickets,
      (∃ t ∈ s.tickets, (∀ link, t'.outcome? = some (.ok link) → t.outcome? = some (.ok link)) ∧
        ∀ link r, t'.state = .settled (.ok link) r → t.state = .settled (.ok link) r) ∨
      (∀ link, t'.outcome? = some (.ok link) → ∃ (i : Nat) (c : Creation),
        s'.creations[i]? = some c ∧ c.link = link ∧ c.delivered = true) ∧
      ∀ link r, t'.state = .settled (.ok link) r →
        ∃ i, link.id = .made k i ∧ r = some (.handle ⟨k, i⟩)) : s'.Granted k := by
  constructor
  · intro t' ht' link hlink
    rcases ht t' ht' with ⟨t, hmem, hout, -⟩ | ⟨hout, -⟩
    · obtain ⟨i, c, hc, hcl, hd⟩ := h.source t hmem link (hout link hlink)
      obtain ⟨c', hc', hlink', hd'⟩ := hs i c hc
      exact ⟨i, c', hc', hlink'.trans hcl, hd' hd⟩
    · exact hout link hlink
  · intro t' ht' link r hr
    rcases ht t' ht' with ⟨t, hmem, -, hset⟩ | ⟨-, hset⟩
    · exact h.refund t hmem link r (hset link r hr)
    · exact hset link r hr

theorem of_extends (h : s.Granted k) (hs : s.Extends s') (ht : s'.tickets = s.tickets) :
    s'.Granted k :=
  h.of_change hs fun t ht' => Or.inl ⟨t, by rwa [← ht], fun _ => id, fun _ _ => id⟩

theorem addTicket (h : s.Granted k) {t : Ticket}
    (hout : ∀ link, t.outcome? = some (.ok link) → ∃ (i : Nat) (c : Creation),
      s.creations[i]? = some c ∧ c.link = link ∧ c.delivered = true)
    (hset : ∀ link r, t.state = .settled (.ok link) r →
      ∃ i, link.id = .made k i ∧ r = some (.handle ⟨k, i⟩)) : (s.addTicket t).Granted k := by
  refine h.of_change (.of_eq rfl) fun t' ht' => ?_
  rcases List.mem_append.mp ht' with hold | hnew
  · exact Or.inl ⟨t', hold, fun _ => id, fun _ _ => id⟩
  · rw [List.mem_singleton] at hnew
    subst hnew
    exact Or.inr ⟨hout, hset⟩

theorem addFresh (h : s.Granted k) : (s.addTicket .fresh).Granted k := by
  refine h.addTicket ?_ ?_
  · intro link hlink
    contradiction
  · intro link r hr
    contradiction

theorem setTicket (h : s.Granted k) {n : Nat} {t t' : Ticket} (hn : s.tickets[n]? = some t)
    (hout : ∀ link, t'.outcome? = some (.ok link) → t.outcome? = some (.ok link))
    (hset : ∀ link r, t'.state = .settled (.ok link) r → t.state = .settled (.ok link) r) :
    (s.setTicket n t').Granted k := by
  refine h.of_change (.of_eq rfl) fun t'' ht'' => Or.inl ?_
  rcases List.mem_or_eq_of_mem_set ht'' with hold | hnew
  · exact ⟨t'', hold, fun _ => id, fun _ _ => id⟩
  · subst hnew
    exact ⟨t, List.mem_of_getElem? hn, hout, hset⟩

theorem dropUnclaimed (h : s.Granted k) {n : Nat} {t : Ticket} {link : Link} {r : Option Refund}
    (hn : s.tickets[n]? = some t) (ht : t.state = .settled (.ok link) r) :
    (s.dropUnclaimed n t link).Granted k := by
  refine h.setTicket hn ?_ ?_
  · intro link' hlink'
    rw [show t.outcome? = some (.ok link) by rw [Ticket.outcome?, ht]]
    exact hlink'
  · intro link' r' hr'
    contradiction

theorem giveBack (h : s.Granted k) (hd : HandleId) : (s.giveBack hd).Granted k :=
  h.of_extends (.of_eq (creations_giveBack s hd)) (tickets_giveBack s hd)

/-- Whoever waits takes an outcome that comes from a delivered creation. -/
theorem settle (h : s.Granted k) {outcome : Outcome} {refund : Option Refund}
    (hlink : ∀ link, outcome = .ok link → ∃ (i : Nat) (c : Creation),
      s.creations[i]? = some c ∧ c.link = link ∧ c.delivered = true ∧ link.id = .made k i ∧
        refund = some (.handle ⟨k, i⟩)) : (s.settle outcome refund).Granted k := by
  refine h.of_change (.of_eq rfl) fun t' ht' => ?_
  obtain ⟨t, ht, rfl⟩ := List.mem_map.mp ht'
  cases hw : t.isWaiting with
  | false =>
    rw [Ticket.accept_of_not_isWaiting hw]
    exact Or.inl ⟨t, ht, fun _ => id, fun _ _ => id⟩
  | true =>
    rw [Ticket.accept_of_isWaiting hw]
    refine Or.inr ⟨?_, ?_⟩
    · intro link hl
      obtain ⟨i, c, hc, hcl, hd, -⟩ := hlink link (Option.some.inj hl)
      exact ⟨i, c, hc, hcl, hd⟩
    · intro link r hr
      obtain ⟨ho, hrefund⟩ := TicketState.settled.inj hr
      obtain ⟨i, c, -, -, -, hid, hr'⟩ := hlink link ho
      exact ⟨i, hid, hrefund.symm.trans hr'⟩

end Granted

/-! ## Queues -/

namespace Queued

variable {k : Key} {s s' : Shelf}

/-- Queues do not depend on anything but the pending handles and the tickets. -/
theorem congr (h : s.Queued k)
    (hp : ∀ i queue, s'.phase i = .pending queue ↔ s.phase i = .pending queue)
    (ht : s'.tickets = s.tickets) : s'.Queued k := by
  constructor
  · intro i queue hi
    rw [ht]
    exact h.queue i queue ((hp i queue).mp hi)
  · intro n t hn hw
    rw [ht] at hn
    obtain ⟨i, queue, hi, hmem⟩ := h.waiting n t hn hw
    exact ⟨i, queue, (hp i queue).mpr hi, hmem⟩

/-- Without pending handles nobody waits. -/
theorem of_none (hp : ∀ i queue, s.phase i ≠ .pending queue)
    (hw : ∀ (n : Nat) (t : Ticket), s.tickets[n]? = some t → t.isWaiting = false) :
    s.Queued k := by
  constructor
  · intro i queue hi
    exact absurd hi (hp i queue)
  · intro n t hn ht
    rw [hw n t hn] at ht
    contradiction

/-- A handle moves between phases that have no queue. -/
theorem setPhase (h : s.Queued k) (i : Nat) {p : Phase}
    (hi : ∀ queue, s.phase i ≠ .pending queue) (hp : ∀ queue, p ≠ .pending queue) :
    (s.setPhase i p).Queued k := by
  refine h.congr ?_ rfl
  intro j queue
  by_cases hlt : i < s.phases.length
  · rw [phase_setPhase hlt]
    split
    · rename_i hj
      rw [hj]
      exact iff_of_false (hp queue) (hi queue)
    · exact Iff.rfl
  · -- a handle that does not exist is not written
    have : (s.setPhase i p).phases = s.phases := List.set_eq_of_length_le (by omega)
    rw [phase_congr this]

theorem addTicket (h : s.Queued k) {t : Ticket} (ht : t.isWaiting = false) :
    (s.addTicket t).Queued k := by
  constructor
  · intro i queue hi
    obtain ⟨ns, hq, hsorted, hmem⟩ := h.queue i queue hi
    refine ⟨ns, hq, hsorted, fun n hn => ?_⟩
    obtain ⟨t', ht', hout⟩ := hmem n hn
    refine ⟨t', ?_, hout⟩
    exact (List.getElem?_append_left (List.getElem?_eq_some_iff.mp ht').1).trans ht'
  · intro n t' hn hw
    change (s.tickets ++ [t])[n]? = some t' at hn
    rw [List.getElem?_append] at hn
    split at hn
    · exact h.waiting n t' hn hw
    · rw [List.getElem?_singleton] at hn
      split at hn
      · rw [← Option.some.inj hn, ht] at hw
        contradiction
      · contradiction

/-- A ticket that was never settled is replaced by one that was not either, and one that nobody
waits for by another such. -/
theorem setTicket (h : s.Queued k) {n : Nat} {t t' : Ticket} (hn : s.tickets[n]? = some t)
    (hout : t.outcome? = none → t'.outcome? = none)
    (hwait : t'.isWaiting = true → t.isWaiting = true) : (s.setTicket n t').Queued k := by
  have hlt := (List.getElem?_eq_some_iff.mp hn).1
  have hget : ∀ j : Nat, (s.setTicket n t').tickets[j]? = if n = j then some t' else s.tickets[j]? := by
    intro j
    change (s.tickets.set n t')[j]? = _
    rw [List.getElem?_set]
    simp [hlt]
  constructor
  · intro i queue hi
    obtain ⟨ns, hq, hsorted, hmem⟩ := h.queue i queue hi
    refine ⟨ns, hq, hsorted, fun j hj => ?_⟩
    obtain ⟨t'', ht'', ho⟩ := hmem j hj
    rw [hget]
    split
    · rename_i e
      subst e
      rw [hn] at ht''
      rw [← Option.some.inj ht''] at ho
      exact ⟨t', rfl, hout ho⟩
    · exact ⟨t'', ht'', ho⟩
  · intro j t'' hj hw
    rw [hget] at hj
    split at hj
    · rename_i e
      subst e
      rw [← Option.some.inj hj] at hw
      exact h.waiting n t hn (hwait hw)
    · exact h.waiting j t'' hj hw

theorem giveBack (h : s.Queued k) (hd : HandleId) : (s.giveBack hd).Queued k := by
  have hclose : ∀ p, s.phase hd.index = p → (∀ queue, p ≠ .pending queue) →
      ((s.setPhase hd.index .closed).forget hd).Queued k := by
    rintro p rfl hp
    refine (h.setPhase hd.index hp ?_).congr ?_ (tickets_forget _ _)
    · rintro queue ⟨⟩
    · intro i queue
      rw [phase_forget]
  unfold Shelf.giveBack
  split
  · rename_i hi
    exact h.setPhase _ (by simp [hi]) (by simp)
  · rename_i hi
    exact h.setPhase _ (by simp [hi]) (by simp)
  · rename_i hi
    exact hclose _ hi (by simp)
  · rename_i hi
    exact hclose _ hi (by simp)
  · exact h

/-- A queue of the key grows at its end by the newest ticket. -/
theorem wait (h : s.Queued k) {i : Nat} {queue : List TicketId} (hi : s.phase i = .pending queue) :
    ((s.addTicket .fresh).setPhase i (.pending (queue ++ [.forKey k s.tickets.length]))).Queued k := by
  have hlt : i < (s.addTicket .fresh).phases.length := lt_of_phase_ne (s := s) (by simp [hi])
  have hold : ∀ (n : Nat) (t : Ticket), s.tickets[n]? = some t →
      (s.tickets ++ [Ticket.fresh])[n]? = some t := by
    intro n t hn
    rw [List.getElem?_append_left (List.getElem?_eq_some_iff.mp hn).1, hn]
  constructor
  · intro j queue' hj
    rw [phase_setPhase hlt] at hj
    split at hj
    · obtain ⟨ns, hq, hsorted, hmem⟩ := h.queue i queue hi
      refine ⟨ns ++ [s.tickets.length], ?_, ?_, ?_⟩
      · rw [← Phase.pending.inj hj, hq, List.map_append]
        rfl
      · -- the new ticket has the next number, so the order of the queue stays that of the numbers
        rw [List.pairwise_append]
        refine ⟨hsorted, List.pairwise_singleton _ _, ?_⟩
        intro a ha b hb
        obtain ⟨t, ht, -⟩ := hmem a ha
        rw [List.mem_singleton.mp hb]
        exact (List.getElem?_eq_some_iff.mp ht).1
      · intro n hn
        rcases List.mem_append.mp hn with hn | hn
        · obtain ⟨t, ht, hout⟩ := hmem n hn
          exact ⟨t, hold n t ht, hout⟩
        · rw [List.mem_singleton.mp hn]
          exact ⟨.fresh, List.getElem?_concat_length, rfl⟩
    · obtain ⟨ns, hq, hsorted, hmem⟩ := h.queue j queue' hj
      refine ⟨ns, hq, hsorted, fun n hn => ?_⟩
      obtain ⟨t, ht, hout⟩ := hmem n hn
      exact ⟨t, hold n t ht, hout⟩
  · intro n t hn hw
    change (s.tickets ++ [Ticket.fresh])[n]? = some t at hn
    -- the ticket is the new one, or it waited before, perhaps in the queue that grew
    by_cases hlast : n = s.tickets.length
    · refine ⟨i, _, by rw [phase_setPhase_self hlt], ?_⟩
      simp [hlast]
    · have hn' : s.tickets[n]? = some t := by
        have hnlt := (List.getElem?_eq_some_iff.mp hn).1
        rw [List.length_append, List.length_singleton] at hnlt
        rwa [List.getElem?_append_left (by omega)] at hn
      obtain ⟨j, queue', hj, hmem⟩ := h.waiting n t hn' hw
      by_cases hji : j = i
      · subst hji
        rw [hi] at hj
        refine ⟨j, _, by rw [phase_setPhase_self hlt], ?_⟩
        rw [Phase.pending.inj hj]
        exact List.mem_append_left _ hmem
      · exact ⟨j, queue', by rw [phase_setPhase_ne hji]; exact hj, hmem⟩

/-- A handle is opened with tickets of a key that has no other queue. -/
theorem openHandle {ns : List Nat} (hp : ∀ i queue, s.phase i ≠ .pending queue)
    (hsorted : ns.Pairwise (· < ·))
    (hmem : ∀ n ∈ ns, ∃ t : Ticket, s.tickets[n]? = some t ∧ t.outcome? = none)
    (hwait : ∀ (n : Nat) (t : Ticket), s.tickets[n]? = some t → t.isWaiting = true → n ∈ ns)
    (c : Creation) : (s.openHandle k (ns.map (.forKey k)) c).Queued k := by
  constructor
  · intro i queue hi
    rw [phase_openHandle] at hi
    split at hi
    · exact ⟨ns, (Phase.pending.inj hi).symm, hsorted, hmem⟩
    · exact absurd hi (hp i queue)
  · intro n t hn hw
    refine ⟨s.phases.length, _, by rw [phase_openHandle, if_pos rfl], ?_⟩
    exact List.mem_map_of_mem (hwait n t hn hw)

end Queued

/-! ## The shelf as a whole -/

/-- What holds of every shelf of a hub between two moves. -/
structure Orderly (k : Key) (s : Shelf) : Prop where
  placed : s.Placed k
  recorded : s.Recorded k
  granted : s.Granted k
  queued : s.Queued k

namespace Orderly

variable {k : Key} {s s' : Shelf}

/-- Only the handle in service has a queue. -/
theorem eq_of_pending (h : s.Orderly k) {i j : Nat} {queue queue' : List TicketId}
    (hi : s.phase i = .pending queue) (hj : s.phase j = .pending queue') : i = j :=
  h.placed.eq_of_isOpen (by rw [hi]; rfl) (by rw [hj]; rfl)

/-- A ticket that is waited for is in the queue of the handle in service. -/
theorem mem_queue (h : s.Orderly k) {i : Nat} {queue : List TicketId}
    (hi : s.phase i = .pending queue) {n : Nat} {t : Ticket} (hn : s.tickets[n]? = some t)
    (hw : t.isWaiting = true) : .forKey k n ∈ queue := by
  obtain ⟨j, queue', hj, hmem⟩ := h.queued.waiting n t hn hw
  have e := h.eq_of_pending hi hj
  subst e
  rw [hi] at hj
  rwa [Phase.pending.inj hj]

/-- Nobody waits for a key without a pending handle. -/
theorem not_isWaiting (h : s.Orderly k) (hp : ∀ i queue, s.phase i ≠ .pending queue) {n : Nat}
    {t : Ticket} (hn : s.tickets[n]? = some t) : t.isWaiting = false := by
  by_contra hw
  obtain ⟨i, queue, hi, -⟩ := h.queued.waiting n t hn (by simpa using hw)
  exact hp i queue hi

theorem not_pending_of_free (h : s.Orderly k) (hs : s.serving = none) (i : Nat)
    (queue : List TicketId) : s.phase i ≠ .pending queue := by
  intro hi
  have := h.placed.serving_of_pending hi
  rw [hs] at this
  contradiction

theorem not_pending_of_live (h : s.Orderly k) {i : Nat} {link : Link} {refs : Nat}
    (hi : s.phase i = .live link refs) (j : Nat) (queue : List TicketId) :
    s.phase j ≠ .pending queue := by
  intro hj
  have e := h.placed.eq_of_isOpen (i := i) (j := j) (by rw [hi]; rfl) (by rw [hj]; rfl)
  rw [← e, hi] at hj
  contradiction

/-- Once the pending handle has moved on, no handle has a queue. -/
theorem not_pending_setPhase (h : s.Orderly k) {i : Nat} {queue : List TicketId}
    (hi : s.phase i = .pending queue) {p : Phase} (hp : ∀ queue, p ≠ .pending queue) (j : Nat)
    (queue' : List TicketId) : (s.setPhase i p).phase j ≠ .pending queue' := by
  rw [phase_setPhase (lt_of_phase_ne (by simp [hi]))]
  split
  · exact hp queue'
  · rename_i hne
    intro hj
    exact hne (h.eq_of_pending hj hi)

variable {n : Nat} {t : Ticket} {link : Link}

/-- An unclaimed ticket knows the handle that granted its link. -/
theorem refund_of_unclaimed (h : s.Orderly k) (found : s.tickets[n]? = some t)
    {r : Option Refund} (unclaimed : t.state = .settled (.ok link) r) :
    ∃ i, link.id = .made k i ∧ r = some (.handle ⟨k, i⟩) :=
  h.granted.refund t (List.mem_of_getElem? found) link r unclaimed

/-- The creation of a link that a ticket holds has been delivered. -/
theorem creation_of_held (h : s.Orderly k) (found : s.tickets[n]? = some t)
    (held : t.held? = some link) {i : Nat} (hid : link.id = .made k i) :
    ∃ c : Creation, s.creations[i]? = some c ∧ c.link = link ∧ c.delivered = true := by
  obtain ⟨j, c, hc, hlink, hd⟩ := h.granted.source t (List.mem_of_getElem? found) link
    (Ticket.outcome?_of_held? held)
  have hj := h.recorded.link j c hc
  rw [hlink, hid] at hj
  obtain ⟨-, rfl⟩ := LinkId.made.inj hj
  exact ⟨c, hc, hlink, hd⟩

/-- The handle of a link that a ticket holds is no longer pending, so it counts references unless it
has come to its end. -/
theorem refs_pos_of_held (h : s.Orderly k) (found : s.tickets[n]? = some t)
    (held : t.held? = some link) {i : Nat} (hid : link.id = .made k i)
    (hc : s.phase i ≠ .closed) : 0 < (s.phase i).refs := by
  refine h.placed.refs_pos_of_ne hc fun queue hp => ?_
  obtain ⟨c, hfound, -, hd⟩ := h.creation_of_held found held hid
  have := h.recorded.undelivered_of_pending hp hfound
  rw [hd] at this
  contradiction

end Orderly

end Shelf

end SharedLinks
