import SharedLinks.Proofs.Shelf

/-!
# What can happen on a shelf

Whatever a hub does, on the shelf of one key it makes at most one `Turn`, and after it at most one
`Arrival`: the outcome of a creation reaching its handle. `Step` puts the two together. Between the
moves of a run a shelf is changed in no other way, so each invariant is a case analysis over the two
relations.

A turn carries a `Mark` that says what it does to the books. The count of references and the number
of tickets that hold one go up and down together, except when a release gives a reference back and
when an unclaimed ticket is dropped after its handle has come to its end.
-/

namespace SharedLinks

/-- What a turn does to the books of a key. -/
inductive Mark where
  /-- References and tickets that hold one change alike. -/
  | even
  /-- The same, and a new ticket is given out. -/
  | asked
  /-- A release gives one reference back. -/
  | released
  /-- An unclaimed ticket is dropped and no reference goes back. -/
  | stray
  /-- A teardown takes the handle out of service. -/
  | torn
  deriving DecidableEq

/-- What its owner can make of a ticket without any reference going back. -/
inductive TicketState.Touch : TicketState → TicketState → Prop where
  /-- A poll of a ticket that has yielded or was dropped. -/
  | same (s : TicketState) : Touch s s
  /-- A poll before the ticket was settled. -/
  | sleep (a b : Option Sleeper) : Touch (.waiting a) (.waiting b)
  /-- The first poll after the ticket was settled. -/
  | claim (outcome : Outcome) (refund : Option Refund) :
      Touch (.settled outcome refund) (.yielded outcome)
  /-- The ticket is dropped before it was settled. -/
  | abandon (a : Option Sleeper) : Touch (.waiting a) (.dropped none)
  /-- The ticket is dropped with an error that it has not yielded. -/
  | discard (e : LinkError) (refund : Option Refund) :
      Touch (.settled (.error e) refund) (.dropped (some (.error e)))

/-- The creation is the one with this number among those of the key, and new. -/
structure Creation.IsNew (c : Creation) (k : Key) (i : Nat) : Prop where
  owner : c.owner = ⟨k, i⟩
  link : c.link.id = .made k i
  delivered : c.delivered = false

namespace Shelf

/-- The ticket of a queue was dropped. -/
def isDropped (s : Shelf) : TicketId → Bool
  | .forKey _ n => (s.tickets[n]?).any Ticket.isDropped
  | .loose _ => false

/-- The shelf once a ticket that holds an unclaimed link was dropped, its reference aside. -/
def dropUnclaimed (s : Shelf) (n : Nat) (t : Ticket) (link : Link) : Shelf :=
  s.setTicket n { t with state := .dropped (some (.ok link)) }

/-- A change of a key's shelf that settles no ticket which is waited for. -/
inductive Turn (k : Key) : Shelf → Mark → Shelf → Prop where
  /-- Nothing changes. -/
  | rest (s : Shelf) : Turn k s .even s
  /-- A caller joins an established link. -/
  | hit {s : Shelf} {i : Nat} {link : Link} {refs : Nat} (live : s.phase i = .live link refs) :
      Turn k s .asked ((s.addTicket (.ready (.ok link) (some (.handle ⟨k, i⟩)))).setPhase i
        (.live link (refs + 1)))
  /-- A caller queues for a link that is being created. -/
  | wait {s : Shelf} {i : Nat} {queue : List TicketId} (pending : s.phase i = .pending queue) :
      Turn k s .asked ((s.addTicket .fresh).setPhase i
        (.pending (queue ++ [.forKey k s.tickets.length])))
  /-- A caller opens a handle. -/
  | enter {s : Shelf} {c : Creation} (free : s.serving = none)
      (new : c.IsNew k s.creations.length) :
      Turn k s .asked ((s.addTicket .fresh).openHandle k [.forKey k s.tickets.length] c)
  /-- The owner of a ticket polls it, or drops it without giving a reference back. -/
  | touch {s : Shelf} {n : Nat} {t t' : Ticket} (found : s.tickets[n]? = some t)
      (touched : t.state.Touch t'.state) : Turn k s .even (s.setTicket n t')
  /-- An unclaimed ticket is dropped and its reference goes back. -/
  | refund {s : Shelf} {n : Nat} {t : Ticket} {link : Link} {i : Nat}
      (found : s.tickets[n]? = some t)
      (unclaimed : t.state = .settled (.ok link) (some (.handle ⟨k, i⟩)))
      (held : 0 < (s.phase i).refs) :
      Turn k s .even ((s.dropUnclaimed n t link).giveBack ⟨k, i⟩)
  /-- An unclaimed ticket is dropped after its handle has come to its end. -/
  | stray {s : Shelf} {n : Nat} {t : Ticket} {link : Link} {i : Nat}
      (found : s.tickets[n]? = some t)
      (unclaimed : t.state = .settled (.ok link) (some (.handle ⟨k, i⟩)))
      (spent : s.phase i = .closed) : Turn k s .stray (s.dropUnclaimed n t link)
  /-- A release reaches the oldest orphan. -/
  | releaseOrphan {s : Shelf} {i : Nat} (oldest : s.orphans.head? = some ⟨k, i⟩) :
      Turn k s .released (s.giveBack ⟨k, i⟩)
  /-- A release reaches the handle in service. -/
  | releaseLive {s : Shelf} {i : Nat} (clear : s.orphans = []) (serving : s.serving = some ⟨k, i⟩)
      (held : 0 < (s.phase i).refs) : Turn k s .released (s.giveBack ⟨k, i⟩)
  /-- The provider answers. -/
  | answer {s : Shelf} {i : Nat} {f : Creation → Creation} (owner : ∀ c, (f c).owner = c.owner)
      (link : ∀ c, (f c).link = c.link) (delivered : ∀ c, (f c).delivered = c.delivered) :
      Turn k s .even (s.onCreation i f)
  /-- A teardown takes an established link from its holders. -/
  | orphan {s : Shelf} {i : Nat} {link : Link} {refs : Nat} (serving : s.serving = some ⟨k, i⟩)
      (live : s.phase i = .live link refs) :
      Turn k s .torn ((s.unlink ⟨k, i⟩).setPhase i (.orphaned refs))
  /-- A teardown ends a handle that nobody waits for any more. -/
  | dismiss {s : Shelf} {i : Nat} {queue : List TicketId} (serving : s.serving = some ⟨k, i⟩)
      (pending : s.phase i = .pending queue) (gone : ∀ id ∈ queue, s.isDropped id = true) :
      Turn k s .torn ((s.setPhase i .closed).serve none)
  /-- A teardown moves the tickets of a creation to a fresh handle. -/
  | requeue {s : Shelf} {i : Nat} {queue : List TicketId} {c : Creation}
      (serving : s.serving = some ⟨k, i⟩) (pending : s.phase i = .pending queue)
      (new : c.IsNew k s.creations.length) :
      Turn k s .torn (((s.setPhase i .closed).serve none).openHandle k
        (queue.filter fun id => !s.isDropped id) c)

/-- The outcome of creation `i` reaches its handle. The list tells which polls are woken, by ticket
and number, in order. -/
inductive Arrival (k : Key) (i : Nat) : Shelf → List (Nat × Nat) → Shelf → Prop where
  /-- The link goes to all who wait for it. -/
  | granted {s : Shelf} {queue : List TicketId} {c : Creation} (pending : s.phase i = .pending queue)
      (found : s.creations[i]? = some c) (made : c.making = .opened none) (wanted : 0 < s.waiting) :
      Arrival k i s (s.sleepers k queue)
        (((s.markDelivered i).settle (.ok c.link) (some (.handle ⟨k, i⟩))).setPhase i
          (.live c.link s.waiting))
  /-- The link arrives when nobody waits for it any more. -/
  | unwanted {s : Shelf} {queue : List TicketId} {c : Creation}
      (pending : s.phase i = .pending queue) (found : s.creations[i]? = some c)
      (made : c.making = .opened none) (gone : s.waiting = 0) :
      Arrival k i s [] (((s.markDelivered i).setPhase i .closed).serve none)
  /-- The creation has failed, and all who wait for it learn so. -/
  | failed {s : Shelf} {queue : List TicketId} {c : Creation} {failure : String}
      (pending : s.phase i = .pending queue) (found : s.creations[i]? = some c)
      (made : c.making = .opened (some failure)) :
      Arrival k i s (s.sleepers k queue)
        ((((s.markDelivered i).setPhase i .closed).serve none).settle
          (.error (.creation k (.message failure))) none)
  /-- The outcome comes after the handle has come to its end. -/
  | late {s : Shelf} {c : Creation} (closed : s.phase i = .closed)
      (found : s.creations[i]? = some c) (undelivered : c.delivered = false) :
      Arrival k i s [] (s.markDelivered i)

/-- What one move does to a key's shelf: a turn, and after it an arrival if the turn has left the
shelf alone or has opened the handle that the outcome is for. -/
def Step (k : Key) (s : Shelf) (mark : Mark) (woken : List (Nat × Nat)) (s' : Shelf) : Prop :=
  ∃ m, Turn k s mark m ∧
    ((m = s' ∧ woken = []) ∨
      ∃ i, Arrival k i m woken s' ∧ (m = s ∨ m.serving = some ⟨k, i⟩ ∧ s.phases.length ≤ i))

/-- A turn without an arrival. -/
theorem Turn.step {k : Key} {s s' : Shelf} {mark : Mark} (turn : Turn k s mark s') :
    Step k s mark [] s' :=
  ⟨s', turn, Or.inl ⟨rfl, rfl⟩⟩

/-- An arrival without a turn. -/
theorem Arrival.step {k : Key} {i : Nat} {s s' : Shelf} {woken : List (Nat × Nat)}
    (arrival : Arrival k i s woken s') : Step k s .even woken s' :=
  ⟨s, .rest s, Or.inr ⟨i, arrival, Or.inl rfl⟩⟩

end Shelf

end SharedLinks
