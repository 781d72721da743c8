import SharedLinks.Hub.Service

/-!
# Outcomes reach tickets and handles

When a creation has an outcome, its handle settles all tickets that wait for it. A link goes to
every ticket that is still wanted and counts one reference for each; if nobody wants it any more, or
the handle no longer waits for it, the link has to be closed again. A failure goes to all of them.
-/

namespace SharedLinks.Hub

/-! ## Tickets -/

/-- Tells a sleeper to come back. A thread needs no telling. -/
def wake (w : Hub) (id : TicketId) : Option Sleeper → Hub
  | some (.poll number) => w.emit (.wake id number)
  | some .thread | none => w

/-- Settles a ticket and wakes its owner; false if nobody waits for it. -/
def settle (w : Hub) (id : TicketId) (outcome : Outcome) (refund : Option Refund) : Hub × Bool :=
  match (w.ticket? id).bind (·.settle outcome refund) with
  | none => (w, false)
  | some (t, sleeper) => ((w.setTicket id t).wake id sleeper, true)

/-- Grants a handle's link to tickets in order, and counts those that took it. -/
def grant (w : Hub) (h : HandleId) (link : Link) : List TicketId → Hub × Nat
  | [] => (w, 0)
  | id :: ids =>
    let (w, taken) := w.settle id (.ok link) (some (.handle h))
    let (w, refs) := w.grant h link ids
    (w, if taken then refs + 1 else refs)

/-- Settles tickets in order with an error. -/
def refuse (w : Hub) (error : LinkError) : List TicketId → Hub
  | [] => w
  | id :: ids => (w.settle id (.error error) none).1.refuse error ids

/-! ## Closing -/

/-- Asks a link to close. -/
def beginClose (w : Hub) (h : HandleId) (link : Link) : Hub :=
  (w.note (.closing h.key link.identity)).emit (.close link.id)

/-- Looks whether a link has closed, and records how. -/
def awaitClose (w : Hub) (h : HandleId) (link : Link) : Hub × Option (Except LinkError Unit) :=
  match w.closing link.id with
  | .shut => (w, none)
  | .opened none => (w.note (.closed h.key link.identity), some (.ok ()))
  | .opened (some failure) =>
    let error := LinkError.close h.key link.identity (.message failure)
    ((w.count .closeFailures).note (.closeFailed h.key error), some (.error error))

/-! ## Outcomes of creations -/

/-- Hands an established link to its handle; true if the link has to be closed again. -/
def fulfil (w : Hub) (h : HandleId) (link : Link) : Hub × Bool :=
  match w.phase h with
  | .pending queue =>
    let (w, refs) := w.grant h link queue
    let w := w.note (.created h.key link.identity refs)
    if refs = 0 then
      let w := (w.setPhase h .closed).note (.unwanted h.key queue.length)
      ((w.forget h.key h).count .closes, true)
    else (w.setPhase h (.live link refs), false)
  | .closed => ((w.note (.createdLate h.key link.identity)).count .closes, true)
  | .live _ _ | .orphaned _ => ((w.note (.createdTwice h.key)).count .closes, true)

/-- Tells a handle that its creation failed. -/
def fail (w : Hub) (h : HandleId) (failure : String) : Hub :=
  let error := LinkError.creation h.key (.message failure)
  let w := (w.note (.creationFailed h.key error)).count .creationFailures
  match w.phase h with
  | .pending queue => ((w.setPhase h .closed).forget h.key h).refuse error queue
  | .live _ _ | .orphaned _ | .closed => w

end SharedLinks.Hub
