import SharedLinks.Hub.Jobs

/-!
# Giving references back

A release names only the key. It goes to the key's oldest orphan that is still held, and to the
handle in service if there is none; so a late release after a teardown never takes a reference on a
newer link. A ticket that is dropped before it has yielded gives its reference back to the very
handle that counted it.
-/

namespace SharedLinks.Hub

/-- Gives one reference back to a handle. The last one ends the handle, and closes its link unless a
teardown has done so. A handle without references reports an unbalanced release if asked to, unless
it is closed: then it was forgotten after the caller had found it. -/
def giveBack (w : Hub) (h : HandleId) (report : Bool) : Hub × Except LinkError Unit :=
  match w.phase h with
  | .live link (refs + 2) => ((w.setPhase h (.live link (refs + 1))).count .releases, .ok ())
  | .live link 1 =>
    let w := (w.setPhase h .closed).forget h.key h
    let w := (w.count .releases).count .closes
    (w.spawn { id := ⟨link.id, .close⟩, owner := h, link := link, stage := .close }, .ok ())
  | .orphaned (refs + 2) => ((w.setPhase h (.orphaned (refs + 1))).count .releases, .ok ())
  | .orphaned 1 =>
    let w := (w.setPhase h .closed).forget h.key h
    ((w.count .releases).note (.orphanReleased h.key), .ok ())
  | phase =>
    let w :=
      if report && !phase.isClosed then (w.count .unbalancedReleases).note (.unbalanced h.key)
      else w
    (w, .error (.unbalancedRelease h.key))

/-- Gives one reference back to the first of some handles that counts one. -/
def giveBackFirst (w : Hub) : List HandleId → Option Hub
  | [] => none
  | h :: hs =>
    match w.giveBack h false with
    | (w, .ok ()) => some w
    | (_, .error _) => w.giveBackFirst hs

/-- Gives back one reference on a key's link. Releasing a key without handles does nothing. If the
handle in service has closed meanwhile, it is taken out of service and the key has none. -/
def release (w : Hub) (k : Key) : Hub × Except LinkError Unit :=
  match w.giveBackFirst (w.shelf k).orphans with
  | some w => (w, .ok ())
  | none =>
    match w.serving k with
    | none => (w.note (.releaseIgnored k), .ok ())
    | some h =>
      if (w.phase h).isClosed then
        ((w.note (.releaseRetried k)).purge.note (.releaseIgnored k), .ok ())
      else w.giveBack h true

/-! ## Tickets -/

/-- Asks a ticket for its outcome. -/
def pollTicket (w : Hub) (id : TicketId) : Hub × Poll Outcome :=
  match w.ticket? id with
  | none => (w, .over)
  | some t =>
    let (t, answer) := t.poll
    (w.setTicket id t, answer)

/-- Asks a ticket for its outcome on behalf of a thread, which will wait for it. -/
def parkTicket (w : Hub) (id : TicketId) : Hub × Poll Outcome :=
  match w.ticket? id with
  | none => (w, .over)
  | some t =>
    let (t, answer) := t.take .thread
    (w.setTicket id t, answer)

/-- Sends an unclaimed reference back to where it came from. -/
def refund (w : Hub) : Refund → Hub
  | .handle h => ((w.note (.unclaimed h.key)).giveBack h false).1
  | .mark name => w.emit (.refund name)

/-- Gives a ticket up, and with it the reference it was granted and has not yielded. -/
def dropTicket (w : Hub) (id : TicketId) : Hub :=
  match w.ticket? id with
  | none => w
  | some t =>
    match t.drop with
    | (t, none) => w.setTicket id t
    | (t, some refund) => (w.setTicket id t).refund refund

end SharedLinks.Hub
