import SharedLinks.Hub.Jobs

/-!
# Asking for links

A caller who asks for a link joins the handle that serves the key, or opens a new one. A new handle
queues its tickets before its creation starts, so that even a creation that succeeds at once finds
them. Tickets that have lost their handle are moved to the one that serves the key now.
-/

namespace SharedLinks.Hub

/-- Requests a link for a key from the provider, on behalf of a handle. -/
def startCreation (w : Hub) (h : HandleId) (k : Key) : Hub :=
  let request := Request.make k w.namer.name w.node
  let index := (w.shelf k).creations.length
  let prospect := w.provider k index
  let link := prospect.link (.made k index)
  let creation : Creation :=
    { owner := h, link := link, making := prospect.making, closing := prospect.closing }
  let w := { w with namer := w.namer.advance }
  let w := (w.note (.creating h.key request.linkName request.target)).count .creations
  let w := (w.emit (.create link.id request)).onShelf k fun s =>
    { s with creations := s.creations ++ [creation] }
  w.spawn { id := ⟨link.id, .create⟩, owner := h, link := link, stage := .awaitLink }

/-- Puts a new handle with these tickets into a key's service and starts its creation. -/
def openHandle (w : Hub) (k : Key) (queue : List TicketId) : Hub :=
  let h := w.nextHandle k
  ((w.addHandle k (.pending queue)).setServing k (some h)).startCreation h k

/-- Asks a handle for its link. A handle that takes no new callers gives no ticket. -/
def join (w : Hub) (h : HandleId) : Hub × Option TicketId :=
  let id := w.nextTicket h.key
  match w.phase h with
  | .live link refs =>
    let w := w.addTicket h.key (.ready (.ok link) (some (.handle h)))
    ((w.setPhase h (.live link (refs + 1))).count .hits, some id)
  | .pending queue =>
    let w := w.addTicket h.key .fresh
    ((w.setPhase h (.pending (queue ++ [id]))).count .waits, some id)
  | .orphaned _ | .closed => (w, none)

/-- Asks for a link with a handle of its own. -/
def joinFresh (w : Hub) (k : Key) : Hub × TicketId :=
  let id := w.nextTicket k
  (((w.addTicket k .fresh).count .waits).openHandle k [id], id)

/-- Asks for the link of a key. If the handle in service refuses, all such handles are taken out of
service, which leaves the key to a fresh one. -/
def acquire (w : Hub) (k : Key) : Hub × TicketId :=
  let w := w.count .acquires
  match w.serving k with
  | none => w.joinFresh k
  | some h =>
    match w.join h with
    | (w, some id) => (w, id)
    | (w, none) => (w.note (.acquireRetried k)).purge.joinFresh k

/-- Takes over tickets that have lost their handle. A handle that takes no new callers gives them
back as they are, and nothing has changed. -/
def adopt (w : Hub) (h : HandleId) (ids : List TicketId) : Except (List TicketId) Hub :=
  match w.phase h with
  | .pending queue => .ok (w.setPhase h (.pending (queue ++ ids)))
  | .live link refs =>
    let (w, granted) := w.grant h link ids
    .ok ((w.setPhase h (.live link (refs + granted))).countBy .hits granted)
  | .orphaned _ | .closed => .error ids

/-- Moves tickets to the handle that serves a key now. Those that were dropped are left behind. -/
def requeue (w : Hub) (k : Key) (ids : List TicketId) : Hub :=
  match ids.filter (fun id => !w.isDropped id) with
  | [] => w
  | wanted =>
    match w.serving k with
    | none => w.openHandle k wanted
    | some h =>
      match w.adopt h wanted with
      | .ok w => w
      | .error refused => w.purge.openHandle k refused

end SharedLinks.Hub
