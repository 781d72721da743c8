import SharedLinks.Proofs.OneShot
import SharedLinks.Proofs.Retries

/-!
# Where moved tickets go

Tickets that have lost their handle are moved to the one that serves their key by then, and that may be
in any phase in which it takes new callers. `Hub.Requeues` lists what this may come to: nothing if all of
them were dropped, a new handle if the key has none, a longer queue if the handle waits for its link, and
its link at once if it has one. None of the tickets that were kept is lost or moved twice, and they stay in
their order.

`requeues_requeue` shows that with jobs that wait until they are run a move is one of these, in every state
of a hub, also in those that no run reaches.
-/

namespace SharedLinks.Hub

variable {w w' u : Hub} {k : Key} {hd : HandleId} {link : Link} {ids : List TicketId} {id : TicketId}

/-! ## Tickets that get a link at once -/

/-- The event that wakes the poll that sleeps on a ticket, if one does. -/
def wakeUp? (w : Hub) (id : TicketId) : Option Event :=
  ((w.ticket? id).bind Ticket.sleeper?).map (.wake id)

theorem wakeUp?_congr (h : u.ticket? id = w.ticket? id) : u.wakeUp? id = w.wakeUp? id := by
  rw [wakeUp?, wakeUp?, h]

/-- A ticket has taken an outcome, and the poll that slept on it is woken. Nothing else has changed. -/
structure Accepts (id : TicketId) (outcome : Outcome) (refund : Option Refund) (w u : Hub) : Prop where
  accepted : w.settle id outcome refund = (u, true)
  ticket : ∃ t, w.ticket? id = some t ∧ u.ticket? id = some { t with state := .settled outcome refund }
  events : u.events = (w.wakeUp? id).toList ++ w.events
  sameBut : SameBut id { w with events := u.events } u

/-- A ticket that waits takes the outcome it is settled with. -/
theorem accepts_of_isWaiting {t : Ticket} (found : w.ticket? id = some t) (waiting : t.isWaiting = true)
    (outcome : Outcome) (refund : Option Refund) :
    Accepts id outcome refund w (w.settle id outcome refund).1 := by
  obtain ⟨sleeper, hs⟩ := Ticket.isWaiting_iff.mp waiting
  let v := w.setTicket id { t with state := .settled outcome refund }
  have hsettle : w.settle id outcome refund = (v.wake id sleeper, true) := by
    simp only [settle, found, Option.bind_some, Ticket.settle_of_waiting hs, v]
  have hv : SameBut id w v := .setTicket w id _
  have hwake : v.wake id sleeper = { v with events := (w.wakeUp? id).toList ++ v.events } := by
    have hcall : w.wakeUp? id = t.sleeper?.map (.wake id) := by simp [wakeUp?, found]
    rw [hcall, Ticket.sleeper?, hs]
    obtain _ | _ | _ := sleeper <;> rfl
  rw [hsettle, hwake]
  refine ⟨hsettle.trans (by rw [hwake]), ⟨t, found, ticket?_setTicket found _⟩, ?_, hv.tickets, hv.shelf, ?_⟩
  · exact congrArg (_ ++ ·) hv.events
  · exact congrArg (fun x => { x with events := (w.wakeUp? id).toList ++ v.events }) hv.rest

/-- Tickets are settled with a handle's link in order, and each of them takes it. -/
inductive SettlesEach (hd : HandleId) (link : Link) : Hub → List TicketId → Hub → Prop where
  | nil (w : Hub) : SettlesEach hd link w [] w
  | cons {w u w' : Hub} {id : TicketId} {ids : List TicketId}
      (settled : Accepts id (.ok link) (some (.handle hd)) w u)
      (rest : SettlesEach hd link u ids w') : SettlesEach hd link w (id :: ids) w'

namespace SettlesEach

theorem counters (h : SettlesEach hd link w ids w') : w'.counters = w.counters := by
  induction h with
  | nil => rfl
  | cons settled rest ih => exact ih.trans (by rw [settled.sameBut.rest])

/-- No other ticket changes. -/
theorem others (h : SettlesEach hd link w ids w') : ∀ id, id ∉ ids → w'.ticket? id = w.ticket? id := by
  induction h with
  | nil => exact fun _ _ => rfl
  | cons settled rest ih =>
    intro id hm
    rw [List.mem_cons, not_or] at hm
    exact (ih id hm.2).trans (settled.sameBut.tickets id hm.1)

/-- Every one of them has the link for its outcome, with a reference of the handle. -/
theorem tickets (h : SettlesEach hd link w ids w') (nodup : ids.Nodup) :
    ∀ id ∈ ids, ∃ t, w.ticket? id = some t ∧
      w'.ticket? id = some { t with state := .settled (.ok link) (some (.handle hd)) } := by
  induction h with
  | nil => simp
  | @cons w u w' first ids settled rest ih =>
    rw [List.nodup_cons] at nodup
    intro id hm
    rcases List.mem_cons.mp hm with rfl | hm
    · obtain ⟨t, found, ht⟩ := settled.ticket
      exact ⟨t, found, (rest.others _ nodup.1).trans ht⟩
    · have hne : id ≠ first := fun e => nodup.1 (e ▸ hm)
      obtain ⟨t, found, ht⟩ := ih nodup.2 id hm
      exact ⟨t, (settled.sameBut.tickets id hne).symm.trans found, ht⟩

/-- The polls that sleep on them are woken in their order, and nothing else shows. -/
theorem events (h : SettlesEach hd link w ids w') (nodup : ids.Nodup) :
    w'.events = (ids.filterMap w.wakeUp?).reverse ++ w.events := by
  induction h with
  | nil => rfl
  | @cons w u w' first ids settled rest ih =>
    rw [List.nodup_cons] at nodup
    have hsleep : ids.filterMap u.wakeUp? = ids.filterMap w.wakeUp? :=
      List.filterMap_congr fun id hm =>
        wakeUp?_congr (settled.sameBut.tickets id fun e => nodup.1 (e ▸ hm))
    rw [ih nodup.2, hsleep, settled.events]
    cases hfirst : w.wakeUp? first <;> simp [hfirst]

end SettlesEach

/-- Different tickets that wait take the link they are granted, and are counted. -/
theorem settlesEach_grant (hd : HandleId) (link : Link) (nodup : ids.Nodup)
    (waiting : ∀ id ∈ ids, ∃ t, w.ticket? id = some t ∧ t.isWaiting = true) :
    SettlesEach hd link w ids (w.grant hd link ids).1 ∧ (w.grant hd link ids).2 = ids.length := by
  induction ids generalizing w with
  | nil => exact ⟨.nil w, rfl⟩
  | cons id ids ih =>
    rw [List.nodup_cons] at nodup
    obtain ⟨t, found, hwaiting⟩ := waiting id (by simp)
    have hsettled := accepts_of_isWaiting found hwaiting (.ok link) (some (.handle hd))
    have hrest : ∀ id' ∈ ids, ∃ t, (w.settle id (.ok link) (some (.handle hd))).1.ticket? id' = some t ∧
        t.isWaiting = true := by
      intro id' hm
      rw [hsettled.sameBut.tickets id' fun e => nodup.1 (e ▸ hm)]
      exact waiting id' (List.mem_cons_of_mem id hm)
    obtain ⟨heach, hcount⟩ := ih nodup.2 hrest
    have haccepted : (w.settle id (.ok link) (some (.handle hd))).2 = true := by rw [hsettled.accepted]
    simp only [grant, haccepted, if_true, List.length_cons]
    exact ⟨.cons hsettled heach, by rw [hcount]⟩

/-! ## What a move may come to -/

/-- The job that waits for the link of a key's next creation, on behalf of a handle. -/
def creationJob (w : Hub) (h : HandleId) (k : Key) : Job :=
  let id := LinkId.made k (w.shelf k).creations.length
  { id := ⟨id, .create⟩
    owner := h
    link := (w.provider k (w.shelf k).creations.length).link id
    stage := .awaitLink }

/-- What a move of tickets to a key comes to, of which these were not dropped. -/
inductive Requeues (k : Key) (w : Hub) (wanted : List TicketId) : Hub → Prop where
  /-- Nobody waits any more, and nothing happens. -/
  | unwanted (nobody : wanted = []) : Requeues k w wanted w
  /-- The key has no handle. It gets one that has just these tickets, and one link is asked for. -/
  | opened {w' : Hub} (somebody : wanted ≠ []) (free : w.serving k = none)
      (shelf : w'.shelf k = (w.shelf k).openHandle k wanted (w.nextCreation k))
      (others : ∀ j, j ≠ k → w'.shelf j = w.shelf j) (fixtures : w'.fixtures = w.fixtures)
      (events : w'.events = .create (.made k (w.shelf k).creations.length)
        (Request.make k w.namer.name w.node) :: w.events)
      (counters : ∀ c, w'.counters.get c =
        w.counters.get c + UInt64.ofNat (if c = .creations then 1 else 0))
      (jobs : w'.jobs = w.jobs ++ [w.creationJob (w.nextHandle k) k])
      (ready : w'.ready = w.ready ++ [(w.creationJob (w.nextHandle k) k).id]) : Requeues k w wanted w'
  /-- The handle in service waits for its link. The tickets wait for it behind the others. -/
  | queued {hd : HandleId} {queue : List TicketId} {w' : Hub} (somebody : wanted ≠ [])
      (serving : w.serving k = some hd) (pending : w.phase hd = .pending queue)
      (phase : w'.phase hd = .pending (queue ++ wanted))
      (same : w' = w.setPhase hd (.pending (queue ++ wanted))) : Requeues k w wanted w'
  /-- The handle in service has its link. The tickets are settled with it in order, and counted. The
  polls that sleep on them are woken in that order, and nothing else shows. -/
  | granted {hd : HandleId} {link : Link} {refs : Nat} {u w' : Hub} (somebody : wanted ≠ [])
      (serving : w.serving k = some hd) (live : w.phase hd = .live link refs)
      (settled : SettlesEach hd link w wanted u)
      (tickets : ∀ id ∈ wanted, ∃ t, w.ticket? id = some t ∧
        w'.ticket? id = some { t with state := .settled (.ok link) (some (.handle hd)) })
      (others : ∀ id, id ∉ wanted → w'.ticket? id = w.ticket? id)
      (events : w'.events = (wanted.filterMap w.wakeUp?).reverse ++ w.events)
      (phase : w'.phase hd = .live link (refs + wanted.length))
      (counters : w'.counters = w.counters.add .hits (UInt64.ofNat wanted.length))
      (same : w' = (u.setPhase hd (.live link (refs + wanted.length))).countBy .hits wanted.length) :
      Requeues k w wanted w'

/-- What a request for a link leaves alone, before its job is taken up. -/
theorem requested_rest (w : Hub) (n : Namer) (h : HandleId) (k : Key) (r : Request) (c : Creation) :
    (∀ j, j ≠ k → ({ w with namer := n }.requested h k r c).shelf j = w.shelf j) ∧
    ({ w with namer := n }.requested h k r c).fixtures = w.fixtures ∧
    ({ w with namer := n }.requested h k r c).jobs = w.jobs ∧
    ({ w with namer := n }.requested h k r c).ready = w.ready := by
  unfold requested
  have hcount : Confined k { w with namer := n }
      (({ w with namer := n }.note (.creating h.key r.linkName r.target)).count .creations) :=
    ((Confined.refl k _).note _).count _
  -- what is left to compare has no counters in it, which are words and slow to tell apart
  generalize ({ w with namer := n }.note (.creating h.key r.linkName r.target)).count .creations = u
    at hcount
  exact ⟨fun j hj => (shelf_onShelf_ne _ hj _).trans (hcount.shelf j hj), hcount.fixtures, hcount.jobs,
    hcount.ready⟩

/-- What starting a creation leaves alone, and the one job it adds. -/
theorem startCreation_rest (rule : w.dispatch = .queue) (h : HandleId) (k : Key) :
    (∀ j, j ≠ k → (w.startCreation h k).shelf j = w.shelf j) ∧
    (w.startCreation h k).fixtures = w.fixtures ∧
    (w.startCreation h k).jobs = w.jobs ++ [w.creationJob h k] ∧
    (w.startCreation h k).ready = w.ready ++ [(w.creationJob h k).id] := by
  rw [startCreation_eq]
  obtain ⟨hothers, hfixtures, hjobs, hready⟩ := requested_rest w w.namer.advance h k
    (Request.make k w.namer.name w.node) (Prospect.creation (w.provider k (w.shelf k).creations.length) h
      (.made k (w.shelf k).creations.length))
  generalize ({ w with namer := w.namer.advance }.requested h k (Request.make k w.namer.name w.node)
    (Prospect.creation (w.provider k (w.shelf k).creations.length) h
      (.made k (w.shelf k).creations.length))) = u at *
  have hrule : u.dispatch = .queue := (congrArg (fun f => f.2.1) hfixtures).trans rule
  rw [spawn_queue hrule, ← hjobs, ← hready]
  exact ⟨hothers, hfixtures, rfl, rfl⟩

/-- What opening a handle leaves alone, and the one job it adds. -/
theorem openHandle_rest (rule : w.dispatch = .queue) (k : Key) (queue : List TicketId) :
    (∀ j, j ≠ k → (w.openHandle k queue).shelf j = w.shelf j) ∧
    (w.openHandle k queue).fixtures = w.fixtures ∧
    (w.openHandle k queue).jobs = w.jobs ++ [w.creationJob (w.nextHandle k) k] ∧
    (w.openHandle k queue).ready = w.ready ++ [(w.creationJob (w.nextHandle k) k).id] := by
  let v := (w.addHandle k (.pending queue)).setServing k (some (w.nextHandle k))
  have hsame : Confined k w v := ((Confined.refl k w).onShelf _).onShelf _
  have hcreations : (v.shelf k).creations = (w.shelf k).creations := by
    rw [show v.shelf k = _ from shelf_onShelf_self _ k _, addHandle, shelf_onShelf_self]
  have hjob : v.creationJob (w.nextHandle k) k = w.creationJob (w.nextHandle k) k := by
    rw [creationJob, hcreations]
    rfl
  obtain ⟨hothers, hfixtures, hjobs, hready⟩ := startCreation_rest (w := v) rule (w.nextHandle k) k
  rw [hjob, hsame.jobs] at hjobs
  rw [hjob, hsame.ready] at hready
  exact ⟨fun j hj => (hothers j hj).trans (hsame.shelf j hj), hfixtures.trans hsame.fixtures, hjobs,
    hready⟩

/-- A handle that takes new callers has a place on its shelf, so it can be moved to another phase. -/
theorem phase_setPhase_of_isOpen (opened : (w.phase hd).isOpen = true)
    (same : u.phase hd = w.phase hd) (p : Phase) : (u.setPhase hd p).phase hd = p := by
  rw [phase_eq, setPhase_eq, shelf_onShelf_self]
  apply Shelf.phase_setPhase_self
  apply Shelf.lt_of_phase_ne
  rw [← phase_eq, same]
  intro e
  rw [e] at opened
  contradiction

/-- Tickets that nobody has settled wait unless they were dropped. -/
theorem isWaiting_of_mem_wanted
    (unsettled : ∀ id ∈ ids, ∃ t, w.ticket? id = some t ∧ t.outcome? = none) :
    ∀ id ∈ w.wanted ids, ∃ t, w.ticket? id = some t ∧ t.isWaiting = true := by
  intro id hm
  obtain ⟨hm, hkept⟩ := List.mem_filter.mp hm
  obtain ⟨t, found, hnone⟩ := unsettled id hm
  refine ⟨t, found, ?_⟩
  simp only [isDropped, found, Option.any_some] at hkept
  cases hs : t.state <;> simp_all [Ticket.outcome?, Ticket.isDropped, Ticket.isWaiting]

/-- Tickets that wait are granted the link of the handle in service. -/
theorem requeues_adopt {refs : Nat} (serving : w.serving k = some hd)
    (live : w.phase hd = .live link refs) (somebody : ids ≠ []) (nodup : ids.Nodup)
    (waiting : ∀ id ∈ ids, ∃ t, w.ticket? id = some t ∧ t.isWaiting = true) :
    ∃ w', w.adopt hd ids = .ok w' ∧ Requeues k w ids w' := by
  obtain ⟨heach, hcount⟩ := settlesEach_grant hd link nodup waiting
  -- granting moves no handle, so this one is live as before
  have hphase : (w.grant hd link ids).1.phase hd = w.phase hd :=
    congrFun (congrArg Outline.phase (outline_grant w hd link ids)) hd
  simp only [adopt, live, hcount]
  have hticket := ticket?_onShelf (w.grant hd link ids).1 hd.key
    (f := (·.setPhase hd.index (.live link (refs + ids.length)))) rfl
  refine ⟨_, rfl, .granted somebody serving live heach (fun id hm => ?_)
    (fun id hm => (hticket id).trans (heach.others id hm)) (heach.events nodup)
    (phase_setPhase_of_isOpen (by rw [live]; rfl) hphase _) ?_ rfl⟩
  · obtain ⟨t, found, ht⟩ := heach.tickets nodup id hm
    exact ⟨t, found, (hticket id).trans ht⟩
  · exact congrArg (Counters.add · .hits (UInt64.ofNat ids.length)) heach.counters

/-- With jobs that wait until they are run, one turn is enough for a move of different tickets that nobody
has settled, and it loses none of them, if the handle in service takes new callers or there is none. Any
other handle hands the tickets back. -/
theorem requeues_requeue (rule : w.dispatch = .queue)
    (opened : ∀ hd, w.serving k = some hd → (w.phase hd).isOpen = true) (nodup : ids.Nodup)
    (unsettled : ∀ id ∈ ids, ∃ t, w.ticket? id = some t ∧ t.outcome? = none) :
    (∀ turns, w.requeueWithin (turns + 1) k ids = some (w.requeue k ids)) ∧
    Requeues k w (w.wanted ids) (w.requeue k ids) ∧
    ∀ hd, (w.phase hd).isOpen = false → ∀ ids, w.adopt hd ids = .error ids := by
  refine ⟨fun turns => requeueWithin_eq opened turns ids, ?_, fun hd => adopt_of_refusing⟩
  have hwaiting := isWaiting_of_mem_wanted unsettled
  have hnodup : (w.wanted ids).Nodup := nodup.filter _
  unfold requeue
  rw [← wanted]
  cases hids : w.wanted ids with
  | nil => exact .unwanted rfl
  | cons first rest =>
    rw [hids] at hwaiting hnodup
    cases hs : w.serving k with
    | none =>
      obtain ⟨hshelf, hevents, hcounters⟩ := openHandle_queue rule k (first :: rest)
      obtain ⟨hothers, hfixtures, hjobs, hready⟩ := openHandle_rest rule k (first :: rest)
      exact .opened (by simp) hs hshelf hothers hfixtures hevents hcounters hjobs hready
    | some hd =>
      have hopen := opened hd hs
      cases hp : w.phase hd with
      | pending queue =>
        simp only [adopt, hp]
        exact .queued (by simp) hs hp (phase_setPhase_of_isOpen hopen rfl _) rfl
      | live link refs =>
        obtain ⟨w', hadopt, hmoved⟩ := requeues_adopt hs hp (List.cons_ne_nil _ _) hnodup hwaiting
        simpa only [hadopt] using hmoved
      | orphaned | closed =>
        rw [hp] at hopen
        contradiction

/-- A caller has got a link, and three more tickets wait by themselves. One was dropped, and the others
were polled once and twice. -/
def overtaken : Hub :=
  { sample.play [.acquire sampleKey, .runJob ⟨.made sampleKey 0, .create⟩] with
    loose := [Ticket.fresh.poll.1, Ticket.fresh.drop.1, Ticket.fresh.poll.1.poll.1] }

/-- The link has overtaken the tickets: it goes to those that were kept, in the order in which they are
moved, and wakes the last poll of each. -/
theorem requeues_requeue_overtaken :
    (∀ hd, overtaken.serving sampleKey = some hd → (overtaken.phase hd).isOpen = true) ∧
    overtaken.requeueWithin 1 sampleKey [.loose 2, .loose 1, .loose 0] =
      some (overtaken.requeue sampleKey [.loose 2, .loose 1, .loose 0]) ∧
    Requeues sampleKey overtaken [.loose 2, .loose 0]
      (overtaken.requeue sampleKey [.loose 2, .loose 1, .loose 0]) ∧
    (∃ link, overtaken.phase ⟨sampleKey, 0⟩ = .live link 1 ∧
      ∀ id ∈ [TicketId.loose 2, .loose 0],
        ((overtaken.requeue sampleKey [.loose 2, .loose 1, .loose 0]).ticket? id).map (·.state) =
          some (.settled (.ok link) (some (.handle ⟨sampleKey, 0⟩)))) ∧
    (overtaken.requeue sampleKey [.loose 2, .loose 1, .loose 0]).events =
      .wake (.loose 0) 0 :: .wake (.loose 2) 1 :: overtaken.events := by
  have hopened : ∀ hd, overtaken.serving sampleKey = some hd → (overtaken.phase hd).isOpen = true := by
    intro hd hs
    obtain rfl : hd = ⟨sampleKey, 0⟩ := by
      have hserving : overtaken.serving sampleKey = some ⟨sampleKey, 0⟩ := by decide
      rw [hserving] at hs
      exact (Option.some.inj hs).symm
    decide
  have hunsettled : ∀ id ∈ [TicketId.loose 2, .loose 1, .loose 0],
      ∃ t, overtaken.ticket? id = some t ∧ t.outcome? = none := by
    simp only [List.mem_cons, List.not_mem_nil, or_false]
    rintro id (rfl | rfl | rfl) <;> exact ⟨_, rfl, rfl⟩
  obtain ⟨hfirst, hmoved, -⟩ := requeues_requeue (w := overtaken) rfl hopened (by decide) hunsettled
  refine ⟨hopened, hfirst 0, hmoved, ⟨_, rfl, fun id hm => ?_⟩, rfl⟩
  simp only [List.mem_cons, List.not_mem_nil, or_false] at hm
  rcases hm with rfl | rfl <;> rfl

end SharedLinks.Hub
