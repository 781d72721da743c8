import SharedLinks.Proofs.Alongside

/-!
# Calls that go alongside

A call takes up at most one job, and that is the last thing it does. What the job comes to depends on
the dispatch, so the lemmas on calls are stated for any relation `R` that holds of hubs which have gone
alongside, and still holds once both take up one job: `Hub.Tail` says that `R` is of this kind. Between
hubs of one dispatch `R` may be `Hub.Alongside` itself (`Alongside.tail`).

The calls are taken up in the order in which they are built on each other, from `startCreation` to
`forceClose`; each lemma asks that the handles, links and tickets which the call comes across are of
the keys in question.
-/

namespace SharedLinks

/-- The creation that a handle asks for. -/
def Prospect.creation (p : Prospect) (h : HandleId) (id : LinkId) : Creation :=
  { owner := h, link := p.link id, making := p.making, closing := p.closing }

/-- Requests for a key's link differ in nothing but the name. -/
theorem Request.make_nameless (k : Key) (name name' node : String) :
    { Request.make k name' node with linkName := "" } =
      { Request.make k name node with linkName := "" } := rfl

namespace Hub

variable {a : Accord} {v v' w w' : Hub}

/-! ## Jobs -/

/-- The job is done for a handle of these keys. -/
structure WorksWithin (w : Hub) (ks : Key → Prop) (j : Job) : Prop where
  owner : ks j.owner.key
  link : j.link.id.Within ks
  queue : j.stage = .awaitLink → w.QueuesWithin ks j.owner

theorem phase_onCreation (w : Hub) (id : LinkId) (f : Creation → Creation) (h : HandleId) :
    (w.onCreation id f).phase h = w.phase h := by
  cases id with
  | brought name => rfl
  | made k i =>
    by_cases hk : h.key = k
    · rw [phase, onCreation, hk, shelf_onShelf_self, phase, hk]
    · rw [phase, onCreation, shelf_onShelf_ne w hk, phase]

/-! What becomes of a new job under each dispatch. -/

theorem spawn_queue (hd : w.dispatch = .queue) (j : Job) :
    w.spawn j = { w with jobs := w.jobs ++ [j], ready := w.ready ++ [j.id] } := by
  rw [spawn, hd]

theorem spawn_inline (hd : w.dispatch = .inline) (j : Job) :
    w.spawn j = { (w.work j).1 with
      jobs := (w.work j).1.jobs ++ (w.work j).2.toList.map fun stage => { j with stage := stage } } := by
  rw [spawn, hd]
  cases w.work j with
  | mk u left =>
    cases left with
    | none => exact congrArg (fun jobs => { u with jobs := jobs }) (List.append_nil _).symm
    | some stage => rfl

theorem spawn_discard (hd : w.dispatch = .discard) (j : Job) : w.spawn j = w := by
  rw [spawn, hd]

namespace Alongside

theorem workAwaitClose (h : Alongside a v v' w w') {j : Job} (hl : j.link.id.Within a.keys) :
    Alongside a v v' (w.workAwaitClose j).1 (w'.workAwaitClose j).1 ∧
      (w'.workAwaitClose j).2 = (w.workAwaitClose j).2 := by
  obtain ⟨ht, he⟩ := h.awaitClose j.owner hl
  unfold Hub.workAwaitClose
  cases hr : w.awaitClose j.owner j.link with
  | mk u answer =>
    cases hr' : w'.awaitClose j.owner j.link with
    | mk u' answer' =>
      rw [hr, hr'] at ht he
      obtain rfl : answer' = answer := he
      cases answer' with
      | none => exact ⟨ht, rfl⟩
      | some result => exact ⟨ht, rfl⟩

theorem workClose (h : Alongside a v v' w w') {j : Job} (hl : j.link.id.Within a.keys) :
    Alongside a v v' (w.workClose j).1 (w'.workClose j).1 ∧
      (w'.workClose j).2 = (w.workClose j).2 :=
  (h.beginClose j.owner hl).workAwaitClose hl

/-- A job works alike in both hubs, and has the same left to do. -/
theorem work (h : Alongside a v v' w w') {j : Job} (hj : w.WorksWithin a.keys j) :
    Alongside a v v' (w.work j).1 (w'.work j).1 ∧ (w'.work j).2 = (w.work j).2 := by
  unfold Hub.work
  rw [h.making hj.link]
  split
  · rename_i hstage
    have hqueue : (w.markDelivered j.link.id).QueuesWithin a.keys j.owner := by
      intro queue hp
      rw [Hub.markDelivered, phase_onCreation] at hp
      exact hj.queue hstage queue hp
    have hmarked := h.markDelivered hj.link
    split
    · exact ⟨h, rfl⟩
    · exact ⟨hmarked.fail hj.owner _ hqueue, rfl⟩
    · obtain ⟨ht, he⟩ := hmarked.fulfil hj.owner j.link hqueue
      cases hr : (w.markDelivered j.link.id).fulfil j.owner j.link with
      | mk u late =>
        cases hr' : (w'.markDelivered j.link.id).fulfil j.owner j.link with
        | mk u' late' =>
          rw [hr, hr'] at ht he
          obtain rfl : late' = late := he
          cases late' with
          | false => exact ⟨ht, rfl⟩
          | true => exact ht.workClose hj.link
  · exact h.workClose hj.link
  · exact h.workAwaitClose hj.link

end Alongside

/-- The relation holds of hubs that have gone alongside, also once they have taken up one more job. -/
structure Tail (a : Accord) (v v' : Hub) (R : Hub → Hub → Prop) : Prop where
  rest : ∀ {w w' : Hub}, Alongside a v v' w w' → R w w'
  spawn : ∀ {w w' : Hub} {j : Job}, Alongside a v v' w w' → w.WorksWithin a.keys j →
    R (w.spawn j) (w'.spawn j)

/-- Hubs of one dispatch take up a job alike. -/
theorem Alongside.tail {a : Accord} (takes : a.takes) (dispatch : v'.dispatch = v.dispatch) :
    Tail a v v' (Alongside a v v') := by
  refine ⟨id, fun {w w' j} h hj => ?_⟩
  have hdispatch : w'.dispatch = w.dispatch := by
    obtain ⟨g, g', hg, hg', -⟩ := h.growth
    rw [hg'.dispatch, dispatch, hg.dispatch]
  cases hd : w.dispatch with
  | queue =>
    rw [spawn_queue hd, spawn_queue (hdispatch.trans hd)]
    refine h.push takes (fun j' hj' => ?_) [j.id]
    rw [List.mem_singleton.mp hj']
    exact hj.owner
  | inline =>
    obtain ⟨ht, he⟩ := h.work hj
    rw [spawn_inline hd, spawn_inline (hdispatch.trans hd), he]
    have howners : ∀ j' ∈ (w.work j).2.toList.map fun stage => { j with stage := stage },
        a.keys j'.owner.key := by
      intro j' hj'
      obtain ⟨stage, -, rfl⟩ := List.mem_map.mp hj'
      exact hj.owner
    have hpush := ht.push takes howners []
    rw [List.append_nil, List.append_nil] at hpush
    exact hpush
  | discard =>
    rw [spawn_discard hd, spawn_discard (hdispatch.trans hd)]
    exact h

/-! ## Asking for links -/

/-- The hub once a link was requested and its creation noted on the shelf, but not yet taken up. -/
def requested (w : Hub) (h : HandleId) (k : Key) (r : Request) (c : Creation) : Hub :=
  (((w.note (.creating h.key r.linkName r.target)).count .creations).emit
    (.create c.link.id r)).onShelf k fun s => { s with creations := s.creations ++ [c] }

theorem startCreation_eq (w : Hub) (h : HandleId) (k : Key) :
    w.startCreation h k =
      ({ w with namer := w.namer.advance }.requested h k (Request.make k w.namer.name w.node)
        (Prospect.creation (w.provider k (w.shelf k).creations.length) h
          (.made k (w.shelf k).creations.length))).spawn
        { id := ⟨.made k (w.shelf k).creations.length, .create⟩
          owner := h
          link := (w.provider k (w.shelf k).creations.length).link
            (.made k (w.shelf k).creations.length)
          stage := .awaitLink } := rfl

@[simp] theorem phase_requested (w : Hub) (h : HandleId) (k : Key) (r : Request) (c : Creation)
    (hd : HandleId) : (w.requested h k r c).phase hd = w.phase hd := by
  by_cases hk : hd.key = k
  · rw [phase, hk, requested, shelf_onShelf_self, phase, hk]
    rfl
  · rw [phase, requested, shelf_onShelf_ne _ hk, phase]
    rfl

@[simp] theorem phase_rename (w : Hub) (n : Namer) (hd : HandleId) :
    ({ w with namer := n } : Hub).phase hd = w.phase hd := rfl

theorem Alongside.requested (h : Alongside a v v' w w') (asks : a.asks) {k : Key} (hk : a.keys k)
    (hd : HandleId) {r r' : Request} (hr : r.key = k)
    (like : { r' with linkName := "" } = { r with linkName := "" }) (exact : a.names → r' = r)
    (c : Creation) (hc : c.link.id.Within a.keys) :
    Alongside a v v' (w.requested hd k r c) (w'.requested hd k r' c) := by
  refine Alongside.onShelf ?_ hk fun hs => hs.addCreation c
  exact Alongside.emitCreate ((h.notes _ _).count .creations) asks ⟨hc, hr ▸ hk⟩ like exact

/-- Hubs that have gone alongside join a handle alike. -/
theorem Alongside.join (h : Alongside a v v' w w') {hd : HandleId} (hk : a.keys hd.key) :
    Alongside a v v' (w.join hd).1 (w'.join hd).1 ∧ (w'.join hd).2 = (w.join hd).2 := by
  have hnext : w'.nextTicket hd.key = w.nextTicket hd.key := by
    rw [nextTicket, (h.shelf _ hk).tickets, nextTicket]
  unfold Hub.join
  rw [h.phase hk, hnext]
  split
  · exact ⟨((h.addTicket hk _).setPhase hk _).count .hits, rfl⟩
  · exact ⟨((h.addTicket hk _).setPhase hk _).count .waits, rfl⟩
  · exact ⟨h, rfl⟩
  · exact ⟨h, rfl⟩

/-- A handle that takes callers gives a ticket to whoever joins it. -/
theorem exists_join {hd : HandleId} (hopen : (w.phase hd).isOpen = true) :
    ∃ id, (w.join hd).2 = some id := by
  unfold join
  cases hp : w.phase hd with
  | live link refs => exact ⟨_, rfl⟩
  | pending queue => exact ⟨_, rfl⟩
  | orphaned refs =>
    rw [hp] at hopen
    contradiction
  | closed =>
    rw [hp] at hopen
    contradiction

/-- The links that handles of these keys keep are links of these keys. -/
def LinksWithin (w : Hub) (ks : Key → Prop) : Prop :=
  ∀ hd : HandleId, ks hd.key → ∀ link refs, w.phase hd = .live link refs → link.id.Within ks

theorem phase_setTicket (w : Hub) (id : TicketId) (ticket : Ticket) (hd : HandleId) :
    (w.setTicket id ticket).phase hd = w.phase hd := by
  cases id with
  | loose n => rfl
  | forKey k n =>
    by_cases hk : hd.key = k
    · rw [phase, setTicket, hk, shelf_onShelf_self, phase, hk]
    · rw [phase, setTicket, shelf_onShelf_ne w hk, phase]

theorem serving_forget_of_none {k : Key} {hd : HandleId} (hs : w.serving k = none) :
    (w.forget k hd).serving k = none := by
  unfold forget
  rw [hs]
  split
  · rw [if_neg (by simp), serving, shelf_onShelf_self]
    obtain ⟨o, e⟩ := (w.shelf k).dropOrphan_eq hd
    rw [e]
    exact hs
  · exact hs

/-- Asks a ticket for its outcome in some way. This is what polling and parking come to. -/
def touch (w : Hub) (id : TicketId) (f : Ticket → Ticket × Poll Outcome) : Hub × Poll Outcome :=
  match w.ticket? id with
  | none => (w, .over)
  | some t => (w.setTicket id (f t).1, (f t).2)

namespace Alongside

theorem awaitPart (h : Alongside a v v' w w') (hd : HandleId) {link : Link}
    (hl : link.id.Within a.keys) :
    Alongside a v v' (w.awaitPart hd link).1 (w'.awaitPart hd link).1 ∧
      (w'.awaitPart hd link).2 = (w.awaitPart hd link).2 := by
  obtain ⟨ht, he⟩ := h.awaitClose hd hl
  unfold Hub.awaitPart
  cases hr : w.awaitClose hd link with
  | mk u answer =>
    cases hr' : w'.awaitClose hd link with
    | mk u' answer' =>
      rw [hr, hr'] at ht he
      obtain rfl : answer' = answer := he
      cases answer' with
      | none => exact ⟨ht, rfl⟩
      | some result => exact ⟨ht, rfl⟩

/-- Polls and parks of a ticket. -/
theorem touch (h : Alongside a v v' w w') {id : TicketId} (hid : id.Within a.keys)
    (f : Ticket → Ticket × Poll Outcome) :
    Alongside a v v' (w.touch id f).1 (w'.touch id f).1 ∧ (w'.touch id f).2 = (w.touch id f).2 := by
  unfold Hub.touch
  rw [h.ticket? hid]
  split
  · exact ⟨h, rfl⟩
  · exact ⟨h.setTicket hid _, rfl⟩

end Alongside

namespace Tail

variable {R : Hub → Hub → Prop} (t : Tail a v v' R) (h : Alongside a v v' w w')

include t h

theorem startCreation (asks : a.asks) {hd : HandleId} {k : Key} (hk : a.keys k)
    (howner : a.keys hd.key) (hqueue : w.QueuesWithin a.keys hd) :
    R (w.startCreation hd k) (w'.startCreation hd k) := by
  obtain ⟨g, g', hg, hg', -⟩ := h.growth
  have hprovider : w'.provider k = w.provider k := by
    rw [hg'.provider, h.provider k hk, hg.provider]
  have hnode : w'.node = w.node := by
    rw [hg'.node, h.node, hg.node]
  have hcreations : (w'.shelf k).creations = (w.shelf k).creations := (h.shelf k hk).creations
  have hnext : a.names → w'.namer.advance = w.namer.advance := fun hn => by rw [h.names hn]
  have hname : a.names → w'.namer.name = w.namer.name := fun hn => by rw [h.names hn]
  rw [startCreation_eq, startCreation_eq, hcreations, hprovider]
  have hnamed := h.rename asks hnext
  refine t.spawn (hnamed.requested asks hk hd rfl ?_ ?_ _ hk) ⟨howner, hk, fun _ => ?_⟩
  · rw [hnode]
    exact Request.make_nameless k _ _ w.node
  · intro hn
    rw [hname hn, hnode]
  · intro queue hp
    rw [phase_requested, phase_rename] at hp
    exact hqueue queue hp

theorem openHandle (asks : a.asks) {k : Key} (hk : a.keys k) {queue : List TicketId}
    (hqueue : ∀ id ∈ queue, id.Within a.keys) : R (w.openHandle k queue) (w'.openHandle k queue) := by
  have hnext : w'.nextHandle k = w.nextHandle k := by
    rw [nextHandle, (h.shelf k hk).phases, nextHandle]
  unfold Hub.openHandle
  rw [hnext]
  have hadded : Alongside a v v' (w.addHandle k (.pending queue)) (w'.addHandle k (.pending queue)) :=
    h.onShelf hk fun hs => hs.addPhase _
  refine t.startCreation (hadded.setServing hk _) asks hk hk ?_
  intro queue' hp
  rw [phase, setServing_eq, addHandle, show (w.nextHandle k).key = k from rfl, shelf_onShelf_self,
    shelf_onShelf_self] at hp
  change (((w.shelf k).phases ++ [Phase.pending queue])[(w.shelf k).phases.length]?).getD _ = _ at hp
  rw [List.getElem?_concat_length] at hp
  obtain rfl := Phase.pending.inj hp
  exact hqueue

theorem joinFresh (asks : a.asks) {k : Key} (hk : a.keys k) :
    R (w.joinFresh k).1 (w'.joinFresh k).1 ∧ (w'.joinFresh k).2 = (w.joinFresh k).2 := by
  have hnext : w'.nextTicket k = w.nextTicket k := by
    rw [nextTicket, (h.shelf k hk).tickets, nextTicket]
  unfold Hub.joinFresh
  rw [hnext]
  refine ⟨t.openHandle ((h.addTicket hk .fresh).count .waits) asks hk ?_, rfl⟩
  intro id hm
  rw [List.mem_singleton.mp hm]
  exact hk

/-- The handle in service takes callers, so asking for a link comes to joining it. -/
theorem acquire (places : a.places) (asks : a.asks) {k : Key} (hk : a.keys k)
    (hopen : ∀ hd, w.serving k = some hd → a.keys hd.key ∧ (w.phase hd).isOpen = true) :
    R (w.acquire k).1 (w'.acquire k).1 ∧ (w'.acquire k).2 = (w.acquire k).2 := by
  have hc := h.count .acquires
  unfold Hub.acquire
  dsimp only
  rw [hc.serving places hk]
  cases hs : (w.count .acquires).serving k with
  | none => exact t.joinFresh hc asks hk
  | some hd =>
    obtain ⟨hkey, hopen⟩ := hopen hd hs
    obtain ⟨hj, he⟩ := hc.join hkey
    obtain ⟨id, hid⟩ := exists_join (w := w.count .acquires) hopen
    dsimp only
    rw [hid] at he
    cases hr : (w.count .acquires).join hd with
    | mk u answer =>
      cases hr' : (w'.count .acquires).join hd with
      | mk u' answer' =>
        rw [hr, hr'] at hj
        rw [hr] at hid
        rw [hr'] at he
        obtain rfl : answer = some id := hid
        obtain rfl : answer' = some id := he
        exact ⟨t.rest hj, rfl⟩

/-! ## Giving references back -/

theorem giveBack {hd : HandleId} (hk : a.keys hd.key) (hlinks : w.LinksWithin a.keys)
    (report : Bool) :
    R (w.giveBack hd report).1 (w'.giveBack hd report).1 ∧
      (w'.giveBack hd report).2 = (w.giveBack hd report).2 := by
  have hclosed := (h.setPhase hk .closed).forget hk hd
  unfold Hub.giveBack
  rw [h.phase hk]
  split
  · exact ⟨t.rest ((h.setPhase hk _).count _), rfl⟩
  · rename_i link hp
    refine ⟨t.spawn ((hclosed.count _).count _) ⟨hk, hlinks hd hk link 1 hp, fun e => ?_⟩, rfl⟩
    contradiction
  · exact ⟨t.rest ((h.setPhase hk _).count _), rfl⟩
  · exact ⟨t.rest ((hclosed.count _).note _), rfl⟩
  · dsimp only
    split
    · exact ⟨t.rest ((h.count _).note _), rfl⟩
    · exact ⟨t.rest h, rfl⟩

theorem giveBackFirst {hs : List HandleId} (hks : ∀ hd ∈ hs, a.keys hd.key)
    (hlinks : w.LinksWithin a.keys) :
    w.giveBackFirst hs = none ∧ w'.giveBackFirst hs = none ∨
      ∃ u u', w.giveBackFirst hs = some u ∧ w'.giveBackFirst hs = some u' ∧ R u u' := by
  induction hs with
  | nil => exact Or.inl ⟨rfl, rfl⟩
  | cons hd hs ih =>
    obtain ⟨hr, he⟩ := t.giveBack h (hks hd (List.mem_cons_self ..)) hlinks false
    unfold Hub.giveBackFirst
    cases hg : w.giveBack hd false with
    | mk u result =>
      cases hg' : w'.giveBack hd false with
      | mk u' result' =>
        rw [hg, hg'] at hr he
        obtain rfl : result' = result := he
        cases result' with
        | ok => exact Or.inr ⟨u, u', rfl, rfl, hr⟩
        | error e => exact ih fun hd hm => hks hd (List.mem_cons_of_mem _ hm)

/-- Handles in service take callers, so a release never finds one that is closed. -/
theorem release (places : a.places) {k : Key} (hk : a.keys k)
    (hopen : ∀ hd, w.serving k = some hd → a.keys hd.key ∧ (w.phase hd).isOpen = true)
    (horphans : ∀ hd ∈ (w.shelf k).orphans, a.keys hd.key) (hlinks : w.LinksWithin a.keys) :
    R (w.release k).1 (w'.release k).1 ∧ (w'.release k).2 = (w.release k).2 := by
  have hshelf : (w'.shelf k).orphans = (w.shelf k).orphans := by
    rw [Shelf.orphans, (h.shelf k hk).orphaned places, Shelf.orphans]
  unfold Hub.release
  rw [hshelf]
  rcases t.giveBackFirst h horphans hlinks with ⟨hn, hn'⟩ | ⟨u, u', hu, hu', hr⟩
  · rw [hn, hn']
    dsimp only
    rw [h.serving places hk]
    cases hs : w.serving k with
    | none => exact ⟨t.rest (h.note _), rfl⟩
    | some hd =>
      obtain ⟨hkey, hopen⟩ := hopen hd hs
      have hclosed : (w.phase hd).isClosed = false := by
        cases hp : w.phase hd <;> simp_all [Phase.isOpen, Phase.isClosed]
      dsimp only
      rw [h.phase hkey, hclosed]
      exact t.giveBack h hkey hlinks true
  · rw [hu, hu']
    exact ⟨hr, rfl⟩

/-- A ticket is dropped, and the reference that it leaves unclaimed goes back to a handle of these
keys. -/
theorem dropTicket {id : TicketId} (hid : id.Within a.keys) (hlinks : w.LinksWithin a.keys)
    (hsource : ∀ ticket link r, w.ticket? id = some ticket →
      ticket.state = .settled (.ok link) (some r) → ∃ hd : HandleId, r = .handle hd ∧ a.keys hd.key) :
    R (w.dropTicket id) (w'.dropTicket id) := by
  unfold Hub.dropTicket
  rw [h.ticket? hid]
  cases ht : w.ticket? id with
  | none => exact t.rest h
  | some ticket =>
    dsimp only
    cases hdrop : ticket.drop with
    | mk left back =>
      have hset := h.setTicket hid left
      cases back with
      | none => exact t.rest hset
      | some r =>
        obtain ⟨link, hstate⟩ : ∃ link, ticket.state = .settled (.ok link) (some r) := by
          unfold Ticket.drop at hdrop
          split at hdrop <;> simp_all
        obtain ⟨hd, rfl, hk⟩ := hsource ticket link r ht hstate
        refine (t.giveBack (hset.note (.unclaimed hd.key)) hk ?_ false).1
        intro hd' hk' link' refs hp
        refine hlinks hd' hk' link' refs ?_
        rw [← hp]
        exact (phase_setTicket w id left hd').symm

/-! ## Force closing -/

/-- Tickets go to a fresh handle of a key that no handle serves. -/
theorem requeue (places : a.places) (asks : a.asks) {k : Key} (hk : a.keys k) {ids : List TicketId}
    (hids : ∀ id ∈ ids, id.Within a.keys) (hfree : w.serving k = none) :
    R (w.requeue k ids) (w'.requeue k ids) := by
  have hwanted : ids.filter (fun id => !w'.isDropped id) = ids.filter fun id => !w.isDropped id :=
    List.filter_congr fun id hm => by rw [h.isDropped (hids id hm)]
  unfold Hub.requeue
  rw [hwanted]
  split
  · exact t.rest h
  · rw [h.serving places hk, hfree]
    exact t.openHandle h asks hk fun id hm => hids id (List.mem_filter.mp hm).1

/-- A handle is force closed that has been taken out of service. -/
theorem forceClose (places : a.places) (asks : a.asks) {hd : HandleId} (hk : a.keys hd.key)
    (hlink : ∀ link refs, w.phase hd = .live link refs → link.id.Within a.keys)
    (hqueue : w.QueuesWithin a.keys hd) (hfree : w.serving hd.key = none) :
    R (w.forceClose hd).1 (w'.forceClose hd).1 ∧ (w'.forceClose hd).2 = (w.forceClose hd).2 := by
  unfold Hub.forceClose
  rw [h.phase hk]
  split
  · rename_i link refs hp
    have hlink := hlink link refs hp
    have horphaned := (((h.note (.orphaning hd.key refs)).setPhase hk (.orphaned refs)).count
      .forceCloses).note (.forceClosing hd.key link.identity)
    obtain ⟨ht, he⟩ := (horphaned.beginClose hd hlink).awaitPart hd hlink
    exact ⟨t.rest ht, he⟩
  · rename_i queue hp
    have hclosed := (h.setPhase hk .closed).forget hk hd
    have hfree' : ((w.setPhase hd .closed).forget hd.key hd).serving hd.key = none := by
      refine serving_forget_of_none ?_
      rw [serving, setPhase_eq, shelf_onShelf_self]
      exact hfree
    dsimp only
    split
    · exact ⟨t.rest hclosed, rfl⟩
    · exact ⟨t.requeue (hclosed.note _) places asks hk (hqueue _ hp) hfree', rfl⟩
  · exact ⟨t.rest h, rfl⟩
  · exact ⟨t.rest h, rfl⟩

end Tail

end Hub

end SharedLinks
