import SharedLinks.Proofs.Keepers

/-!
# Hubs that go alongside each other

Two hubs may differ in much and still do the same things under some keys. `Hub.Alongside` relates two
hubs to the two that they have come from: on the shelves of these keys they agree, and since then they
have seen the same events, counted the same and taken up the same jobs, all of it under these keys.
An `Accord` says which keys these are and what else the hubs agree on.

The relation goes through everything that a hub does under one of the keys. This module has the reads,
the writes and the delivery of outcomes; jobs and calls come in the next one.
-/

namespace SharedLinks

/-! ## What is about a key -/

/-- The ticket is one of these keys. -/
def TicketId.Within (ks : Key → Prop) : TicketId → Prop
  | .forKey k _ => ks k
  | .loose _ => False

/-- If the link is that of a creation, it is one under these keys. -/
def LinkId.Within (ks : Key → Prop) : LinkId → Prop
  | .made k _ => ks k
  | .brought _ => True

theorem LinkId.within_true (id : LinkId) : id.Within fun _ => True := by
  cases id <;> trivial

/-- The event is about a link or a ticket of these keys. -/
def Event.Within (ks : Key → Prop) : Event → Prop
  | .create link request => link.Within ks ∧ ks request.key
  | .close link => link.Within ks
  | .wake ticket _ => ticket.Within ks
  | .refund _ => False

/-- The event without the name that a link was requested under. -/
def Event.nameless : Event → Event
  | .create link request => .create link { request with linkName := "" }
  | e => e

namespace Shelf

/-- The shelves agree, the places of handles aside unless these are asked for. -/
structure Like (placed : Prop) (s s' : Shelf) : Prop where
  phases : s'.phases = s.phases
  creations : s'.creations = s.creations
  tickets : s'.tickets = s.tickets
  serving : placed → s'.serving = s.serving
  orphaned : placed → s'.orphaned = s.orphaned

namespace Like

variable {placed : Prop} {s s' : Shelf}

theorem refl (placed : Prop) (s : Shelf) : Like placed s s :=
  ⟨rfl, rfl, rfl, fun _ => rfl, fun _ => rfl⟩

theorem eq (h : Like placed s s') (hp : placed) : s' = s := by
  obtain ⟨phases, creations, tickets, serving, orphaned⟩ := h
  cases s
  cases s'
  simp_all

/-- Places may be left out. -/
theorem mono {p : Prop} (h : Like placed s s') (hp : p → placed) : Like p s s' :=
  ⟨h.phases, h.creations, h.tickets, fun e => h.serving (hp e), fun e => h.orphaned (hp e)⟩

theorem setPhase (h : Like placed s s') (i : Nat) (p : Phase) :
    Like placed (s.setPhase i p) (s'.setPhase i p) :=
  ⟨congrArg (·.set i p) h.phases, h.creations, h.tickets, h.serving, h.orphaned⟩

theorem addTicket (h : Like placed s s') (t : Ticket) :
    Like placed (s.addTicket t) (s'.addTicket t) :=
  ⟨h.phases, h.creations, congrArg (· ++ [t]) h.tickets, h.serving, h.orphaned⟩

theorem setTicket (h : Like placed s s') (n : Nat) (t : Ticket) :
    Like placed (s.setTicket n t) (s'.setTicket n t) :=
  ⟨h.phases, h.creations, congrArg (·.set n t) h.tickets, h.serving, h.orphaned⟩

theorem onCreation (h : Like placed s s') (i : Nat) (f : Creation → Creation) :
    Like placed (s.onCreation i f) (s'.onCreation i f) :=
  ⟨h.phases, congrArg (·.modify i f) h.creations, h.tickets, h.serving, h.orphaned⟩

theorem addPhase (h : Like placed s s') (p : Phase) :
    Like placed { s with phases := s.phases ++ [p] } { s' with phases := s'.phases ++ [p] } :=
  ⟨congrArg (· ++ [p]) h.phases, h.creations, h.tickets, h.serving, h.orphaned⟩

theorem addCreation (h : Like placed s s') (c : Creation) :
    Like placed { s with creations := s.creations ++ [c] }
      { s' with creations := s'.creations ++ [c] } :=
  ⟨h.phases, congrArg (· ++ [c]) h.creations, h.tickets, h.serving, h.orphaned⟩

theorem serve (h : Like placed s s') (hd : Option HandleId) :
    Like placed (s.serve hd) (s'.serve hd) :=
  ⟨h.phases, h.creations, h.tickets, fun _ => rfl, h.orphaned⟩

theorem dropOrphan (h : Like placed s s') (hd : HandleId) :
    Like placed (s.dropOrphan hd) (s'.dropOrphan hd) := by
  by_cases hp : placed
  · rw [h.eq hp]
    exact .refl _ _
  · obtain ⟨o, e⟩ := s.dropOrphan_eq hd
    obtain ⟨o', e'⟩ := s'.dropOrphan_eq hd
    rw [e, e']
    exact ⟨h.phases, h.creations, h.tickets, fun e => absurd e hp, fun e => absurd e hp⟩

end Like

end Shelf

namespace Hub

/-! ## What has happened since -/

/-- What has come to a hub in events, counts and jobs. -/
structure Growth where
  /-- The new events, the latest first. -/
  events : List Event := []
  /-- What was added to each counter. -/
  counts : Counter → UInt64 := fun _ => 0
  jobs : List Job := []
  /-- The jobs among them that can go on. -/
  ready : List JobId := []

/-- The parts of a hub that calls leave alone. -/
def fixtures (w : Hub) : Provider × Dispatch × String × (Nat × List Teardown) × List Ticket :=
  (w.provider, w.dispatch, w.node, w.keepers, w.loose)

/-- Taking a handle off a shelf shows in no events, counters or fixtures. -/
theorem forget_rest (w : Hub) (k : Key) (h : HandleId) :
    (w.forget k h).events = w.events ∧ (w.forget k h).counters = w.counters ∧
      (w.forget k h).fixtures = w.fixtures := by
  unfold forget
  split
  · split <;> exact ⟨rfl, rfl, rfl⟩
  · exact ⟨rfl, rfl, rfl⟩

/-- All tickets that wait for the handle are ones of these keys. -/
def QueuesWithin (w : Hub) (ks : Key → Prop) (h : HandleId) : Prop :=
  ∀ queue, w.phase h = .pending queue → ∀ id ∈ queue, id.Within ks

/-- What two hubs agree on. -/
structure Accord where
  /-- The keys on whose shelves they agree. -/
  keys : Key → Prop
  /-- They agree on the places of handles, too. -/
  places : Prop
  /-- New links may be asked for. -/
  asks : Prop
  /-- New jobs may be taken up. -/
  takes : Prop
  /-- They agree on the names that new links get. -/
  names : Prop

/-- The second hub has come from the first by what has happened under some keys. -/
structure Grows (a : Accord) (g : Growth) (v w : Hub) : Prop where
  fixtures : w.fixtures = v.fixtures
  shelf : ∀ k, ¬ a.keys k → w.shelf k = v.shelf k
  /-- No key is new to the hub but these. -/
  table : (∀ k, a.keys k → k ∈ v.shelves.keys) → w.shelves.keys = v.shelves.keys
  events : w.events = g.events ++ v.events
  within : ∀ e ∈ g.events, e.Within a.keys
  counters : ∀ c, w.counters.get c = v.counters.get c + g.counts c
  jobs : w.jobs = v.jobs ++ g.jobs
  ready : w.ready = v.ready ++ g.ready
  owners : ∀ j ∈ g.jobs, a.keys j.owner.key
  namer : ¬ a.asks → w.namer = v.namer
  idle : ¬ a.takes → g.jobs = [] ∧ g.ready = []

/-- The hubs have grown alike, the names of new links aside unless these agree. -/
structure Growth.Like (a : Accord) (g g' : Growth) : Prop where
  events : g'.events.map Event.nameless = g.events.map Event.nameless
  exact : (a.asks → a.names) → g'.events = g.events
  counts : g'.counts = g.counts
  jobs : g'.jobs = g.jobs
  ready : g'.ready = g.ready

/-- The hubs `w` and `w'`, which have come from `v` and `v'`, have gone alongside under some keys. -/
structure Alongside (a : Accord) (v v' w w' : Hub) : Prop where
  shelf : ∀ k, a.keys k → (w.shelf k).Like a.places (w'.shelf k)
  provider : ∀ k, a.keys k → v'.provider k = v.provider k
  node : v'.node = v.node
  held : a.places → v'.isHeld = v.isHeld
  names : a.names → w'.namer = w.namer
  table : a.places → v'.shelves.keys = v.shelves.keys → w'.shelves.keys = w.shelves.keys
  growth : ∃ g g', Grows a g v w ∧ Grows a g' v' w' ∧ Growth.Like a g g'

variable {a : Accord} {v v' w w' : Hub} {g : Growth}

/-! ### One hub -/

namespace Grows

theorem refl (a : Accord) (w : Hub) : Grows a {} w w := by
  refine ⟨rfl, fun _ _ => rfl, fun _ => rfl, rfl, ?_, fun c => ?_, ?_, ?_, ?_, fun _ => rfl,
    fun _ => ⟨rfl, rfl⟩⟩
  · intro e he
    contradiction
  · exact (UInt64.add_zero _).symm
  · exact (List.append_nil _).symm
  · exact (List.append_nil _).symm
  · intro j hj
    contradiction

theorem provider (h : Grows a g v w) : w.provider = v.provider := (Prod.mk.inj h.fixtures).1

theorem dispatch (h : Grows a g v w) : w.dispatch = v.dispatch :=
  congrArg (fun f => f.2.1) h.fixtures

theorem node (h : Grows a g v w) : w.node = v.node := congrArg (fun f => f.2.2.1) h.fixtures

theorem keepers (h : Grows a g v w) : w.keepers = v.keepers :=
  congrArg (fun f => f.2.2.2.1) h.fixtures

theorem clones (h : Grows a g v w) : w.clones = v.clones := (Prod.mk.inj h.keepers).1

theorem teardowns (h : Grows a g v w) : w.teardowns = v.teardowns := (Prod.mk.inj h.keepers).2

theorem loose (h : Grows a g v w) : w.loose = v.loose := congrArg (fun f => f.2.2.2.2) h.fixtures

theorem isHeld (h : Grows a g v w) : w.isHeld = v.isHeld := by
  rw [Hub.isHeld, h.clones, h.teardowns, Hub.isHeld]

theorem note (h : Grows a g v w) (n : Notice) : Grows a g v (w.note n) :=
  ⟨h.fixtures, h.shelf, h.table, h.events, h.within, h.counters, h.jobs, h.ready, h.owners, h.namer,
    h.idle⟩

theorem emit (h : Grows a g v w) {e : Event} (he : e.Within a.keys) :
    Grows a { g with events := e :: g.events } v (w.emit e) := by
  refine ⟨h.fixtures, h.shelf, h.table, ?_, ?_, h.counters, h.jobs, h.ready, h.owners, h.namer,
    h.idle⟩
  · change e :: w.events = _
    rw [h.events]
    rfl
  · intro e' hm
    rcases List.mem_cons.mp hm with rfl | hm
    · exact he
    · exact h.within e' hm

theorem countBy (h : Grows a g v w) (c : Counter) (n : Nat) :
    Grows a { g with counts := fun d => g.counts d + if d = c then UInt64.ofNat n else 0 } v
      (w.countBy c n) := by
  refine ⟨h.fixtures, h.shelf, h.table, h.events, h.within, fun d => ?_, h.jobs, h.ready, h.owners,
    h.namer, h.idle⟩
  change (w.counters.add c (UInt64.ofNat n)).get d =
    v.counters.get d + (g.counts d + if d = c then UInt64.ofNat n else 0)
  rw [Counters.get_add, h.counters]
  split
  · exact UInt64.add_assoc _ _ _
  · rw [UInt64.add_zero]

theorem keys_onShelf (w : Hub) (k : Key) (f : Shelf → Shelf) : (w.onShelf k f).shelves.keys =
    if k ∈ w.shelves.keys then w.shelves.keys else w.shelves.keys ++ [k] :=
  Table.map_fst_put k _ _

theorem onShelf (h : Grows a g v w) {k : Key} (hk : a.keys k) (f : Shelf → Shelf) :
    Grows a g v (w.onShelf k f) := by
  refine ⟨h.fixtures, fun j hj => ?_, fun hm => ?_, h.events, h.within, h.counters, h.jobs, h.ready,
    h.owners, h.namer, h.idle⟩
  · have hne : j ≠ k := by
      rintro rfl
      exact hj hk
    rw [shelf_onShelf_ne w hne, h.shelf j hj]
  · rw [keys_onShelf, if_pos, h.table hm]
    rw [h.table hm]
    exact hm k hk

theorem push (h : Grows a g v w) (takes : a.takes) {js : List Job}
    (hjs : ∀ j ∈ js, a.keys j.owner.key) (ids : List JobId) :
    Grows a { g with jobs := g.jobs ++ js, ready := g.ready ++ ids } v
      { w with jobs := w.jobs ++ js, ready := w.ready ++ ids } := by
  refine ⟨h.fixtures, h.shelf, h.table, h.events, h.within, h.counters, ?_, ?_, ?_, h.namer,
    fun e => absurd takes e⟩
  · change w.jobs ++ js = _
    rw [h.jobs, List.append_assoc]
  · change w.ready ++ ids = _
    rw [h.ready, List.append_assoc]
  · intro j hj
    rcases List.mem_append.mp hj with hj | hj
    · exact h.owners j hj
    · exact hjs j hj

theorem rename (h : Grows a g v w) (asks : a.asks) (namer : Namer) :
    Grows a g v { w with namer := namer } :=
  ⟨h.fixtures, h.shelf, h.table, h.events, h.within, h.counters, h.jobs, h.ready, h.owners,
    fun e => absurd asks e, h.idle⟩

theorem forget (h : Grows a g v w) {k : Key} (hk : a.keys k) (hd : HandleId) :
    Grows a g v (w.forget k hd) := by
  unfold Hub.forget
  split
  · split
    · exact (h.onShelf hk _).note _
    · exact h.onShelf hk _
  · exact h

end Grows

/-- Taking a handle off a shelf, or not, shows in no more than the places of handles. -/
theorem like_forget (w : Hub) (k j : Key) (hd : HandleId) :
    (w.shelf j).Like False ((w.forget k hd).shelf j) := by
  unfold forget
  split
  · have hfree : (w.shelf j).Like False ((w.onShelf k fun s => s.dropOrphan hd).shelf j) := by
      by_cases hj : j = k
      · subst hj
        rw [shelf_onShelf_self]
        obtain ⟨o, e⟩ := (w.shelf j).dropOrphan_eq hd
        rw [e]
        exact ⟨rfl, rfl, rfl, False.elim, False.elim⟩
      · rw [shelf_onShelf_ne w hj]
        exact .refl _ _
    have hserve : (w.shelf j).Like False ((w.setServing k none).shelf j) := by
      by_cases hj : j = k
      · subst hj
        rw [setServing_eq, shelf_onShelf_self]
        exact ⟨rfl, rfl, rfl, False.elim, False.elim⟩
      · rw [setServing_eq, shelf_onShelf_ne w hj]
        exact .refl _ _
    split
    · exact hserve
    · exact hfree
  · exact .refl _ _

/-! ### Two hubs -/

namespace Alongside

/-- Hubs that agree go alongside from there. -/
theorem start (shelf : ∀ k, a.keys k → (v.shelf k).Like a.places (v'.shelf k))
    (provider : ∀ k, a.keys k → v'.provider k = v.provider k) (node : v'.node = v.node)
    (held : a.places → v'.isHeld = v.isHeld) (names : a.names → v'.namer = v.namer) :
    Alongside a v v' v v' :=
  ⟨shelf, provider, node, held, names, fun _ => id,
    {}, {}, .refl a v, .refl a v', ⟨rfl, fun _ => rfl, rfl, rfl, rfl⟩⟩

variable (h : Alongside a v v' w w')

include h

/-! #### Reads -/

theorem phase {hd : HandleId} (hk : a.keys hd.key) : w'.phase hd = w.phase hd := by
  rw [Hub.phase, (h.shelf _ hk).phases, Hub.phase]

theorem ticket? {id : TicketId} (hid : id.Within a.keys) : w'.ticket? id = w.ticket? id := by
  cases id with
  | forKey k n => rw [Hub.ticket?, (h.shelf k hid).tickets, Hub.ticket?]
  | loose n => exact absurd hid id

theorem creation? {id : LinkId} (hid : id.Within a.keys) : w'.creation? id = w.creation? id := by
  cases id with
  | made k i => rw [Hub.creation?, (h.shelf k hid).creations, Hub.creation?]
  | brought name => rfl

theorem making {id : LinkId} (hid : id.Within a.keys) : w'.making id = w.making id := by
  rw [Hub.making, h.creation? hid, Hub.making]

theorem closing {id : LinkId} (hid : id.Within a.keys) : w'.closing id = w.closing id := by
  rw [Hub.closing, h.creation? hid, Hub.closing]

theorem isDropped {id : TicketId} (hid : id.Within a.keys) : w'.isDropped id = w.isDropped id := by
  rw [Hub.isDropped, h.ticket? hid, Hub.isDropped]

theorem serving (hp : a.places) {k : Key} (hk : a.keys k) : w'.serving k = w.serving k :=
  (h.shelf k hk).serving hp

theorem isHeld (hp : a.places) : w'.isHeld = w.isHeld := by
  obtain ⟨g, g', hg, hg', -⟩ := h.growth
  rw [hg'.isHeld, hg.isHeld, h.held hp]

/-! #### Writes -/

/-- The journals may tell different things. -/
theorem notes (n n' : Notice) : Alongside a v v' (w.note n) (w'.note n') := by
  obtain ⟨g, g', hg, hg', hlike⟩ := h.growth
  exact ⟨h.shelf, h.provider, h.node, h.held, h.names, h.table, g, g', hg.note n, hg'.note n', hlike⟩

theorem note (n : Notice) : Alongside a v v' (w.note n) (w'.note n) := h.notes n n

theorem emit {e : Event} (he : e.Within a.keys) : Alongside a v v' (w.emit e) (w'.emit e) := by
  obtain ⟨g, g', hg, hg', hlike⟩ := h.growth
  refine ⟨h.shelf, h.provider, h.node, h.held, h.names, h.table, _, _, hg.emit he, hg'.emit he, ?_⟩
  refine ⟨?_, fun hn => ?_, hlike.counts, hlike.jobs, hlike.ready⟩
  · rw [List.map_cons, List.map_cons, hlike.events]
  · rw [hlike.exact hn]

theorem countBy (c : Counter) (n : Nat) : Alongside a v v' (w.countBy c n) (w'.countBy c n) := by
  obtain ⟨g, g', hg, hg', hlike⟩ := h.growth
  refine ⟨h.shelf, h.provider, h.node, h.held, h.names, h.table, _, _, hg.countBy c n,
    hg'.countBy c n, ?_⟩
  refine ⟨hlike.events, hlike.exact, ?_, hlike.jobs, hlike.ready⟩
  rw [hlike.counts]

theorem count (c : Counter) : Alongside a v v' (w.count c) (w'.count c) := h.countBy c 1

/-- A write on a shelf that treats shelves alike which agree. -/
theorem onShelf {k : Key} (hk : a.keys k) {f : Shelf → Shelf}
    (hf : ∀ {s s' : Shelf}, s.Like a.places s' → (f s).Like a.places (f s')) :
    Alongside a v v' (w.onShelf k f) (w'.onShelf k f) := by
  obtain ⟨g, g', hg, hg', hlike⟩ := h.growth
  refine ⟨fun j hj => ?_, h.provider, h.node, h.held, h.names, fun hp he => ?_, g, g',
    hg.onShelf hk f, hg'.onShelf hk f, hlike⟩
  · by_cases hjk : j = k
    · subst hjk
      rw [shelf_onShelf_self, shelf_onShelf_self]
      exact hf (h.shelf j hj)
    · rw [shelf_onShelf_ne w hjk, shelf_onShelf_ne w' hjk]
      exact h.shelf j hj
  · rw [Grows.keys_onShelf, Grows.keys_onShelf, h.table hp he]

theorem setPhase {hd : HandleId} (hk : a.keys hd.key) (p : Phase) :
    Alongside a v v' (w.setPhase hd p) (w'.setPhase hd p) :=
  h.onShelf hk fun hs => hs.setPhase hd.index p

theorem addTicket {k : Key} (hk : a.keys k) (t : Ticket) :
    Alongside a v v' (w.addTicket k t) (w'.addTicket k t) :=
  h.onShelf hk fun hs => hs.addTicket t

theorem setTicket {id : TicketId} (hid : id.Within a.keys) (t : Ticket) :
    Alongside a v v' (w.setTicket id t) (w'.setTicket id t) := by
  cases id with
  | forKey k n => exact h.onShelf hid fun hs => hs.setTicket n t
  | loose n => exact absurd hid id

theorem onCreation {id : LinkId} (hid : id.Within a.keys) (f : Creation → Creation) :
    Alongside a v v' (w.onCreation id f) (w'.onCreation id f) := by
  cases id with
  | made k i => exact h.onShelf hid fun hs => hs.onCreation i f
  | brought name => exact h

theorem markDelivered {id : LinkId} (hid : id.Within a.keys) :
    Alongside a v v' (w.markDelivered id) (w'.markDelivered id) :=
  h.onCreation hid _

theorem setServing {k : Key} (hk : a.keys k) (hd : Option HandleId) :
    Alongside a v v' (w.setServing k hd) (w'.setServing k hd) :=
  h.onShelf hk fun hs => hs.serve hd

/-- New jobs are kept until somebody runs them. -/
theorem push (takes : a.takes) {js : List Job} (hjs : ∀ j ∈ js, a.keys j.owner.key)
    (ids : List JobId) :
    Alongside a v v' { w with jobs := w.jobs ++ js, ready := w.ready ++ ids }
      { w' with jobs := w'.jobs ++ js, ready := w'.ready ++ ids } := by
  obtain ⟨g, g', hg, hg', hlike⟩ := h.growth
  refine ⟨h.shelf, h.provider, h.node, h.held, h.names, h.table, _, _,
    hg.push takes hjs ids, hg'.push takes hjs ids, hlike.events, hlike.exact, hlike.counts, ?_, ?_⟩
  · rw [hlike.jobs]
  · rw [hlike.ready]

/-- A name is drawn for a new link. -/
theorem rename (asks : a.asks) {n n' : Namer} (names : a.names → n' = n) :
    Alongside a v v' { w with namer := n } { w' with namer := n' } := by
  obtain ⟨g, g', hg, hg', hlike⟩ := h.growth
  exact ⟨h.shelf, h.provider, h.node, h.held, names, h.table, g, g', hg.rename asks n,
    hg'.rename asks n', hlike⟩

/-- A link is asked for, under a name that may differ. -/
theorem emitCreate (asks : a.asks) {link : LinkId} {r r' : Request}
    (he : (Event.create link r).Within a.keys)
    (like : { r' with linkName := "" } = { r with linkName := "" })
    (exact : a.names → r' = r) :
    Alongside a v v' (w.emit (.create link r)) (w'.emit (.create link r')) := by
  obtain ⟨g, g', hg, hg', hlike⟩ := h.growth
  have hkey : r'.key = r.key := (Request.mk.inj like).1
  have he' : (Event.create link r').Within a.keys := ⟨he.1, hkey ▸ he.2⟩
  refine ⟨h.shelf, h.provider, h.node, h.held, h.names, h.table, _, _, hg.emit he, hg'.emit he', ?_⟩
  refine ⟨?_, fun hn => ?_, hlike.counts, hlike.jobs, hlike.ready⟩
  · rw [List.map_cons, List.map_cons, hlike.events,
      show (Event.create link r').nameless = (Event.create link r).nameless from
        congrArg (Event.create link) like]
  · rw [hlike.exact hn, exact (hn asks)]

/-- A handle is taken off a shelf of both hubs; of one alone if places do not matter. -/
theorem forget {k : Key} (hk : a.keys k) (hd : HandleId) :
    Alongside a v v' (w.forget k hd) (w'.forget k hd) := by
  by_cases hp : a.places
  · unfold Hub.forget
    rw [h.isHeld hp, h.serving hp hk]
    split
    · split
      · exact (h.setServing hk none).note _
      · exact h.onShelf hk fun hs => hs.dropOrphan hd
    · exact h
  · obtain ⟨g, g', hg, hg', hlike⟩ := h.growth
    refine ⟨fun j hj => ?_, h.provider, h.node, h.held, fun hn => ?_, fun e => absurd e hp, g, g',
      hg.forget hk hd, hg'.forget hk hd, hlike⟩
    · have hs := w.like_forget k j hd
      have hs' := w'.like_forget k j hd
      have hold := h.shelf j hj
      exact ⟨hs'.phases.trans (hold.phases.trans hs.phases.symm),
        hs'.creations.trans (hold.creations.trans hs.creations.symm),
        hs'.tickets.trans (hold.tickets.trans hs.tickets.symm), fun e => absurd e hp,
        fun e => absurd e hp⟩
    · have hnamer : ∀ u : Hub, (u.forget k hd).namer = u.namer := by
        intro u
        unfold Hub.forget
        split
        · split <;> rfl
        · rfl
      rw [hnamer, hnamer, h.names hn]

/-! #### Outcomes reach tickets and handles -/

theorem wake {id : TicketId} (hid : id.Within a.keys) (sleeper : Option Sleeper) :
    Alongside a v v' (w.wake id sleeper) (w'.wake id sleeper) := by
  unfold Hub.wake
  split
  · exact h.emit hid
  · exact h
  · exact h

theorem settle {id : TicketId} (hid : id.Within a.keys) (outcome : Outcome)
    (refund : Option Refund) :
    Alongside a v v' (w.settle id outcome refund).1 (w'.settle id outcome refund).1 ∧
      (w'.settle id outcome refund).2 = (w.settle id outcome refund).2 := by
  unfold Hub.settle
  rw [h.ticket? hid]
  split
  · exact ⟨h, rfl⟩
  · exact ⟨(h.setTicket hid _).wake hid _, rfl⟩

theorem grant (hd : HandleId) (link : Link) {ids : List TicketId}
    (hids : ∀ id ∈ ids, id.Within a.keys) :
    Alongside a v v' (w.grant hd link ids).1 (w'.grant hd link ids).1 ∧
      (w'.grant hd link ids).2 = (w.grant hd link ids).2 := by
  induction ids generalizing w w' with
  | nil => exact ⟨h, rfl⟩
  | cons id ids ih =>
    obtain ⟨hs, htaken⟩ := h.settle (hids id (List.mem_cons_self ..)) (.ok link) (some (.handle hd))
    obtain ⟨hg, hrefs⟩ := ih hs fun id hm => hids id (List.mem_cons_of_mem _ hm)
    refine ⟨hg, ?_⟩
    simp only [Hub.grant, htaken, hrefs]

theorem refuse (error : LinkError) {ids : List TicketId} (hids : ∀ id ∈ ids, id.Within a.keys) :
    Alongside a v v' (w.refuse error ids) (w'.refuse error ids) := by
  induction ids generalizing w w' with
  | nil => exact h
  | cons id ids ih =>
    have hs := (h.settle (hids id (List.mem_cons_self ..)) (.error error) none).1
    exact ih hs fun id hm => hids id (List.mem_cons_of_mem _ hm)

theorem beginClose (hd : HandleId) {link : Link} (hl : link.id.Within a.keys) :
    Alongside a v v' (w.beginClose hd link) (w'.beginClose hd link) :=
  (h.note _).emit hl

theorem awaitClose (hd : HandleId) {link : Link} (hl : link.id.Within a.keys) :
    Alongside a v v' (w.awaitClose hd link).1 (w'.awaitClose hd link).1 ∧
      (w'.awaitClose hd link).2 = (w.awaitClose hd link).2 := by
  unfold Hub.awaitClose
  rw [h.closing hl]
  split
  · exact ⟨h, rfl⟩
  · exact ⟨h.note _, rfl⟩
  · exact ⟨(h.count _).note _, rfl⟩

theorem fulfil {hd : HandleId} (hk : a.keys hd.key) (link : Link)
    (hqueue : w.QueuesWithin a.keys hd) :
    Alongside a v v' (w.fulfil hd link).1 (w'.fulfil hd link).1 ∧
      (w'.fulfil hd link).2 = (w.fulfil hd link).2 := by
  unfold Hub.fulfil
  rw [h.phase hk]
  split
  · rename_i queue hp
    obtain ⟨hg, hrefs⟩ := h.grant hd link (hqueue queue hp)
    dsimp only
    rw [hrefs]
    split
    · exact ⟨((((hg.note _).setPhase hk .closed).note _).forget hk hd).count _, rfl⟩
    · exact ⟨(hg.note _).setPhase hk _, rfl⟩
  · exact ⟨(h.note _).count _, rfl⟩
  · exact ⟨(h.note _).count _, rfl⟩
  · exact ⟨(h.note _).count _, rfl⟩

theorem fail {hd : HandleId} (hk : a.keys hd.key) (failure : String)
    (hqueue : w.QueuesWithin a.keys hd) :
    Alongside a v v' (w.fail hd failure) (w'.fail hd failure) := by
  have hcounted := (h.note (.creationFailed hd.key (.creation hd.key (.message failure)))).count
    .creationFailures
  unfold Hub.fail
  dsimp only
  rw [hcounted.phase hk]
  split
  · rename_i queue hp
    exact ((hcounted.setPhase hk .closed).forget hk hd).refuse _ (hqueue queue hp)
  · exact hcounted
  · exact hcounted
  · exact hcounted

end Alongside

end Hub

end SharedLinks
