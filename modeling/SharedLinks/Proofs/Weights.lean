import Mathlib.Data.UInt
import SharedLinks.Proofs.Outline
import SharedLinks.Proofs.Runs

/-!
# What a hub weighs

`Weights` gives a weight to every counter, ticket, reference, live handle and creation of a hub, such
that whatever the counters record is outweighed by what they record it of: a hit is a call and a
reference, a release is a reference less, and so on. The weight of a whole hub is the sum of all these,
in the arithmetic of the counters. `Hub.Drifts` says by how much a write changes it, and this module
says so for the writes on single fields, for tickets that are settled, and for outcomes that arrive.
-/

namespace SharedLinks

/-! ## Weights -/

/-- What each thing in a hub weighs. The equations say which of them come and go together. -/
structure Weights where
  counter : Counter → UInt64
  /-- A ticket that had to wait and got a link. -/
  served : UInt64
  /-- A reference that a handle counts. -/
  ref : UInt64
  /-- A live handle, apart from its references. -/
  live : UInt64
  /-- A creation whose link has reached its handle. -/
  made : UInt64
  /-- A creation whose answer has not reached its handle. -/
  due : UInt64
  hit : counter .acquires + counter .hits + ref = 0 := by decide
  wait : counter .acquires + counter .waits = 0 := by decide
  create : counter .creations + due = 0 := by decide
  grant : served + ref = 0 := by decide
  arrive : made + live = due := by decide
  fail : counter .creationFailures = due := by decide
  release : counter .releases = ref := by decide
  close : counter .closes = live := by decide
  force : counter .forceCloses = live := by decide
  unbalanced : counter .unbalancedReleases = 0 := by decide
  closeFailed : counter .closeFailures = 0 := by decide

/-- The ticket was settled with a link, whatever became of it. -/
def Ticket.isServed (t : Ticket) : Bool :=
  match t.outcome? with
  | some (.ok _) => true
  | _ => false

/-- The creation has brought its handle a link. -/
def Creation.isMade (c : Creation) : Bool := c.delivered && c.making = .opened none

namespace Weights

variable (W : Weights)

/-- A ticket weighs something once it was waited for and got a link, whatever became of it. -/
def ticket (t : Ticket) : UInt64 := if t.waited && t.isServed then W.served else 0

/-- An orphan weighs what its references weigh, and a live handle counts besides. -/
def phase : Phase → UInt64
  | .live _ refs => W.live + UInt64.ofNat refs * W.ref
  | .orphaned refs => UInt64.ofNat refs * W.ref
  | .pending _ | .closed => 0

/-- A creation is due until its answer is delivered; then it weighs something if that was a link. -/
def creation (c : Creation) : UInt64 :=
  if !c.delivered then W.due else if c.isMade then W.made else 0

def shelf (s : Shelf) : UInt64 :=
  (s.tickets.map W.ticket).sum + (s.phases.map W.phase).sum + (s.creations.map W.creation).sum

def counters (m : Counters) : UInt64 :=
  W.counter .acquires * m.acquires + W.counter .hits * m.hits + W.counter .waits * m.waits +
    W.counter .releases * m.releases + W.counter .unbalancedReleases * m.unbalancedReleases +
    W.counter .creations * m.creations + W.counter .creationFailures * m.creationFailures +
    W.counter .closes * m.closes + W.counter .closeFailures * m.closeFailures +
    W.counter .forceCloses * m.forceCloses

/-- The weight of a whole hub. -/
def hub (w : Hub) : UInt64 :=
  W.counters w.counters + (w.shelves.keys.map fun k => W.shelf (w.shelf k)).sum

/-! ### Small changes -/

theorem phase_live_succ (link : Link) (n : Nat) :
    W.phase (.live link (n + 1)) = W.phase (.live link n) + W.ref := by
  have hn : UInt64.ofNat (n + 1) = UInt64.ofNat n + 1 := by simp
  simp only [phase, hn]
  grind

theorem phase_live_zero (link : Link) : W.phase (.live link 0) = W.live := by
  simp [phase]

theorem phase_orphaned_succ (n : Nat) :
    W.phase (.orphaned (n + 1)) = W.phase (.orphaned n) + W.ref := by
  have hn : UInt64.ofNat (n + 1) = UInt64.ofNat n + 1 := by simp
  simp only [phase, hn]
  grind

theorem phase_orphaned_zero : W.phase (.orphaned 0) = 0 := by
  simp [phase]

/-- Taking its link from a handle leaves the references. -/
theorem phase_live (link : Link) (n : Nat) :
    W.phase (.live link n) = W.live + W.phase (.orphaned n) := rfl

theorem counters_add (m : Counters) (c : Counter) (n : UInt64) :
    W.counters (m.add c n) = W.counters m + W.counter c * n := by
  cases c <;> simp only [Counters.add, counters] <;> grind

/-- How the replacement of a member shows in a sum. -/
theorem sum_map_set {α : Type} (f : α → UInt64) {l : List α} {i : Nat} {a : α}
    (h : l[i]? = some a) (b : α) : ((l.set i b).map f).sum = (l.map f).sum + (f b - f a) := by
  induction l generalizing i with
  | nil => simp at h
  | cons c l ih =>
    cases i with
    | zero =>
      obtain rfl : c = a := by simpa using h
      simp only [List.set_cons_zero, List.map_cons, List.sum_cons]
      grind
    | succ i =>
      have := ih (i := i) (by simpa using h)
      simp only [List.set_cons_succ, List.map_cons, List.sum_cons]
      grind

theorem sum_map_concat {α : Type} (f : α → UInt64) (l : List α) (a : α) :
    ((l ++ [a]).map f).sum = (l.map f).sum + f a := by
  simp

/-- How a change at one key shows in a sum over keys. -/
theorem sum_map_update {f g : Key → UInt64} {k : Key} {l : List Key} (hl : l.Nodup) (hk : k ∈ l)
    (h : ∀ j, j ≠ k → g j = f j) : (l.map g).sum = (l.map f).sum + (g k - f k) := by
  induction l with
  | nil => simp at hk
  | cons j l ih =>
    rw [List.nodup_cons] at hl
    simp only [List.map_cons, List.sum_cons]
    by_cases hj : j = k
    · subst hj
      have hrest : l.map g = l.map f := by
        refine List.map_congr_left fun i hi => h i ?_
        rintro rfl
        exact hl.1 hi
      rw [hrest]
      grind
    · have hmem : k ∈ l := by
        rcases List.mem_cons.mp hk with e | hm
        · exact absurd e.symm hj
        · exact hm
      have := ih hl.2 hmem
      rw [h j hj]
      grind

end Weights

namespace Hub

/-- Only tickets that were given out before their outcome was known are waited for, and no ticket was
made by itself. -/
structure Patient (w : Hub) : Prop where
  loose : w.loose = []
  waited : ∀ k, ∀ t ∈ (w.shelf k).tickets, t.isWaiting = true → t.waited = true

/-- The hub gets heavier by this much. -/
structure Drifts (W : Weights) (d : UInt64) (w w' : Hub) : Prop where
  patient : w.Patient → w'.Patient
  weight : w.Patient → W.hub w' = W.hub w + d

variable {W : Weights} {d d' : UInt64} {w w' w'' : Hub} {k : Key}

namespace Drifts

theorem trans (h : Drifts W d w w') (h' : Drifts W d' w' w'') : Drifts W (d + d') w w'' := by
  refine ⟨fun hp => h'.patient (h.patient hp), fun hp => ?_⟩
  have hfirst := h.weight hp
  have hsecond := h'.weight (h.patient hp)
  grind

theorem cast (h : Drifts W d w w') (e : d = d') : Drifts W d' w w' := e ▸ h

/-- What concerns neither counters nor shelves has no weight. -/
theorem of_eq (counters : w'.counters = w.counters) (shelves : w'.shelves = w.shelves)
    (loose : w'.loose = w.loose) : Drifts W 0 w w' := by
  have hshelf : ∀ k, w'.shelf k = w.shelf k := fun k => by rw [shelf, shelves, shelf]
  refine ⟨fun hp => ⟨loose.trans hp.loose, fun k => ?_⟩, fun _ => ?_⟩
  · rw [hshelf]
    exact hp.waited k
  · simp only [Weights.hub, counters, shelves, hshelf, UInt64.add_zero]

theorem refl (W : Weights) (w : Hub) : Drifts W 0 w w := of_eq rfl rfl rfl

/-- A change without weight after another. -/
theorem light (h : Drifts W d w w') (h' : Drifts W 0 w' w'') : Drifts W d w w'' :=
  (h.trans h').cast (UInt64.add_zero d)

/-- A change after another without weight. -/
theorem after (h : Drifts W 0 w w') (h' : Drifts W d w' w'') : Drifts W d w w'' :=
  (h.trans h').cast (UInt64.zero_add d)

end Drifts

/-! ## Writes -/

theorem drifts_note (W : Weights) (w : Hub) (n : Notice) : Drifts W 0 w (w.note n) :=
  .of_eq rfl rfl rfl

theorem drifts_emit (W : Weights) (w : Hub) (e : Event) : Drifts W 0 w (w.emit e) :=
  .of_eq rfl rfl rfl

theorem drifts_countBy (W : Weights) (w : Hub) (c : Counter) (n : Nat) :
    Drifts W (W.counter c * UInt64.ofNat n) w (w.countBy c n) := by
  refine ⟨fun hp => ⟨hp.loose, hp.waited⟩, fun _ => ?_⟩
  change W.counters (w.counters.add c (UInt64.ofNat n)) + _ = _
  rw [W.counters_add, Weights.hub]
  change _ + (w.shelves.keys.map fun k => W.shelf (w.shelf k)).sum = _
  grind

theorem drifts_count (W : Weights) (w : Hub) (c : Counter) :
    Drifts W (W.counter c) w (w.count c) :=
  (drifts_countBy W w c 1).cast (by simp)

/-- A shelf that was never written weighs nothing. -/
theorem weight_empty (W : Weights) : W.shelf {} = 0 := by
  simp [Weights.shelf]

/-- A write on a shelf that lets nobody wait for a ticket settled from the start. -/
theorem drifts_onShelf (W : Weights) (w : Hub) (k : Key) {f : Shelf → Shelf}
    (waited : w.Patient → ∀ t ∈ (f (w.shelf k)).tickets, t.isWaiting = true → t.waited = true) :
    Drifts W (W.shelf (f (w.shelf k)) - W.shelf (w.shelf k)) w (w.onShelf k f) := by
  refine ⟨fun hp => ⟨hp.loose, fun j => ?_⟩, fun _ => ?_⟩
  · by_cases hj : j = k
    · subst hj
      rw [shelf_onShelf_self]
      exact waited hp
    · rw [shelf_onShelf_ne w hj]
      exact hp.waited j
  · have hne : ∀ j, j ≠ k → W.shelf ((w.onShelf k f).shelf j) = W.shelf (w.shelf j) :=
      fun j hj => by rw [shelf_onShelf_ne w hj]
    have hkeys : (w.onShelf k f).shelves.keys =
        if k ∈ w.shelves.keys then w.shelves.keys else w.shelves.keys ++ [k] :=
      Table.map_fst_put k _ _
    change W.counters w.counters + _ = W.counters w.counters + _ + _
    rw [hkeys]
    split
    · rename_i hk
      have hnodup : w.shelves.keys.Nodup := w.shelves.distinct
      rw [Weights.sum_map_update hnodup hk hne, shelf_onShelf_self, UInt64.add_assoc]
    · rename_i hk
      have hrest : (w.shelves.keys.map fun j => W.shelf ((w.onShelf k f).shelf j)) =
          w.shelves.keys.map fun j => W.shelf (w.shelf j) := by
        refine List.map_congr_left fun j hj => hne j ?_
        rintro rfl
        exact hk hj
      rw [Weights.sum_map_concat, hrest, shelf_onShelf_self, shelf_of_not_mem hk, weight_empty]
      grind

/-- A write on nothing but the places of handles has no weight. -/
theorem drifts_onPlaces (W : Weights) (w : Hub) (k : Key) {f : Shelf → Shelf}
    (h : ∃ v o, f (w.shelf k) = { w.shelf k with serving := v, orphaned := o }) :
    Drifts W 0 w (w.onShelf k f) := by
  obtain ⟨v, o, e⟩ := h
  refine (drifts_onShelf W w k fun hp => ?_).cast ?_
  · rw [e]
    exact hp.waited k
  · rw [e]
    exact UInt64.sub_self _

theorem drifts_setServing (W : Weights) (w : Hub) (k : Key) (h : Option HandleId) :
    Drifts W 0 w (w.setServing k h) :=
  drifts_onPlaces W w k ⟨h, _, rfl⟩

theorem drifts_forget (W : Weights) (w : Hub) (k : Key) (h : HandleId) :
    Drifts W 0 w (w.forget k h) := by
  unfold forget
  split
  · split
    · exact (drifts_setServing W w k none).light (drifts_note W _ _)
    · obtain ⟨o, e⟩ := (w.shelf k).dropOrphan_eq h
      exact drifts_onPlaces W w k ⟨_, o, e⟩
  · exact .refl W w

theorem drifts_unlink (W : Weights) (w : Hub) (k : Key) : Drifts W 0 w (w.unlink k) := by
  unfold unlink
  split
  · exact .refl W w
  · exact drifts_onPlaces W w k ⟨none, _, rfl⟩

theorem drifts_purge (W : Weights) (w : Hub) : Drifts W 0 w w.purge := by
  unfold purge
  generalize w.servedKeys = ks
  induction ks generalizing w with
  | nil => exact .refl W w
  | cons k ks ih =>
    refine Drifts.after ?_ (ih _)
    unfold purgeKey
    split
    · exact .refl W w
    · split
      · exact .refl W w
      · exact drifts_setServing W w k none

/-- A handle moves to another phase. -/
theorem drifts_setPhase (W : Weights) {h : HandleId} {p : Phase} (hp : w.phase h = p)
    (made : p ≠ .closed) (q : Phase) : Drifts W (W.phase q - W.phase p) w (w.setPhase h q) := by
  have hlt : h.index < (w.shelf h.key).phases.length := lt_of_phase_ne (by rw [hp]; exact made)
  have hfound : (w.shelf h.key).phases[h.index]? = some p := by
    rw [List.getElem?_eq_getElem hlt, ← hp, phase_eq, Shelf.phase_eq_getElem hlt]
  refine (drifts_onShelf W w h.key fun hp => hp.waited h.key).cast ?_
  simp only [Weights.shelf, Weights.sum_map_set W.phase hfound]
  grind

theorem drifts_addHandle (W : Weights) (w : Hub) (k : Key) (p : Phase) :
    Drifts W (W.phase p) w (w.addHandle k p) := by
  refine (drifts_onShelf W w k fun hp => hp.waited k).cast ?_
  simp only [Weights.shelf, Weights.sum_map_concat]
  grind

theorem drifts_addTicket (W : Weights) (w : Hub) (k : Key) {t : Ticket}
    (waited : t.isWaiting = true → t.waited = true) :
    Drifts W (W.ticket t) w (w.addTicket k t) := by
  refine (drifts_onShelf W w k fun hp t' ht' => ?_).cast ?_
  · rcases List.mem_append.mp ht' with hold | hnew
    · exact hp.waited k t' hold
    · rw [List.mem_singleton.mp hnew]
      exact waited
  · simp only [Weights.shelf, Weights.sum_map_concat]
    grind

/-- A ticket is replaced, which may depend on whether it was waited for. -/
theorem drifts_setTicket (W : Weights) {id : TicketId} {t t' : Ticket}
    (found : w.ticket? id = some t)
    (waited : (t.isWaiting = true → t.waited = true) → t'.isWaiting = true → t'.waited = true)
    (weight : (t.isWaiting = true → t.waited = true) → W.ticket t' = W.ticket t + d) :
    Drifts W d w (w.setTicket id t') := by
  cases id with
  | loose n =>
    have hnone : w.Patient → False := by
      intro hp
      rw [ticket?, hp.loose] at found
      simp at found
    exact ⟨fun hp => (hnone hp).elim, fun hp => (hnone hp).elim⟩
  | forKey k n =>
    rw [ticket?_eq] at found
    have hmem := List.mem_of_getElem? found
    have hdrifts := drifts_onShelf W w k (f := (·.setTicket n t')) fun hp u hu => by
      rcases List.mem_or_eq_of_mem_set hu with hold | rfl
      · exact hp.waited k u hold
      · exact waited (hp.waited k t hmem)
    refine ⟨hdrifts.patient, fun hp => (hdrifts.weight hp).trans ?_⟩
    have hd := weight (hp.waited k t hmem)
    have hset : W.shelf ((w.shelf k).setTicket n t') = W.shelf (w.shelf k) +
        (W.ticket t' - W.ticket t) := by
      simp only [Weights.shelf, Shelf.setTicket, Weights.sum_map_set W.ticket found]
      grind
    rw [hset, hd]
    grind

/-- A new creation is requested. -/
theorem drifts_addCreation (W : Weights) (w : Hub) (k : Key) (c : Creation) :
    Drifts W (W.creation c) w
      (w.onShelf k fun s => { s with creations := s.creations ++ [c] }) := by
  refine (drifts_onShelf W w k fun hp => hp.waited k).cast ?_
  simp only [Weights.shelf, Weights.sum_map_concat]
  grind

theorem drifts_onCreation (W : Weights) {id : LinkId} {c : Creation}
    (found : w.creation? id = some c) (f : Creation → Creation) :
    Drifts W (W.creation (f c) - W.creation c) w (w.onCreation id f) := by
  cases id with
  | brought name => contradiction
  | made k i =>
    change (w.shelf k).creations[i]? = some c at found
    refine (drifts_onShelf W w k fun hp => hp.waited k).cast ?_
    have hset : (w.shelf k).creations.modify i f = (w.shelf k).creations.set i (f c) := by
      rw [List.modify_eq_set_getElem?, found]
      rfl
    simp only [Weights.shelf, hset, Weights.sum_map_set W.creation found]
    grind

/-! ## Outcomes -/

theorem drifts_wake (W : Weights) (w : Hub) (id : TicketId) (sleeper : Option Sleeper) :
    Drifts W 0 w (w.wake id sleeper) := by
  unfold wake
  split
  · exact drifts_emit W w _
  · exact .refl W w
  · exact .refl W w

/-- A ticket that takes a link gets heavier. -/
theorem drifts_settle_ok (W : Weights) (w : Hub) (id : TicketId) (link : Link)
    (refund : Option Refund) :
    Drifts W (if (w.settle id (.ok link) refund).2 then W.served else 0) w
      (w.settle id (.ok link) refund).1 := by
  unfold settle
  cases ht : w.ticket? id with
  | none => exact .refl W w
  | some t =>
    cases hw : t.isWaiting with
    | false =>
      simp only [Option.bind_some, Ticket.settle_of_not_isWaiting hw]
      exact .refl W w
    | true =>
      obtain ⟨sleeper, hs⟩ := Ticket.isWaiting_iff.mp hw
      simp only [Option.bind_some, Ticket.settle_of_waiting hs, if_pos]
      refine (drifts_setTicket W ht (fun _ => ?_) fun hp => ?_).light (drifts_wake W _ _ _)
      · simp [Ticket.isWaiting]
      · have hwaited := hp hw
        simp [Weights.ticket, Ticket.isServed, Ticket.outcome?, hs, hwaited]

/-- A ticket that takes an error does not. -/
theorem drifts_settle_error (W : Weights) (w : Hub) (id : TicketId) (error : LinkError)
    (refund : Option Refund) : Drifts W 0 w (w.settle id (.error error) refund).1 := by
  unfold settle
  cases ht : w.ticket? id with
  | none => exact .refl W w
  | some t =>
    cases hw : t.isWaiting with
    | false =>
      simp only [Option.bind_some, Ticket.settle_of_not_isWaiting hw]
      exact .refl W w
    | true =>
      obtain ⟨sleeper, hs⟩ := Ticket.isWaiting_iff.mp hw
      simp only [Option.bind_some, Ticket.settle_of_waiting hs]
      refine (drifts_setTicket W ht (fun _ => ?_) fun _ => ?_).light (drifts_wake W _ _ _)
      · simp [Ticket.isWaiting]
      · simp [Weights.ticket, Ticket.isServed, Ticket.outcome?, hs]

theorem drifts_grant (W : Weights) (w : Hub) (h : HandleId) (link : Link) (ids : List TicketId) :
    Drifts W (UInt64.ofNat (w.grant h link ids).2 * W.served) w (w.grant h link ids).1 := by
  induction ids generalizing w with
  | nil => exact (Drifts.refl W w).cast (by simp [grant])
  | cons id ids ih =>
    refine ((drifts_settle_ok W w id link _).trans (ih _)).cast ?_
    simp only [grant]
    split
    · have hsucc : ∀ n : Nat, UInt64.ofNat (n + 1) = UInt64.ofNat n + 1 := by simp
      rw [hsucc]
      grind
    · exact UInt64.zero_add _

theorem drifts_refuse (W : Weights) (w : Hub) (error : LinkError) (ids : List TicketId) :
    Drifts W 0 w (w.refuse error ids) := by
  induction ids generalizing w with
  | nil => exact .refl W w
  | cons id ids ih => exact (drifts_settle_error W w id error _).light (ih _)

end Hub

end SharedLinks
