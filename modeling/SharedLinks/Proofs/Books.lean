import Mathlib.Algebra.GroupWithZero.Nat
import Mathlib.Data.List.Nodup
import SharedLinks.Proofs.Orderly

/-!
# The books of a key

`Shelf.total` counts the references that the handles of a key hold: those of the handle in service and
those of its orphans. `Shelf.taken` counts the tickets that hold a link, yielded or unclaimed. The law
of the books is `Turn.books` with `Arrival.books`: the two change alike, except that a release lowers
the total alone, and that a ticket which is dropped in vain lowers only the number of tickets.
-/

namespace SharedLinks

namespace Shelf

/-- How many references the handle in service and the orphans hold together. -/
def total (s : Shelf) : Nat :=
  (s.serving.map fun h => (s.phase h.index).refs).getD 0 +
    (s.orphans.map fun h => (s.phase h.index).refs).sum

/-- How many tickets hold one of these links, yielded or not. -/
def holding (s : Shelf) (p : Link → Bool) : Nat := s.tickets.countP fun t => t.held?.any p

/-- How many tickets hold a link. -/
def taken (s : Shelf) : Nat := s.holding fun _ => true

/-- How many tickets have yielded a link. -/
def yielded (s : Shelf) : Nat := s.tickets.countP Ticket.isYielded

/-- How many tickets hold a link that they have not yielded. -/
def unclaimed (s : Shelf) : Nat := s.tickets.countP Ticket.isUnclaimed

/-- How many references all handles hold that the key ever had. -/
def sumRefs (s : Shelf) : Nat := (s.phases.map Phase.refs).sum

/-! ## Sums -/

/-- How the replacement of a phase shows in the sum of references. -/
theorem sumRefs_setPhase {s : Shelf} {i : Nat} (h : i < s.phases.length) (p : Phase) :
    (s.setPhase i p).sumRefs + (s.phase i).refs = s.sumRefs + p.refs := by
  rw [phase_eq_getElem h]
  change ((s.phases.set i p).map Phase.refs).sum + _ = (s.phases.map Phase.refs).sum + _
  generalize s.phases = l at h
  induction l generalizing i with
  | nil => exact absurd h (Nat.not_lt_zero i)
  | cons q l ih =>
    cases i with
    | zero =>
      simp only [List.set_cons_zero, List.map_cons, List.sum_cons, List.getElem_cons_zero]
      omega
    | succ i =>
      have := ih (Nat.lt_of_succ_lt_succ h)
      simp only [List.set_cons_succ, List.map_cons, List.sum_cons, List.getElem_cons_succ]
      omega

/-- How the move of a handle from one phase to another shows in the sum of references. -/
theorem sumRefs_move {s : Shelf} {i : Nat} {p : Phase} (hp : s.phase i = p) (hc : p ≠ .closed)
    (q : Phase) : (s.setPhase i q).sumRefs + p.refs = s.sumRefs + q.refs := by
  subst hp
  exact sumRefs_setPhase (lt_of_phase_ne hc) q

/-- Members without weight may be left out of a sum. -/
theorem sum_map_filter {α : Type} (l : List α) (p : α → Bool) (f : α → Nat)
    (h : ∀ x, p x = false → f x = 0) : ((l.filter p).map f).sum = (l.map f).sum := by
  induction l with
  | nil => rfl
  | cons x l ih =>
    cases hx : p x with
    | true => simp [hx, ih]
    | false => simp [hx, h x hx, ih]

/-! ## Who holds references -/

/-- The handles that have a place on the shelf: the one in service and the orphans. -/
def kept (s : Shelf) : List HandleId := s.serving.toList ++ s.orphans

theorem total_eq_sum_kept (s : Shelf) :
    s.total = (s.kept.map fun h => (s.phase h.index).refs).sum := by
  unfold total kept
  rw [List.map_append, List.sum_append]
  congr 1
  cases s.serving <;> simp

/-- No references are counted exactly if none of the handles with a place holds one. -/
theorem total_eq_zero_iff (s : Shelf) :
    s.total = 0 ↔ ∀ hd ∈ s.kept, (s.phase hd.index).refs = 0 := by
  rw [total_eq_sum_kept, List.sum_eq_zero_iff_forall_eq_nat]
  simp

section

variable {k : Key} {s : Shelf}

/-- The handles with a place are those that have not come to their end. -/
theorem Placed.mem_kept_iff (h : s.Placed k) (hd : HandleId) :
    hd ∈ s.kept ↔ hd.key = k ∧ s.phase hd.index ≠ .closed := by
  unfold kept
  rw [List.mem_append, Option.mem_toList, h.serving_iff, h.mem_orphans_iff, ← and_or_left]
  cases hp : s.phase hd.index <;> simp [Phase.isOpen]

/-- No handle has two places. -/
theorem Placed.nodup_kept (h : s.Placed k) : s.kept.Nodup := by
  refine List.Nodup.append ?_ h.nodup ?_
  · cases s.serving <;> simp
  · intro hd hs ho
    have hopen := ((h.serving_iff hd).mp (by simpa using hs)).2
    obtain ⟨n, hn⟩ := ((h.mem_orphans_iff hd).mp ho).2
    simp [hn, Phase.isOpen] at hopen

/-- The handles with a place, by number, are those of the key that have not come to their end. -/
theorem Placed.kept_perm (h : s.Placed k) : (s.kept.map (·.index)).Perm
    ((List.range s.phases.length).filter fun i => s.phase i ≠ .closed) := by
  have hnodup : (s.kept.map (·.index)).Nodup := by
    refine h.nodup_kept.map_on ?_
    rintro ⟨key, i⟩ ha ⟨key', i'⟩ hb rfl
    rw [h.mem_kept_iff] at ha hb
    rw [show key = k from ha.1, show key' = k from hb.1]
  -- neither list has duplicates, so it is enough that they have the same members
  rw [List.perm_ext_iff_of_nodup hnodup (List.nodup_range.filter _)]
  intro i
  rw [List.mem_filter, List.mem_range, decide_eq_true_iff]
  constructor
  · intro hi
    obtain ⟨hd, hm, rfl⟩ := List.mem_map.mp hi
    have hne := ((h.mem_kept_iff hd).mp hm).2
    exact ⟨lt_of_phase_ne hne, hne⟩
  · rintro ⟨-, hne⟩
    exact List.mem_map.mpr ⟨⟨k, i⟩, (h.mem_kept_iff _).mpr ⟨rfl, hne⟩, rfl⟩

/-- What closed handles do not count in is counted by those with a place. -/
theorem Placed.sum_kept (h : s.Placed k) {f : Phase → Nat} (closed : f .closed = 0) :
    (s.kept.map fun hd => f (s.phase hd.index)).sum = (s.phases.map f).sum := by
  have hall : s.phases.map f = (List.range s.phases.length).map fun i => f (s.phase i) := by
    apply List.ext_getElem
    · simp
    · intro i h₁ h₂
      have hlt : i < s.phases.length := by simpa using h₁
      simp [phase_eq_getElem hlt]
  have hzero : ∀ i, decide (s.phase i ≠ .closed) = false → f (s.phase i) = 0 := by
    intro i hi
    rw [decide_eq_false_iff_not, not_not] at hi
    rw [hi, closed]
  rw [hall, ← sum_map_filter _ _ _ hzero, ← (h.kept_perm.map fun i => f (s.phase i)).sum_nat,
    List.map_map]
  rfl

/-- On a shelf that is in order, all references are held by the handle in service and the orphans. -/
theorem total_eq_sumRefs (h : s.Placed k) : s.total = s.sumRefs := by
  rw [total_eq_sum_kept]
  exact h.sum_kept rfl

end

/-! ## What a write does to the books -/

theorem sumRefs_congr {s s' : Shelf} (h : s'.phases = s.phases) : s'.sumRefs = s.sumRefs := by
  rw [sumRefs, h, sumRefs]

/-- A handle that is just opened holds no references. -/
theorem sumRefs_openHandle (s : Shelf) (k : Key) (queue : List TicketId) (c : Creation) :
    (s.openHandle k queue c).sumRefs = s.sumRefs := by
  change ((s.phases ++ [Phase.pending queue]).map Phase.refs).sum = _
  rw [List.map_append, List.sum_append]
  rfl

/-- Giving a reference back lowers the sum by one. -/
theorem sumRefs_giveBack (s : Shelf) (hd : HandleId) (h : 0 < (s.phase hd.index).refs) :
    (s.giveBack hd).sumRefs + 1 = s.sumRefs := by
  have hlt : hd.index < s.phases.length := by
    apply lt_of_phase_ne
    intro e
    rw [e] at h
    exact absurd h (Nat.lt_irrefl 0)
  have hset : ∀ p : Phase, p.refs + 1 = (s.phase hd.index).refs →
      (s.setPhase hd.index p).sumRefs + 1 = s.sumRefs := by
    intro p hp
    have := sumRefs_setPhase hlt p
    omega
  unfold giveBack
  split
  · rename_i hp
    exact hset _ (by rw [hp]; rfl)
  · rename_i hp
    exact hset _ (by rw [hp]; rfl)
  · rename_i hp
    rw [sumRefs_congr (phases_forget (s.setPhase hd.index .closed) hd)]
    exact hset _ (by rw [hp]; rfl)
  · rename_i hp
    rw [sumRefs_congr (phases_forget (s.setPhase hd.index .closed) hd)]
    exact hset _ (by rw [hp]; rfl)
  · -- a handle that takes nothing back counts no references
    rename_i hlive horphaned hone hone'
    exfalso
    cases hp : s.phase hd.index with
    | pending queue => simp [hp, Phase.refs] at h
    | closed => simp [hp, Phase.refs] at h
    | live link refs =>
      match refs with
      | 0 => simp [hp, Phase.refs] at h
      | 1 => exact hone link hp
      | n + 2 => exact hlive link n hp
    | orphaned refs =>
      match refs with
      | 0 => simp [hp, Phase.refs] at h
      | 1 => exact hone' hp
      | n + 2 => exact horphaned n hp

/-- A ticket that holds a link has yielded it or has it unclaimed. -/
theorem taken_eq (s : Shelf) : s.taken = s.yielded + s.unclaimed := by
  change s.tickets.countP _ = s.tickets.countP _ + s.tickets.countP _
  induction s.tickets with
  | nil => rfl
  | cons t l ih =>
    rw [List.countP_cons, List.countP_cons, List.countP_cons, ih]
    have hheld : (t.held?.any fun _ => true) = (t.isUnclaimed || t.isYielded) := by
      rw [← t.held?_isSome]
      cases t.held? <;> rfl
    rw [hheld]
    cases hu : t.isUnclaimed with
    | false =>
      simp only [Bool.false_or, Bool.false_eq_true, ↓reduceIte]
      omega
    | true =>
      have hy : t.isYielded = false := by
        obtain ⟨link, refund, hs⟩ := Ticket.isUnclaimed_iff.mp hu
        rw [Ticket.isYielded, hs]
      rw [hy]
      simp only [Bool.or_false, ↓reduceIte, Bool.false_eq_true]
      omega

theorem holding_congr {s s' : Shelf} (h : s'.tickets = s.tickets) (p : Link → Bool) :
    s'.holding p = s.holding p := by
  rw [holding, h, holding]

theorem holding_giveBack (s : Shelf) (hd : HandleId) (p : Link → Bool) :
    (s.giveBack hd).holding p = s.holding p :=
  holding_congr (tickets_giveBack s hd) p

theorem holding_addTicket (s : Shelf) (t : Ticket) (p : Link → Bool) :
    (s.addTicket t).holding p = s.holding p + if t.held?.any p then 1 else 0 := by
  change (s.tickets ++ [t]).countP _ = _
  rw [List.countP_append, List.countP_singleton]
  rfl

/-- A ticket whose owner does something to it holds the same link as before. -/
theorem holding_touch {s : Shelf} {n : Nat} {t t' : Ticket} (found : s.tickets[n]? = some t)
    (touched : t.state.Touch t'.state) (p : Link → Bool) :
    (s.setTicket n t').holding p = s.holding p := by
  have h := countP_setTicket found t' fun t => t.held?.any p
  rw [touched.held?_eq] at h
  exact Nat.add_right_cancel h

/-- A ticket that is dropped before it has yielded holds its link no more. -/
theorem holding_dropUnclaimed {s : Shelf} {n : Nat} {t : Ticket} {link : Link} {r : Option Refund}
    (found : s.tickets[n]? = some t) (unclaimed : t.state = .settled (.ok link) r)
    (p : Link → Bool) :
    (s.dropUnclaimed n t link).holding p + (if p link then 1 else 0) = s.holding p := by
  have h := countP_setTicket found { t with state := .dropped (some (.ok link)) }
    fun t => t.held?.any p
  have hold : t.held? = some link := by rw [Ticket.held?, unclaimed]
  rw [hold] at h
  exact h

/-- Everybody who waits takes a link that is offered to all. -/
theorem holding_settle_ok (s : Shelf) (link : Link) (refund : Option Refund) (p : Link → Bool) :
    (s.settle (.ok link) refund).holding p = s.holding p + if p link then s.waiting else 0 := by
  change (s.tickets.map _).countP _ =
    s.tickets.countP _ + if p link then s.tickets.countP _ else 0
  induction s.tickets with
  | nil => simp
  | cons t l ih =>
    rw [List.map_cons, List.countP_cons, List.countP_cons, List.countP_cons, ih]
    cases hw : t.isWaiting with
    | false =>
      rw [Ticket.accept_of_not_isWaiting hw, if_neg Bool.false_ne_true]
      split <;> omega
    | true =>
      have hnone : t.held? = none := by
        obtain ⟨sleeper, hs⟩ := Ticket.isWaiting_iff.mp hw
        rw [Ticket.held?, hs]
      have hsome : (t.accept (.ok link) refund).held? = some link := by
        rw [Ticket.accept_of_isWaiting hw, Ticket.held?]
      rw [hnone, hsome, Option.any_some, Option.any_none, if_pos rfl, if_neg Bool.false_ne_true]
      split <;> omega

theorem holding_settle_error (s : Shelf) (error : LinkError) (refund : Option Refund)
    (p : Link → Bool) : (s.settle (.error error) refund).holding p = s.holding p := by
  change (s.tickets.map _).countP _ = s.tickets.countP _
  rw [List.countP_map]
  apply List.countP_congr
  intro t _
  rw [Function.comp_apply]
  cases hw : t.isWaiting with
  | false => rw [Ticket.accept_of_not_isWaiting hw]
  | true =>
    obtain ⟨sleeper, hs⟩ := Ticket.isWaiting_iff.mp hw
    rw [Ticket.accept_of_isWaiting hw]
    simp [Ticket.held?, hs]

end Shelf

/-! ## The law of the books -/

/-- How many references a release gives back in a turn. -/
def Mark.given : Mark → Nat
  | .released => 1
  | .even | .asked | .stray | .torn => 0

/-- How many tickets lose their link in a turn without giving its reference back. -/
def Mark.lost : Mark → Nat
  | .stray => 1
  | .even | .asked | .released | .torn => 0

namespace Shelf

variable {k : Key} {s s' : Shelf} {mark : Mark}

/-- Whatever a turn does, references and tickets with a link change alike, releases and vain drops
aside. -/
theorem Turn.books (turn : Turn k s mark s') (h : s.Orderly k) :
    s'.total + mark.given + s.taken = s.total + s'.taken + mark.lost := by
  -- the sum over all handles, unlike the total, does not change when a handle moves its place
  rw [total_eq_sumRefs h.placed, total_eq_sumRefs (turn.placed h.placed)]
  cases turn with
  | rest => rfl
  | @hit i link refs live =>
    have hsum := sumRefs_move live (by simp) (.live link (refs + 1))
    have htaken := s.holding_addTicket (.ready (.ok link) (some (.handle ⟨k, i⟩))) fun _ => true
    rw [if_pos (by rfl)] at htaken
    simp only [Phase.refs] at hsum
    change (s.setPhase i (.live link (refs + 1))).sumRefs + 0 + s.holding _ =
      s.sumRefs + (s.addTicket _).holding _ + 0
    omega
  | @wait i queue pending =>
    have hsum := sumRefs_move pending (by simp) (.pending (queue ++ [.forKey k s.tickets.length]))
    have htaken := s.holding_addTicket .fresh fun _ => true
    rw [if_neg (by simp [Ticket.fresh, Ticket.held?])] at htaken
    simp only [Phase.refs] at hsum
    change (s.setPhase i (.pending (queue ++ [.forKey k s.tickets.length]))).sumRefs + 0 +
      s.holding _ = s.sumRefs + (s.addTicket _).holding _ + 0
    omega
  | enter =>
    rw [sumRefs_openHandle]
    change s.sumRefs + 0 + s.holding _ = s.sumRefs + (s.addTicket .fresh).holding _ + 0
    rw [holding_addTicket]
    rfl
  | touch found touched =>
    rw [taken, taken, holding_touch found touched]
    rfl
  | @refund n t link i found unclaimed held =>
    have hsum := (s.dropUnclaimed n t link).sumRefs_giveBack ⟨k, i⟩ held
    have htaken := holding_dropUnclaimed found unclaimed fun _ => true
    rw [if_pos rfl] at htaken
    rw [taken, taken, holding_giveBack]
    change _ + 0 + s.holding _ = s.sumRefs + _ + 0
    change _ = s.sumRefs at hsum
    omega
  | stray found unclaimed =>
    have htaken := holding_dropUnclaimed found unclaimed fun _ => true
    rw [if_pos rfl] at htaken
    change s.sumRefs + 0 + s.holding _ = s.sumRefs + Shelf.holding _ _ + 1
    omega
  | @releaseOrphan i oldest =>
    obtain ⟨-, n, hn⟩ := (h.placed.mem_orphans_iff _).mp (List.mem_of_head? oldest)
    have hpos : 0 < (s.phase i).refs := h.placed.refs_pos_of_ne (by simp [hn]) (by simp [hn])
    have hsum := s.sumRefs_giveBack ⟨k, i⟩ hpos
    rw [taken, taken, holding_giveBack]
    change _ + 1 + s.holding _ = s.sumRefs + s.holding _ + 0
    omega
  | @releaseLive i clear serving held =>
    have hsum := s.sumRefs_giveBack ⟨k, i⟩ held
    rw [taken, taken, holding_giveBack]
    change _ + 1 + s.holding _ = s.sumRefs + s.holding _ + 0
    omega
  | answer => rfl
  | @orphan i link refs serving live =>
    have hsum := sumRefs_move live (by simp) (.orphaned refs)
    simp only [Phase.refs] at hsum
    change (s.setPhase i (.orphaned refs)).sumRefs + 0 + s.taken = s.sumRefs + s.taken + 0
    omega
  | @dismiss i queue serving pending =>
    have hsum := sumRefs_move pending (by simp) .closed
    change (s.setPhase i .closed).sumRefs + 0 + s.taken = s.sumRefs + s.taken + 0
    simp only [Phase.refs] at hsum
    omega
  | @requeue i queue c serving pending =>
    have hsum := sumRefs_move pending (by simp) .closed
    rw [sumRefs_openHandle]
    simp only [Phase.refs] at hsum
    change (s.setPhase i .closed).sumRefs + 0 + s.taken = s.sumRefs + s.taken + 0
    omega

/-- A release lowers the total by one. -/
theorem Turn.total_of_released (turn : Turn k s .released s') (h : s.Orderly k) :
    s'.total + 1 = s.total := by
  have hbooks := turn.books h
  have htaken : s'.taken = s.taken := by
    cases turn with
    | releaseOrphan => exact holding_giveBack s _ _
    | releaseLive => exact holding_giveBack s _ _
  simp only [Mark.given, Mark.lost] at hbooks
  omega

/-- An arrival grants as many references as tickets. -/
theorem Arrival.books {i : Nat} {woken : List (Nat × Nat)} (arrival : Arrival k i s woken s')
    (h : s.Orderly k) : s'.total + s.taken = s.total + s'.taken := by
  rw [total_eq_sumRefs h.placed, total_eq_sumRefs (arrival.placed h.placed)]
  cases arrival with
  | @granted queue c pending found made wanted =>
    have hsum := sumRefs_move pending (by simp) (.live c.link s.waiting)
    have htaken := holding_settle_ok (s.markDelivered i) c.link (some (.handle ⟨k, i⟩)) fun _ => true
    rw [if_pos rfl] at htaken
    simp only [Phase.refs] at hsum
    change _ = s.holding _ + s.waiting at htaken
    change (s.setPhase i (.live c.link s.waiting)).sumRefs + s.holding _ =
      s.sumRefs + ((s.markDelivered i).settle _ _).holding _
    omega
  | unwanted pending =>
    have hsum := sumRefs_move pending (by simp) .closed
    simp only [Phase.refs] at hsum
    change (s.setPhase i .closed).sumRefs + s.taken = s.sumRefs + s.taken
    omega
  | failed pending =>
    have hsum := sumRefs_move pending (by simp) .closed
    rw [taken, taken, holding_settle_error]
    simp only [Phase.refs] at hsum
    change (s.setPhase i .closed).sumRefs + s.holding _ = s.sumRefs + s.holding _
    omega
  | late => rfl

/-- What a move does to the books of a key. -/
theorem Step.books {woken : List (Nat × Nat)} (step : Step k s mark woken s') (h : s.Orderly k) :
    s'.total + mark.given + s.taken = s.total + s'.taken + mark.lost := by
  obtain ⟨m, turn, ⟨rfl, -⟩ | ⟨i, arrival, -⟩⟩ := step
  · exact turn.books h
  · have hturn := turn.books h
    have harrival := arrival.books (turn.orderly h)
    omega

end Shelf

end SharedLinks
