import Mathlib.Data.List.Sort
import SharedLinks.Proofs.Runs
import SharedLinks.Proofs.Tickets

/-!
# Nobody who waits is lost

`Shelf.waiters` lists the tickets of a key that are waited for, in the order in which they were given
out. The queue of the pending handle is this list, dropped tickets aside (`queue_undropped`), however
often a teardown has moved it. `Step.resolved` says what a step does to those who wait: either nobody
gets an outcome, or the outcome of one creation reaches all of them at once.
-/

namespace SharedLinks

namespace Shelf

variable {k : Key} {s s' : Shelf} {i : Nat} {queue : List TicketId}

/-! ## Those who wait -/

/-- The ticket with this number is waited for. -/
def isWaiting (s : Shelf) (n : Nat) : Bool := (s.tickets[n]?).any Ticket.isWaiting

/-- The tickets that are waited for, in the order they were given out. -/
def waiters (s : Shelf) : List Nat := s.numbers Ticket.isWaiting

theorem isWaiting_iff {n : Nat} :
    s.isWaiting n = true ↔ ∃ t : Ticket, s.tickets[n]? = some t ∧ t.isWaiting = true := by
  unfold isWaiting
  rw [Option.any_eq_true]

theorem mem_waiters {n : Nat} : n ∈ s.waiters ↔ s.isWaiting n = true := by
  rw [waiters, mem_numbers, isWaiting_iff]

theorem waiters_sorted (s : Shelf) : s.waiters.Pairwise (· < ·) :=
  List.Pairwise.filter _ List.pairwise_lt_range

/-- The list is as long as the count of those who wait. -/
theorem length_waiters (s : Shelf) : s.waiters.length = s.waiting :=
  s.length_numbers Ticket.isWaiting

theorem isDropped_forKey (s : Shelf) (k : Key) (n : Nat) :
    s.isDropped (.forKey k n) = (s.tickets[n]?).any Ticket.isDropped := rfl

/-- The queue of the pending handle, dropped tickets aside, lists all who wait in the order of their
tickets. -/
theorem queue_undropped (h : s.Orderly k) (hp : s.phase i = .pending queue) :
    queue.filter (fun id => !s.isDropped id) = s.waiters.map (.forKey k) := by
  obtain ⟨ns, rfl, hsorted, hmem⟩ := h.queued.queue i queue hp
  rw [List.filter_map]
  congr 1
  refine (hsorted.filter _).eq_of_mem_iff (waiters_sorted s) fun n => ?_
  rw [List.mem_filter, mem_waiters, isWaiting_iff, Function.comp_apply, isDropped_forKey]
  constructor
  · rintro ⟨hn, hd⟩
    obtain ⟨t, ht, hout⟩ := hmem n hn
    refine ⟨t, ht, ?_⟩
    rw [ht, Option.any_some] at hd
    cases hs : t.state <;> simp_all [Ticket.outcome?, Ticket.isDropped, Ticket.isWaiting]
  · rintro ⟨t, ht, hw⟩
    refine ⟨by simpa using h.mem_queue hp ht hw, ?_⟩
    rw [ht, Option.any_some]
    obtain ⟨sleeper, hs⟩ := Ticket.isWaiting_iff.mp hw
    simp [Ticket.isDropped, hs]

/-- The polls that sleep on tickets, by ticket and number. -/
def sleepersOf (s : Shelf) (ns : List Nat) : List (Nat × Nat) :=
  ns.filterMap fun n => (s.tickets[n]?).bind fun t => t.sleeper?.map (n, ·)

/-- Who sleeps in the queue of the pending handle sleeps on a ticket that is waited for. -/
theorem sleepers_eq (h : s.Orderly k) (hp : s.phase i = .pending queue) :
    s.sleepers k queue = s.sleepersOf s.waiters := by
  have hqueue := queue_undropped h hp
  obtain ⟨ns, rfl, -, hmem⟩ := h.queued.queue i queue hp
  rw [List.filter_map] at hqueue
  have hns : ns.filter ((fun id => !s.isDropped id) ∘ (TicketId.forKey k)) = s.waiters :=
    List.map_injective_iff.mpr (fun a b e => by simpa using e) hqueue
  rw [← hns]
  unfold sleepers sleepersOf
  rw [List.filterMap_map, List.filterMap_filter]
  apply List.filterMap_congr
  intro n hn
  obtain ⟨t, ht, hout⟩ := hmem n hn
  simp only [Function.comp_apply, ↓reduceIte, isDropped_forKey, ht, Option.any_some, Option.bind_some]
  cases hs : t.state <;> simp_all [Ticket.outcome?, Ticket.isDropped, Ticket.sleeper?]

/-! ## Who gets an outcome in a step -/

/-- Those who wait, and those who have asked in between. -/
def askers (s s' : Shelf) : List Nat :=
  s.waiters ++ List.range' s.tickets.length (s'.tickets.length - s.tickets.length)

/-- Nobody is woken, and whoever waits still does, unless the ticket was dropped. -/
structure NoneResolved (s : Shelf) (woken : List (Nat × Nat)) (s' : Shelf) : Prop where
  woken : woken = []
  stays : ∀ (n : Nat) (t : Ticket), s.tickets[n]? = some t → t.isWaiting = true →
    ∃ t' : Ticket, s'.tickets[n]? = some t' ∧ (t'.isWaiting = true ∨ t'.state = .dropped none)

/-- The outcome of creation `i` has reached its handle, and with it all who waited. -/
structure AllResolved (k : Key) (i : Nat) (outcome : Outcome) (s : Shelf) (woken : List (Nat × Nat))
    (s' : Shelf) : Prop where
  /-- It had not been delivered before. -/
  fresh : ∀ c : Creation, s.creations[i]? = some c → c.delivered = false
  /-- Its handle was pending in the key's service, or has just been opened. -/
  owner : (s.serving = some ⟨k, i⟩ ∧ ∃ queue, s.phase i = .pending queue) ∨ s.phases.length ≤ i
  /-- A link is counted once for each who got it; a failure names the key and the cause. -/
  source : ∃ c : Creation, s'.creations[i]? = some c ∧ c.delivered = true ∧
    (c.making = .opened none ∧ outcome = .ok c.link ∧
        s'.phase i = (if s.askers s' = [] then .closed else .live c.link (s.askers s').length) ∨
      ∃ failure, c.making = .opened (some failure) ∧
        outcome = .error (.creation k (.message failure)) ∧ s'.phase i = .closed)
  /-- All who waited have got it. -/
  resolved : ∀ n ∈ s.askers s', ∃ (t : Ticket) (refund : Option Refund),
    s'.tickets[n]? = some t ∧ t.state = .settled outcome refund
  /-- Nothing happens to any other ticket. -/
  others : ∀ n, n ∉ s.askers s' → s'.tickets[n]? = s.tickets[n]?
  /-- Those who sleep are woken in the order in which they asked. -/
  woken : woken = s.sleepersOf (s.askers s')

variable {m : Shelf} {mark : Mark} {woken : List (Nat × Nat)} {ts : List Ticket}

/-- A ticket that is waited for stays so until its owner drops it. -/
theorem waits_of_changes {t t' : Ticket} (h : t.state.Changes t'.state) (hw : t.isWaiting = true) :
    t'.isWaiting = true ∨ t'.state = .dropped none := by
  obtain ⟨sleeper, hs⟩ := Ticket.isWaiting_iff.mp hw
  generalize hb : t'.state = b at h
  rw [hs] at h
  cases h with
  | touch touched => cases touched <;> simp [Ticket.isWaiting, hb]

/-- A turn settles no ticket that is waited for. -/
theorem Turn.noneResolved (turn : Turn k s mark s') : NoneResolved s [] s' := by
  refine ⟨rfl, fun n t ht hw => ?_⟩
  have hlt := (List.getElem?_eq_some_iff.mp ht).1
  rcases turn.tickets with ⟨-, h⟩ | ⟨-, j, u, u', found, changes, h⟩ | ⟨-, u, h, -⟩
  · exact ⟨t, by rw [h, ht], Or.inl hw⟩
  · rw [h, List.getElem?_set]
    split
    · rename_i e
      subst e
      obtain rfl := Option.some.inj (found.symm.trans ht)
      exact ⟨u', if_pos hlt, waits_of_changes changes hw⟩
    · exact ⟨t, ht, Or.inl hw⟩
  · exact ⟨t, by rw [h, List.getElem?_append_left hlt, ht], Or.inl hw⟩

/-- New tickets that are waited for stand behind all the others. -/
theorem waiters_append (htickets : m.tickets = s.tickets ++ ts) (hts : ∀ t ∈ ts, t = .fresh) :
    m.waiters = s.waiters ++ List.range' s.tickets.length ts.length := by
  unfold waiters numbers
  rw [htickets, List.length_append, List.range_add, List.filter_append,
    List.range'_eq_map_range, List.filter_map]
  congr 1
  · apply List.filter_congr
    intro n hn
    rw [List.getElem?_append_left (List.mem_range.mp hn)]
  · congr 1
    rw [List.filter_eq_self]
    intro n hn
    rw [List.mem_range] at hn
    rw [Function.comp_apply, List.getElem?_append_right (by omega),
      Nat.add_sub_cancel_left, List.getElem?_eq_getElem hn, Option.any_some,
      hts _ (List.getElem_mem hn)]
    rfl

/-- A ticket that is waited for takes an outcome that is offered to all. -/
theorem getElem?_settle_of_isWaiting {n : Nat} (h : s.isWaiting n = true) (outcome : Outcome)
    (refund : Option Refund) : ∃ t : Ticket, (s.settle outcome refund).tickets[n]? = some t ∧
      t.state = .settled outcome refund := by
  obtain ⟨t, ht, hw⟩ := isWaiting_iff.mp h
  refine ⟨t.accept outcome refund, ?_, ?_⟩
  · change (s.tickets.map _)[n]? = _
    rw [List.getElem?_map, ht]
    rfl
  · rw [Ticket.accept_of_isWaiting hw]

/-- Any other ticket stays as it is. -/
theorem getElem?_settle_of_not_isWaiting {n : Nat} (h : ¬ s.isWaiting n = true) (outcome : Outcome)
    (refund : Option Refund) : (s.settle outcome refund).tickets[n]? = s.tickets[n]? := by
  change (s.tickets.map _)[n]? = _
  rw [List.getElem?_map]
  cases ht : s.tickets[n]? with
  | none => rfl
  | some t =>
    have hw : t.isWaiting = false := by
      by_contra hw
      exact h (isWaiting_iff.mpr ⟨t, ht, by simpa using hw⟩)
    rw [Option.map_some, Ticket.accept_of_not_isWaiting hw]

/-- The outcome that reaches a pending handle reaches all who wait. -/
theorem Arrival.allResolved (arrival : Arrival k i m woken s') (h : m.Orderly k)
    (pending : m.phase i = .pending queue) (htickets : m.tickets = s.tickets ++ ts)
    (hts : ∀ t ∈ ts, t = .fresh)
    (fresh : ∀ c : Creation, s.creations[i]? = some c → c.delivered = false)
    (owner : (s.serving = some ⟨k, i⟩ ∧ ∃ queue, s.phase i = .pending queue) ∨
      s.phases.length ≤ i) : ∃ outcome, AllResolved k i outcome s woken s' := by
  have hwaiters : ∀ {u : Shelf}, u.tickets.length = m.tickets.length → s.askers u = m.waiters := by
    intro u hlen
    rw [askers, waiters_append htickets hts, hlen, htickets, List.length_append,
      Nat.add_sub_cancel_left]
  have hlt := lt_of_phase_ne (s := m) (i := i) (by simp [pending])
  have hmark : ∀ c : Creation, m.creations[i]? = some c →
      (m.markDelivered i).creations[i]? = some { c with delivered := true } := by
    intro c hc
    rw [markDelivered, getElem?_onCreation, if_pos rfl, hc]
    rfl
  -- nobody sleeps yet on a ticket that was given out in this very step
  have hsleep : m.sleepersOf m.waiters = s.sleepersOf m.waiters := by
    unfold sleepersOf
    apply List.filterMap_congr
    intro n _
    rw [htickets, List.getElem?_append]
    split
    · rfl
    · rename_i hn
      rw [List.getElem?_eq_none (by omega : s.tickets.length ≤ n)]
      cases ht : ts[n - s.tickets.length]? with
      | none => rfl
      | some t =>
        rw [hts t (List.mem_of_getElem? ht)]
        rfl
  have hold : ∀ n, n ∉ m.waiters → m.tickets[n]? = s.tickets[n]? := by
    intro n hn
    rw [htickets, List.getElem?_append]
    split
    · rfl
    · rename_i hge
      rw [List.getElem?_eq_none (by omega : s.tickets.length ≤ n), List.getElem?_eq_none_iff]
      by_contra hlt'
      have hmem : n ∈ m.waiters := by
        rw [waiters_append htickets hts, List.mem_append, List.mem_range'_1]
        omega
      exact hn hmem
  cases arrival with
  | @granted queue c pending found made wanted =>
    have hask := hwaiters (u := ((m.markDelivered i).settle (.ok c.link)
      (some (.handle ⟨k, i⟩))).setPhase i (.live c.link m.waiting)) (List.length_map _)
    refine ⟨.ok c.link, fresh, owner, ⟨_, hmark c found, rfl, Or.inl ⟨made, rfl, ?_⟩⟩, ?_, ?_, ?_⟩
    · rw [hask, phase_setPhase_self (s := (m.markDelivered i).settle _ _) hlt, length_waiters,
        if_neg]
      intro e
      rw [← length_waiters, e] at wanted
      exact absurd wanted (Nat.lt_irrefl 0)
    · intro n hn
      rw [hask, mem_waiters] at hn
      obtain ⟨t, ht, hs⟩ := getElem?_settle_of_isWaiting hn (.ok c.link) (some (.handle ⟨k, i⟩))
      exact ⟨t, _, ht, hs⟩
    · intro n hn
      rw [hask] at hn
      refine (getElem?_settle_of_not_isWaiting (s := m) ?_ (.ok c.link) _).trans (hold n hn)
      rwa [← mem_waiters]
    · rw [hask, ← hsleep]
      exact sleepers_eq h pending
  | @unwanted queue c pending found made gone =>
    have hnone : m.waiters = [] := List.eq_nil_of_length_eq_zero ((length_waiters m).trans gone)
    have hask := hwaiters (u := ((m.markDelivered i).setPhase i .closed).serve none) rfl
    rw [hnone] at hask
    refine ⟨.ok c.link, fresh, owner, ⟨_, hmark c found, rfl, Or.inl ⟨made, rfl, ?_⟩⟩, ?_, ?_, ?_⟩
    · rw [hask, if_pos rfl, phase_serve, phase_setPhase_self (s := m.markDelivered i) hlt]
    · rw [hask]
      simp
    · intro n _
      exact hold n (by simp [hnone])
    · rw [hask]
      rfl
  | @failed queue c failure pending found made =>
    have hask := hwaiters (u := (((m.markDelivered i).setPhase i .closed).serve none).settle
      (.error (.creation k (.message failure))) none) (List.length_map _)
    refine ⟨.error (.creation k (.message failure)), fresh, owner,
      ⟨_, hmark c found, rfl, Or.inr ⟨failure, made, rfl, ?_⟩⟩, ?_, ?_, ?_⟩
    · rw [phase_settle, phase_serve, phase_setPhase_self (s := m.markDelivered i) hlt]
    · intro n hn
      rw [hask, mem_waiters] at hn
      obtain ⟨t, ht, hs⟩ := getElem?_settle_of_isWaiting hn
        (.error (.creation k (.message failure))) none
      exact ⟨t, _, ht, hs⟩
    · intro n hn
      rw [hask] at hn
      refine (getElem?_settle_of_not_isWaiting (s := m) ?_ (.error _) none).trans (hold n hn)
      rwa [← mem_waiters]
    · rw [hask, ← hsleep]
      exact sleepers_eq h pending
  | late closed =>
    rw [pending] at closed
    contradiction

/-- In a step either nobody who waits gets an outcome, or the outcome of one creation reaches all of
them. -/
theorem Step.resolved (step : Step k s mark woken s') (h : s.Orderly k) :
    NoneResolved s woken s' ∨ ∃ i outcome, AllResolved k i outcome s woken s' := by
  obtain ⟨m, turn, ⟨rfl, rfl⟩ | ⟨i, arrival, rfl | ⟨hs, hi⟩⟩⟩ := step
  · exact Or.inl turn.noneResolved
  · by_cases hp : ∃ queue, m.phase i = .pending queue
    · obtain ⟨queue, hp⟩ := hp
      refine Or.inr ⟨i, arrival.allResolved h hp (List.append_nil m.tickets).symm (by simp) ?_
        (Or.inl ⟨h.placed.serving_of_pending hp, queue, hp⟩)⟩
      exact fun c hc => h.recorded.undelivered_of_pending hp hc
    · cases arrival with
      | granted pending => exact absurd ⟨_, pending⟩ hp
      | unwanted pending => exact absurd ⟨_, pending⟩ hp
      | failed pending => exact absurd ⟨_, pending⟩ hp
      | late => exact Or.inl ⟨rfl, fun n t ht hw => ⟨t, ht, Or.inl hw⟩⟩
  · obtain ⟨⟨queue, hp⟩, -, ts, htickets, hts⟩ := turn.opened h hs hi
    refine Or.inr ⟨i, arrival.allResolved (turn.orderly h) hp htickets hts ?_ (Or.inr hi)⟩
    intro c hc
    have hlt := (List.getElem?_eq_some_iff.mp hc).1
    rw [h.recorded.length] at hlt
    omega

/-- When the creation of the pending handle is delivered, its outcome reaches all who wait. -/
theorem Step.resolved_of_delivered (step : Step k s mark woken s') (h : s.Orderly k)
    (hp : s.phase i = .pending queue) {c : Creation} (hc : s'.creations[i]? = some c)
    (hd : c.delivered = true) : ∃ outcome, AllResolved k i outcome s woken s' := by
  obtain ⟨c₀, hc₀⟩ := h.recorded.exists_creation (i := i) (by simp [hp])
  have hfresh := h.recorded.undelivered_of_pending hp hc₀
  have hkept : ∀ {s₁ : Shelf}, s.Keeps s₁ i → s₁.creations[i]? = some c → False := by
    intro s₁ hk h₁
    obtain ⟨c₁, hc₁, -, hd₁⟩ := hk c₀ hc₀
    obtain rfl := Option.some.inj (hc₁.symm.trans h₁)
    rw [hd₁, hfresh] at hd
    contradiction
  have hlt : i < s.phases.length := lt_of_phase_ne (by simp [hp])
  obtain ⟨m, turn, ⟨rfl, -⟩ | ⟨j, arrival, hm⟩⟩ := step
  · exact (hkept (turn.keeps i) hc).elim
  · by_cases hj : i = j
    · subst hj
      rcases hm with rfl | ⟨-, hi⟩
      · refine arrival.allResolved h hp (List.append_nil m.tickets).symm (by simp) ?_
          (Or.inl ⟨h.placed.serving_of_pending hp, queue, hp⟩)
        exact fun c hc => h.recorded.undelivered_of_pending hp hc
      · omega
    · obtain ⟨c₁, hc₁, -, hd₁⟩ := turn.keeps i c₀ hc₀
      obtain ⟨c₂, hc₂, -, hd₂⟩ := arrival.keeps hj c₁ hc₁
      obtain rfl := Option.some.inj (hc₂.symm.trans hc)
      rw [hd₂, hd₁, hfresh] at hd
      contradiction

/-! ## Tickets are given out in order -/

/-- How many tickets a turn gives out. -/
theorem Turn.length_tickets (turn : Turn k s mark s') :
    s'.tickets.length = s.tickets.length + if mark = .asked then 1 else 0 := by
  rcases turn.tickets with ⟨hm, h⟩ | ⟨hm, j, t, t', -, -, h⟩ | ⟨hm, t, h, -⟩
  · rw [h, if_neg hm, Nat.add_zero]
  · rw [h, if_neg hm, List.length_set, Nat.add_zero]
  · rw [h, if_pos hm, List.length_append, List.length_singleton]

theorem Arrival.length_tickets (arrival : Arrival k i s woken s') :
    s'.tickets.length = s.tickets.length := by
  rcases arrival.tickets with h | ⟨outcome, refund, h, -⟩
  · rw [h]
  · rw [h, List.length_map]

theorem Step.length_tickets (step : Step k s mark woken s') :
    s'.tickets.length = s.tickets.length + if mark = .asked then 1 else 0 := by
  obtain ⟨m, turn, ⟨rfl, -⟩ | ⟨i, arrival, -⟩⟩ := step
  · exact turn.length_tickets
  · rw [arrival.length_tickets, turn.length_tickets]

end Shelf

namespace Hub

variable {w : Hub} {k : Key}

/-- Asking for a link gives the next ticket of the key. -/
theorem acquire_ticket (orderly : (w.shelf k).Orderly k) :
    (w.acquire k).2 = .forKey k (w.shelf k).tickets.length := by
  unfold acquire
  simp only
  rw [show (w.count .acquires).serving k = (w.shelf k).serving from rfl]
  cases hs : (w.shelf k).serving with
  | none => rfl
  | some h =>
    obtain ⟨rfl, -⟩ := (orderly.placed.serving_iff h).mp hs
    obtain ⟨key, i⟩ := h
    have hj := (join_turned (w := w.count .acquires) orderly hs).2
    simp only
    split
    · rename_i w' id hjoin
      rw [hjoin] at hj
      exact Option.some.inj hj
    · rename_i w' hjoin
      rw [hjoin] at hj
      contradiction

/-- There are as many tickets of a key as calls that have asked for its link. -/
theorem length_tickets_play (h : w.Sound) (hnone : (w.shelf k).tickets = []) {ms : List Move}
    (held : 0 < (w.play ms).clones) :
    ((w.play ms).shelf k).tickets.length = ms.count (.acquire k) := by
  induction ms using List.reverseRecOn with
  | nil => exact congrArg List.length hnone
  | append_singleton ms m ih =>
    rw [play_concat] at held ⊢
    have hc := clones_of_move held
    have hheld := isHeld_of_clones hc
    obtain ⟨woken, hstep, -⟩ := (move_moves (h.play hheld) hheld m).step k
    rw [hstep.length_tickets, ih hc, List.count_append, List.count_singleton]
    congr 1
    by_cases hm : m = .acquire k
    · subst hm
      rw [mark_acquire hc, if_pos rfl, if_pos (by simp)]
    · have hne : (w.play ms).mark m k ≠ .asked := by
        intro e
        rcases (w.play ms).mark_cases m k with h | ⟨-, h⟩ | ⟨h, -⟩ | ⟨h, -⟩ | ⟨h, -⟩ <;> simp_all
      rw [if_neg hne, if_neg (by simpa using hm)]

/-- What the queues of a hub have to do with those who wait for a link of the key. -/
structure QueuesWaiters (w : Hub) (k : Key) : Prop where
  /-- Whoever waits has one place, in the queue of the pending handle in the key's service. -/
  place : ∀ n, (w.shelf k).isWaiting n = true → ∃ i queue, w.serving k = some ⟨k, i⟩ ∧
    w.phase ⟨k, i⟩ = .pending queue ∧ queue.count (.forKey k n) = 1 ∧
      ∀ h queue', w.phase h = .pending queue' → .forKey k n ∈ queue' → h = ⟨k, i⟩
  /-- The queue lists all who wait in the order in which they have asked. -/
  order : ∀ i queue, w.phase ⟨k, i⟩ = .pending queue →
    queue.filter (fun id => !w.isDropped id) = (w.shelf k).waiters.map (.forKey k)
  /-- Whoever has an outcome is in no queue. -/
  resolved : ∀ (n : Nat) (t : Ticket), (w.shelf k).tickets[n]? = some t → t.outcome?.isSome = true →
    ∀ h queue, w.phase h = .pending queue → .forKey k n ∉ queue

theorem Sound.queuesWaiters (h : w.Sound) (k : Key) : w.QueuesWaiters k := by
  have hown : ∀ {hd : HandleId} {queue : List TicketId} {n : Nat}, w.phase hd = .pending queue →
      .forKey k n ∈ queue → hd.key = k ∧
        ∃ t : Ticket, (w.shelf k).tickets[n]? = some t ∧ t.outcome? = none := by
    intro hd queue n hp hm
    obtain ⟨ns, rfl, -, hmem⟩ := (h.orderly hd.key).queued.queue hd.index queue hp
    obtain ⟨n', hn', e⟩ := List.mem_map.mp hm
    injection e with hk hn
    subst hn
    rw [← hk]
    exact ⟨rfl, hmem n' hn'⟩
  refine ⟨fun n hw => ?_, fun i queue hp => ?_, fun n t ht ho hd queue hp hm => ?_⟩
  · obtain ⟨t, ht, hw⟩ := Shelf.isWaiting_iff.mp hw
    obtain ⟨i, queue, hp, hm⟩ := (h.orderly k).queued.waiting n t ht hw
    refine ⟨i, queue, (h.orderly k).placed.serving_of_pending hp, hp, ?_, ?_⟩
    · obtain ⟨ns, rfl, hsorted, -⟩ := (h.orderly k).queued.queue i queue hp
      have hnodup : ns.Nodup := hsorted.imp Nat.ne_of_lt
      exact List.count_eq_one_of_mem (hnodup.map fun a b e => by simpa using e) hm
    · intro hd queue' hp' hm'
      obtain ⟨key, i'⟩ := hd
      obtain rfl : key = k := (hown hp' hm').1
      exact congrArg (HandleId.mk key) ((h.orderly key).eq_of_pending hp' hp)
  · rw [(h.orderly k).queued.filter_isDropped hp rfl]
    exact Shelf.queue_undropped (h.orderly k) hp
  · obtain ⟨-, t', ht', hnone⟩ := hown hp hm
    obtain rfl := Option.some.inj (ht.symm.trans ht')
    rw [hnone] at ho
    contradiction

/-- Nobody who waits for a link is lost, doubled or overtaken. In every state that a hub can reach
while a caller holds it, each of those who wait has one place in the queue of the key's pending handle,
and the queue is in the order of their calls. In the next move either nobody of them gets an outcome,
or all of them get that of one creation; and they do if the creation of the pending handle is
delivered. -/
theorem waiters_play {settings : Settings} {seed : UInt64} {ambient : Option Dispatch} {w₀ : Hub}
    (built : settings.build seed ambient = .ok w₀) (ms : List Move)
    (held : 0 < (w₀.play ms).clones) (k : Key) :
    (w₀.play ms).QueuesWaiters k ∧
      (∀ a b, ms = a ++ .acquire k :: b →
        ((w₀.play a).acquire k).2 = .forKey k (a.count (.acquire k))) ∧
      ∀ m, ∃ woken, ((w₀.play ms).move m).wakes k = (w₀.play ms).wakes k ++ woken ∧
        (((w₀.play ms).shelf k).NoneResolved woken (((w₀.play ms).move m).shelf k) ∨
          ∃ i outcome, ((w₀.play ms).shelf k).AllResolved k i outcome woken
            (((w₀.play ms).move m).shelf k)) ∧
        ∀ i queue (c : Creation), (w₀.play ms).phase ⟨k, i⟩ = .pending queue →
          (((w₀.play ms).move m).shelf k).creations[i]? = some c → c.delivered = true →
            ∃ outcome, ((w₀.play ms).shelf k).AllResolved k i outcome woken
              (((w₀.play ms).move m).shelf k) := by
  have hsound := sound_build built
  have hheld := isHeld_of_clones held
  have hnow := hsound.play hheld
  refine ⟨hnow.queuesWaiters k, ?_, fun m => ?_⟩
  · rintro a b rfl
    have ha : 0 < (w₀.play a).clones := by
      rw [play_append] at held
      exact clones_of_play held
    have hnone : (w₀.shelf k).tickets = [] := by rw [shelf_build built]
    rw [acquire_ticket ((hsound.play (isHeld_of_clones ha)).orderly k),
      length_tickets_play hsound hnone ha]
  · obtain ⟨woken, hstep, hwakes⟩ := (move_moves hnow hheld m).step k
    refine ⟨woken, hwakes, hstep.resolved (hnow.orderly k), ?_⟩
    intro i queue c hp hc hd
    exact hstep.resolved_of_delivered (hnow.orderly k) hp hc hd

/-- A link is asked for twice, and a teardown begins before it is created. -/
def askTwice : List Move := [.acquire sampleKey, .acquire sampleKey, .tearDown, .pollTeardown 0 []]

/-- Both wait in the queue of a fresh handle, and both get the outcome of its creation. -/
theorem waiters_play_askTwice : 0 < (sample.play askTwice).clones ∧
    (sample.play askTwice).phase ⟨sampleKey, 1⟩ =
      .pending [.forKey sampleKey 0, .forKey sampleKey 1] ∧
    (sample.play askTwice).QueuesWaiters sampleKey ∧
    ∃ woken outcome, ((sample.play askTwice).shelf sampleKey).AllResolved sampleKey 1 outcome woken
      (((sample.play askTwice).move (.runJob ⟨.made sampleKey 1, .create⟩)).shelf sampleKey) := by
  have hheld : 0 < (sample.play askTwice).clones := by decide
  have hqueue : (sample.play askTwice).phase ⟨sampleKey, 1⟩ =
      .pending [.forKey sampleKey 0, .forKey sampleKey 1] := by decide
  have hany : ((((sample.play askTwice).move (.runJob ⟨.made sampleKey 1, .create⟩)).shelf
      sampleKey).creations[1]?).any Creation.delivered = true := by decide
  obtain ⟨c, hc, hd⟩ := (Option.any_eq_true _ _).mp hany
  obtain ⟨hqueues, -, hmove⟩ := waiters_play build_sample askTwice hheld sampleKey
  obtain ⟨woken, -, -, hdelivered⟩ := hmove (.runJob ⟨.made sampleKey 1, .create⟩)
  obtain ⟨outcome, hall⟩ := hdelivered 1 _ c hqueue hc hd
  exact ⟨hheld, hqueue, hqueues, woken, outcome, hall⟩

end Hub

end SharedLinks
