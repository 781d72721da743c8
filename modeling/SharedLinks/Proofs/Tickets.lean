import Mathlib.Data.List.Induction
import Mathlib.Data.List.Perm.Subperm
import SharedLinks.Proofs.Orderly

/-!
# The life of a ticket

A turn leaves all tickets alone, or its owner changes one of them, or it gives one out
(`Turn.tickets`); an arrival leaves them alone, or offers its outcome to all of them
(`Arrival.tickets`). So what a ticket was settled with lasts, and a link that it has yielded stays
yielded (`Step.ages`). A ticket gets its link from the handle in service, and from no other
(`Turn.grants`, `Arrival.grants`).
-/

namespace SharedLinks

/-- What its owner can make of a ticket. -/
inductive TicketState.Changes : TicketState → TicketState → Prop where
  /-- No reference is concerned. -/
  | touch {a b : TicketState} (touched : a.Touch b) : Changes a b
  /-- The ticket is dropped with a link that it has not yielded. -/
  | forfeit (link : Link) (refund : Option Refund) :
      Changes (.settled (.ok link) refund) (.dropped (some (.ok link)))

namespace Ticket

/-- What lasts in the life of a ticket. -/
structure Ages (t t' : Ticket) : Prop where
  /-- Its outcome. -/
  outcome : ∀ outcome, t.outcome? = some outcome → t'.outcome? = some outcome
  /-- That it has yielded a link. -/
  yielded : t.isYielded = true → t'.isYielded = true

theorem Ages.refl (t : Ticket) : t.Ages t := ⟨fun _ => id, id⟩

theorem Ages.trans {t t' t'' : Ticket} (h : t.Ages t') (h' : t'.Ages t'') : t.Ages t'' :=
  ⟨fun o ho => h'.outcome o (h.outcome o ho), fun hy => h'.yielded (h.yielded hy)⟩

theorem ages_of_changes {t t' : Ticket} (h : t.state.Changes t'.state) : t.Ages t' := by
  generalize ha : t.state = a at h
  generalize hb : t'.state = b at h
  cases h with
  | touch touched => cases touched <;> constructor <;> simp_all [outcome?, isYielded]
  | forfeit => constructor <;> simp [outcome?, isYielded, ha, hb]

/-- No owner can give a ticket a link. -/
theorem held?_of_changes {t t' : Ticket} (h : t.state.Changes t'.state) {link : Link}
    (hl : t'.held? = some link) : t.held? = some link := by
  generalize ha : t.state = a at h
  generalize hb : t'.state = b at h
  cases h with
  | touch touched =>
    have hsame : t'.held? = t.held? := TicketState.Touch.held?_eq (by rwa [ha, hb])
    rwa [← hsame]
  | forfeit => simp [held?, hb] at hl

theorem ages_accept (t : Ticket) (outcome : Outcome) (refund : Option Refund) :
    t.Ages (t.accept outcome refund) := by
  cases hw : t.isWaiting with
  | false =>
    rw [accept_of_not_isWaiting hw]
    exact .refl t
  | true =>
    have hnone := outcome?_of_isWaiting hw
    have hy : t.isYielded = false := by
      obtain ⟨sleeper, hs⟩ := isWaiting_iff.mp hw
      rw [isYielded, hs]
    refine ⟨fun o ho => ?_, fun h => ?_⟩
    · rw [hnone] at ho
      contradiction
    · rw [hy] at h
      contradiction

end Ticket

namespace Shelf

variable {k : Key} {s s' s'' m : Shelf} {mark : Mark} {i : Nat} {woken : List (Nat × Nat)}
  {n : Nat} {link : Link}

/-! ## Tickets by number -/

/-- The link that a ticket holds a reference on. -/
def held? (s : Shelf) (n : Nat) : Option Link := (s.tickets[n]?).bind Ticket.held?

/-- The numbers of the tickets with this property, in the order they were given out. -/
def numbers (s : Shelf) (p : Ticket → Bool) : List Nat :=
  (List.range s.tickets.length).filter fun n => (s.tickets[n]?).any p

theorem held?_eq_some_iff : s.held? n = some link ↔
    ∃ t : Ticket, s.tickets[n]? = some t ∧ t.held? = some link :=
  Option.bind_eq_some_iff

theorem mem_numbers {p : Ticket → Bool} :
    n ∈ s.numbers p ↔ ∃ t : Ticket, s.tickets[n]? = some t ∧ p t = true := by
  rw [numbers, List.mem_filter, List.mem_range, Option.any_eq_true, and_iff_right_of_imp]
  rintro ⟨t, ht, -⟩
  exact (List.getElem?_eq_some_iff.mp ht).1

theorem nodup_numbers (s : Shelf) (p : Ticket → Bool) : (s.numbers p).Nodup :=
  List.nodup_range.filter _

/-- There are as many numbers as tickets. -/
theorem length_numbers (s : Shelf) (p : Ticket → Bool) :
    (s.numbers p).length = s.tickets.countP p := by
  have hcount : ∀ l : List Ticket,
      ((List.range l.length).filter fun n => (l[n]?).any p).length = l.countP p := by
    intro l
    induction l using List.reverseRecOn with
    | nil => rfl
    | append_singleton l t ih =>
      have hold : (List.range l.length).filter (fun n => ((l ++ [t])[n]?).any p) =
          (List.range l.length).filter fun n => (l[n]?).any p := by
        apply List.filter_congr
        intro n hn
        rw [List.getElem?_append_left (List.mem_range.mp hn)]
      rw [List.length_append, List.length_singleton, List.range_succ, List.filter_append,
        List.length_append, List.countP_append, hold, ih, List.countP_singleton,
        List.filter_singleton, List.getElem?_concat_length, Option.any_some]
      split <;> simp_all
  exact hcount s.tickets

theorem held?_congr (h : s'.tickets = s.tickets) (n : Nat) : s'.held? n = s.held? n := by
  rw [held?, h, held?]

/-- A ticket that is given out comes after the others. -/
theorem held?_append {t : Ticket} (h : s'.tickets = s.tickets ++ [t]) (n : Nat) :
    s'.held? n = if n = s.tickets.length then t.held? else s.held? n := by
  rw [held?, h, held?, List.getElem?_append]
  split
  · rw [if_neg (by omega)]
  · split
    · rename_i hn
      rw [hn, Nat.sub_self]
      rfl
    · rw [List.getElem?_eq_none (by simp; omega), List.getElem?_eq_none (by omega)]

/-- A ticket that is replaced is the only one that changes. -/
theorem held?_set {t t' : Ticket} {j : Nat} (found : s.tickets[j]? = some t)
    (h : s'.tickets = s.tickets.set j t') (n : Nat) :
    s'.held? n = if n = j then t'.held? else s.held? n := by
  rw [held?, h, held?, List.getElem?_set]
  split
  · rename_i e
    rw [if_pos e.symm, if_pos (e ▸ (List.getElem?_eq_some_iff.mp found).1)]
    rfl
  · rename_i hne
    rw [if_neg (Ne.symm hne)]

/-! ## The tickets in a turn -/

/-- The handle in service has established this link. -/
def Serves (s : Shelf) (link : Link) : Prop := ∃ i refs, s.phase i = .live link refs

/-- A turn leaves all tickets alone, or its owner changes one of them, or it gives one out. A ticket
that holds a link from the start has it from the handle in service. -/
theorem Turn.tickets (turn : Turn k s mark s') :
    (mark ≠ .asked ∧ s'.tickets = s.tickets) ∨
      (mark ≠ .asked ∧ ∃ (n : Nat) (t t' : Ticket), s.tickets[n]? = some t ∧
        t.state.Changes t'.state ∧ s'.tickets = s.tickets.set n t') ∨
      (mark = .asked ∧ ∃ t : Ticket, s'.tickets = s.tickets ++ [t] ∧
        ∀ link, t.held? = some link → s'.Serves link) := by
  cases turn with
  | rest => exact Or.inl ⟨by simp, rfl⟩
  | @hit i link refs live =>
    refine Or.inr (Or.inr ⟨rfl, _, rfl, fun link' hl => ⟨i, refs + 1, ?_⟩⟩)
    have hlt : i < s.phases.length := lt_of_phase_ne (by simp [live])
    obtain rfl : link = link' := Option.some.inj hl
    rw [phase_setPhase_self (s := s.addTicket _) hlt]
  | wait => exact Or.inr (Or.inr ⟨rfl, .fresh, rfl, by simp [Ticket.fresh, Ticket.held?]⟩)
  | enter => exact Or.inr (Or.inr ⟨rfl, .fresh, rfl, by simp [Ticket.fresh, Ticket.held?]⟩)
  | touch found touched => exact Or.inr (Or.inl ⟨by simp, _, _, _, found, .touch touched, rfl⟩)
  | @refund n t link i found unclaimed =>
    refine Or.inr (Or.inl ⟨by simp, n, t, _, found, ?_, tickets_giveBack (s.dropUnclaimed n t link) _⟩)
    rw [unclaimed]
    exact .forfeit link _
  | @stray n t link i found unclaimed =>
    refine Or.inr (Or.inl ⟨by simp, n, t, _, found, ?_, rfl⟩)
    rw [unclaimed]
    exact .forfeit link _
  | releaseOrphan => exact Or.inl ⟨by simp, tickets_giveBack s _⟩
  | releaseLive => exact Or.inl ⟨by simp, tickets_giveBack s _⟩
  | answer => exact Or.inl ⟨by simp, rfl⟩
  | orphan => exact Or.inl ⟨by simp, rfl⟩
  | dismiss => exact Or.inl ⟨by simp, rfl⟩
  | requeue => exact Or.inl ⟨by simp, rfl⟩

/-- An arrival leaves all tickets alone, or offers its outcome to all of them. A link that it offers is
that of the handle in service. -/
theorem Arrival.tickets (arrival : Arrival k i s woken s') : s'.tickets = s.tickets ∨
    ∃ (outcome : Outcome) (refund : Option Refund),
      s'.tickets = s.tickets.map (·.accept outcome refund) ∧
        ∀ link, outcome = .ok link → s'.Serves link := by
  cases arrival with
  | @granted queue c pending found made wanted =>
    refine Or.inr ⟨.ok c.link, some (.handle ⟨k, i⟩), rfl, fun link hl => ⟨i, s.waiting, ?_⟩⟩
    have hlt : i < s.phases.length := lt_of_phase_ne (by simp [pending])
    obtain rfl : c.link = link := Except.ok.inj hl
    rw [phase_setPhase_self (s := (s.markDelivered i).settle _ _) hlt]
  | unwanted => exact Or.inl rfl
  | failed => exact Or.inr ⟨_, none, rfl, fun link hl => by contradiction⟩
  | late => exact Or.inl rfl

/-! ## What lasts -/

/-- Every ticket is still there, and has gone on with its life. -/
def Ages (s s' : Shelf) : Prop :=
  ∀ (n : Nat) (t : Ticket), s.tickets[n]? = some t →
    ∃ t' : Ticket, s'.tickets[n]? = some t' ∧ t.Ages t'

theorem Ages.of_eq (h : s'.tickets = s.tickets) : s.Ages s' :=
  fun _ t ht => ⟨t, by rw [h, ht], .refl t⟩

theorem Ages.trans (h : s.Ages s') (h' : s'.Ages s'') : s.Ages s'' := by
  intro n t ht
  obtain ⟨t', ht', hages⟩ := h n t ht
  obtain ⟨t'', ht'', hages'⟩ := h' n t' ht'
  exact ⟨t'', ht'', hages.trans hages'⟩

theorem Turn.ages (turn : Turn k s mark s') : s.Ages s' := by
  rcases turn.tickets with ⟨-, h⟩ | ⟨-, j, t, t', found, changes, h⟩ | ⟨-, t, h, -⟩
  · exact .of_eq h
  · intro n u hu
    rw [h, List.getElem?_set]
    split
    · rename_i e
      subst e
      obtain rfl : t = u := Option.some.inj (found.symm.trans hu)
      exact ⟨t', if_pos (List.getElem?_eq_some_iff.mp found).1, Ticket.ages_of_changes changes⟩
    · exact ⟨u, hu, .refl u⟩
  · intro n u hu
    refine ⟨u, ?_, .refl u⟩
    rw [h, List.getElem?_append_left (List.getElem?_eq_some_iff.mp hu).1, hu]

theorem Arrival.ages (arrival : Arrival k i s woken s') : s.Ages s' := by
  rcases arrival.tickets with h | ⟨outcome, refund, h, -⟩
  · exact .of_eq h
  · intro n t ht
    exact ⟨t.accept outcome refund, by rw [h, List.getElem?_map, ht]; rfl, t.ages_accept _ _⟩

theorem Step.ages (step : Step k s mark woken s') : s.Ages s' := by
  obtain ⟨m, turn, ⟨rfl, -⟩ | ⟨i, arrival, -⟩⟩ := step
  · exact turn.ages
  · exact turn.ages.trans arrival.ages

/-- A link that a ticket has yielded stays yielded. -/
theorem Ages.mem_yielded (h : s.Ages s') (hn : n ∈ s.numbers Ticket.isYielded) :
    n ∈ s'.numbers Ticket.isYielded := by
  obtain ⟨t, ht, hy⟩ := mem_numbers.mp hn
  obtain ⟨t', ht', hages⟩ := h n t ht
  exact mem_numbers.mpr ⟨t', ht', hages.yielded hy⟩

/-- Tickets only ever come to have yielded a link. -/
theorem Ages.yielded_le (h : s.Ages s') :
    s.tickets.countP Ticket.isYielded ≤ s'.tickets.countP Ticket.isYielded := by
  rw [← length_numbers, ← length_numbers]
  exact ((s.nodup_numbers _).subperm fun _ => h.mem_yielded).length_le

/-! ## Handles that a turn opens -/

/-- A turn that opens a handle puts it into service as pending, and gives out fresh tickets only.
There was no handle in service, or a teardown has taken it away. -/
theorem Turn.opened (turn : Turn k s mark s') (h : s.Orderly k) (hs : s'.serving = some ⟨k, i⟩)
    (hi : s.phases.length ≤ i) :
    (∃ queue, s'.phase i = .pending queue) ∧ (s.serving = none ∨ mark = .torn) ∧
      ∃ ts : List Ticket, s'.tickets = s.tickets ++ ts ∧ ∀ t ∈ ts, t = .fresh := by
  have hlt : i < s'.phases.length := by
    have hopen := (turn.placed h.placed).isOpen_of_serving hs
    apply lt_of_phase_ne
    intro e
    simp [e, Phase.isOpen] at hopen
  have hold : s'.phases.length = s.phases.length → False := by
    intro e
    omega
  cases turn with
  | rest => exact (hold rfl).elim
  | hit => exact (hold (length_setPhase _ _ _)).elim
  | wait => exact (hold (length_setPhase _ _ _)).elim
  | enter free =>
    obtain rfl : s.phases.length = i := by
      injection hs with hs
      injection hs
    exact ⟨⟨_, phase_openHandle_self (s.addTicket .fresh) k _ _⟩, Or.inl free, [.fresh], rfl,
      by simp⟩
  | touch => exact (hold rfl).elim
  | refund => exact (hold (length_giveBack (s.dropUnclaimed _ _ _) _)).elim
  | stray => exact (hold rfl).elim
  | releaseOrphan => exact (hold (length_giveBack s _)).elim
  | releaseLive => exact (hold (length_giveBack s _)).elim
  | answer => exact (hold rfl).elim
  | orphan => exact (hold (length_setPhase (s.unlink _) _ _)).elim
  | dismiss => exact (hold (length_setPhase s _ _)).elim
  | @requeue j queue c serving pending new =>
    have hlen : ((s.setPhase j .closed).serve none).phases.length = s.phases.length :=
      length_setPhase s j .closed
    obtain rfl : ((s.setPhase j .closed).serve none).phases.length = i := by
      injection hs with hs
      injection hs
    exact ⟨⟨_, phase_openHandle_self _ k _ _⟩, Or.inr rfl, [], (List.append_nil _).symm, by simp⟩

/-! ## Where links come from -/

/-- A turn grants only the link of the handle in service. -/
theorem Turn.grants (turn : Turn k s mark s') (hs : s'.held? n = some link) :
    s.held? n = some link ∨ s'.Serves link := by
  rcases turn.tickets with ⟨-, h⟩ | ⟨-, j, t, t', found, changes, h⟩ | ⟨-, t, h, serves⟩
  · exact Or.inl (by rwa [held?_congr h] at hs)
  · rw [held?_set found h] at hs
    split at hs
    · rename_i e
      subst e
      exact Or.inl (held?_eq_some_iff.mpr ⟨t, found, Ticket.held?_of_changes changes hs⟩)
    · exact Or.inl hs
  · rw [held?_append h] at hs
    split at hs
    · exact Or.inr (serves link hs)
    · exact Or.inl hs

/-- An arrival grants only the link of the handle in service. -/
theorem Arrival.grants (arrival : Arrival k i s woken s') (hs : s'.held? n = some link) :
    s.held? n = some link ∨ s'.Serves link := by
  rcases arrival.tickets with h | ⟨outcome, refund, h, serves⟩
  · exact Or.inl (by rwa [held?_congr h] at hs)
  · obtain ⟨t', ht', hl⟩ := held?_eq_some_iff.mp hs
    rw [h, List.getElem?_map, Option.map_eq_some_iff] at ht'
    obtain ⟨t, ht, rfl⟩ := ht'
    cases hw : t.isWaiting with
    | false =>
      rw [Ticket.accept_of_not_isWaiting hw] at hl
      exact Or.inl (held?_eq_some_iff.mpr ⟨t, ht, hl⟩)
    | true =>
      rw [Ticket.accept_of_isWaiting hw] at hl
      refine Or.inr (serves link ?_)
      cases outcome with
      | ok link' => exact congrArg Except.ok (Option.some.inj hl)
      | error e => contradiction

end Shelf

end SharedLinks
