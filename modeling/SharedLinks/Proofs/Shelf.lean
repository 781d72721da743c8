import Mathlib.Data.List.Basic
import Mathlib.Tactic.Common
import SharedLinks.Hub.Acquire
import SharedLinks.Hub.Release

/-!
# Writes on a shelf

Everything that a hub does under one key is a write on that key's shelf. This module names these
writes as functions of the shelf alone and says what each leaves behind: `phase_setPhase`,
`phase_openHandle` and `phase_forget` for the phases, `forget_of_serving` and `orphans_dropOrphan` for
the places of a handle. The hub's own writes are these functions on one shelf (`setPhase_eq` and its
neighbours), so nothing later has to look into a hub.
-/

namespace SharedLinks

/-! ## Tickets -/

namespace Ticket

/-- Nobody has settled the ticket and nobody has dropped it. -/
def isWaiting (t : Ticket) : Bool :=
  match t.state with
  | .waiting _ => true
  | _ => false

/-- The link that the ticket holds a reference on, yielded or still unclaimed. -/
def held? (t : Ticket) : Option Link :=
  match t.state with
  | .settled (.ok link) _ | .yielded (.ok link) => some link
  | _ => none

/-- The ticket holds a link that it has not yielded. -/
def isUnclaimed (t : Ticket) : Bool :=
  match t.state with
  | .settled (.ok _) _ => true
  | _ => false

/-- The ticket has yielded a link. -/
def isYielded (t : Ticket) : Bool :=
  match t.state with
  | .yielded (.ok _) => true
  | _ => false

/-- The ticket after an outcome was offered to it. -/
def accept (t : Ticket) (outcome : Outcome) (refund : Option Refund) : Ticket :=
  if t.isWaiting then { t with state := .settled outcome refund } else t

/-- Whom to wake when the ticket is settled, if it is a poll. -/
def sleeper? (t : Ticket) : Option Nat :=
  match t.state with
  | .waiting (some (.poll number)) => some number
  | _ => none

theorem isWaiting_iff {t : Ticket} :
    t.isWaiting = true ↔ ∃ sleeper, t.state = .waiting sleeper := by
  unfold isWaiting
  split
  · rename_i sleeper hs
    exact iff_of_true rfl ⟨sleeper, hs⟩
  · rename_i hs
    refine iff_of_false (by simp) ?_
    rintro ⟨sleeper, h⟩
    exact hs sleeper h

theorem isUnclaimed_iff {t : Ticket} :
    t.isUnclaimed = true ↔ ∃ link refund, t.state = .settled (.ok link) refund := by
  unfold isUnclaimed
  split
  · rename_i link refund hs
    exact iff_of_true rfl ⟨link, refund, hs⟩
  · rename_i hs
    refine iff_of_false (by simp) ?_
    rintro ⟨link, refund, h⟩
    exact hs link refund h

theorem settle_of_waiting {t : Ticket} {sleeper : Option Sleeper} (h : t.state = .waiting sleeper)
    (outcome : Outcome) (refund : Option Refund) :
    t.settle outcome refund = some ({ t with state := .settled outcome refund }, sleeper) := by
  rw [settle, h]

theorem settle_of_not_isWaiting {t : Ticket} (h : t.isWaiting = false) (outcome : Outcome)
    (refund : Option Refund) : t.settle outcome refund = none := by
  unfold settle
  split
  · rename_i hs
    simp [isWaiting, hs] at h
  · rfl

theorem accept_of_isWaiting {t : Ticket} (h : t.isWaiting = true) (outcome : Outcome)
    (refund : Option Refund) :
    t.accept outcome refund = { t with state := .settled outcome refund } := by
  rw [accept, if_pos h]

theorem accept_of_not_isWaiting {t : Ticket} (h : t.isWaiting = false) (outcome : Outcome)
    (refund : Option Refund) : t.accept outcome refund = t := by
  rw [accept, if_neg (by simp [h])]

theorem outcome?_of_isWaiting {t : Ticket} (h : t.isWaiting = true) : t.outcome? = none := by
  unfold isWaiting at h
  unfold outcome?
  split at h
  · rename_i hs
    rw [hs]
  · contradiction

theorem outcome?_of_held? {t : Ticket} {link : Link} (h : t.held? = some link) :
    t.outcome? = some (.ok link) := by
  unfold held? at h
  unfold outcome?
  split at h <;> simp_all

/-- Only tickets that are waited for have sleepers. -/
theorem sleeper?_of_not_isWaiting {t : Ticket} (h : t.isWaiting = false) : t.sleeper? = none := by
  unfold sleeper?
  split
  · rename_i hs
    simp [isWaiting, hs] at h
  · rfl

theorem held?_isSome (t : Ticket) : t.held?.isSome = (t.isUnclaimed || t.isYielded) := by
  unfold held? isUnclaimed isYielded
  split <;> simp_all

theorem not_isWaiting_accept (t : Ticket) (outcome : Outcome) (refund : Option Refund) :
    (t.accept outcome refund).isWaiting = false := by
  cases h : t.isWaiting with
  | true => rw [accept_of_isWaiting h]; rfl
  | false => rw [accept_of_not_isWaiting h, h]

end Ticket

namespace Shelf

/-! ## Phases -/

/-- Where the handle with this number is in its life. -/
def phase (s : Shelf) (i : Nat) : Phase := (s.phases[i]?).getD .closed

/-- Moves a handle to another phase. -/
def setPhase (s : Shelf) (i : Nat) (p : Phase) : Shelf := { s with phases := s.phases.set i p }

theorem lt_of_phase_ne {s : Shelf} {i : Nat} (h : s.phase i ≠ .closed) : i < s.phases.length := by
  by_contra hi
  rw [phase, List.getElem?_eq_none (by omega)] at h
  exact h rfl

theorem phase_of_le {s : Shelf} {i : Nat} (h : s.phases.length ≤ i) : s.phase i = .closed := by
  by_contra hc
  have := lt_of_phase_ne hc
  omega

theorem phase_eq_getElem {s : Shelf} {i : Nat} (h : i < s.phases.length) :
    s.phase i = s.phases[i] := by
  rw [phase, List.getElem?_eq_getElem h]
  rfl

/-- A write on a handle shows at that handle only. -/
theorem phase_setPhase {s : Shelf} {i : Nat} (h : i < s.phases.length) (p : Phase) (j : Nat) :
    (s.setPhase i p).phase j = if j = i then p else s.phase j := by
  unfold phase setPhase
  rw [List.getElem?_set]
  by_cases hj : j = i
  · simp [hj, h]
  · simp [hj, Ne.symm hj]

/-- A write on a handle shows at that handle. -/
theorem phase_setPhase_self {s : Shelf} {i : Nat} (h : i < s.phases.length) (p : Phase) :
    (s.setPhase i p).phase i = p := by
  rw [phase_setPhase h, if_pos rfl]

/-- A write on a handle shows at no other. -/
theorem phase_setPhase_ne {s : Shelf} {i j : Nat} (h : j ≠ i) (p : Phase) :
    (s.setPhase i p).phase j = s.phase j := by
  rw [phase, setPhase, List.getElem?_set_ne (Ne.symm h), phase]

@[simp] theorem length_setPhase (s : Shelf) (i : Nat) (p : Phase) :
    (s.setPhase i p).phases.length = s.phases.length :=
  List.length_set

/-! ## Service -/

/-- Puts a handle into the key's service, or none. -/
def serve (s : Shelf) (h : Option HandleId) : Shelf := { s with serving := h }

/-- Takes a handle off the shelf: out of service if it serves the key, else out of the orphans. -/
def forget (s : Shelf) (h : HandleId) : Shelf :=
  if s.serving = some h then s.serve none else s.dropOrphan h

/-- Takes a handle out of service and keeps it as the newest orphan. -/
def unlink (s : Shelf) (h : HandleId) : Shelf :=
  { s with serving := none, orphaned := some (s.orphans ++ [h]) }

theorem dropOrphan_eq (s : Shelf) (h : HandleId) :
    ∃ o, s.dropOrphan h = { s with orphaned := o } := by
  unfold dropOrphan
  split
  · exact ⟨s.orphaned, rfl⟩
  · split
    · exact ⟨none, rfl⟩
    · exact ⟨_, rfl⟩

theorem orphans_dropOrphan (s : Shelf) (h : HandleId) :
    (s.dropOrphan h).orphans = s.orphans.filter (· ≠ h) := by
  unfold dropOrphan orphans
  split
  · rename_i ho
    simp [ho]
  · rename_i orphans ho
    split
    · rename_i hf
      rw [ho, Option.getD_some, hf]
      rfl
    · rw [ho]
      rfl

theorem orphaned_dropOrphan_ne (s : Shelf) (h : HandleId) (hs : s.orphaned ≠ some []) :
    (s.dropOrphan h).orphaned ≠ some [] := by
  unfold dropOrphan
  split
  · exact hs
  · split
    · simp
    · rename_i hf
      intro e
      exact hf (Option.some.inj e)

/-- A handle that serves the key is taken out of its service. -/
theorem forget_of_serving {s : Shelf} {h : HandleId} (hs : s.serving = some h) :
    s.forget h = s.serve none := by
  rw [forget, if_pos hs]

theorem forget_of_not_serving {s : Shelf} {h : HandleId} (hs : s.serving ≠ some h) :
    s.forget h = s.dropOrphan h := by
  rw [forget, if_neg hs]

/-- Taking a handle off the shelf changes its place and nothing else. -/
theorem forget_eq (s : Shelf) (h : HandleId) :
    ∃ v o, s.forget h = { s with serving := v, orphaned := o } := by
  by_cases hs : s.serving = some h
  · exact ⟨none, s.orphaned, forget_of_serving hs⟩
  · obtain ⟨o, ho⟩ := s.dropOrphan_eq h
    exact ⟨s.serving, o, (forget_of_not_serving hs).trans ho⟩

@[simp] theorem phases_forget (s : Shelf) (h : HandleId) : (s.forget h).phases = s.phases := by
  obtain ⟨v, o, he⟩ := s.forget_eq h
  rw [he]

@[simp] theorem creations_forget (s : Shelf) (h : HandleId) :
    (s.forget h).creations = s.creations := by
  obtain ⟨v, o, he⟩ := s.forget_eq h
  rw [he]

@[simp] theorem tickets_forget (s : Shelf) (h : HandleId) : (s.forget h).tickets = s.tickets := by
  obtain ⟨v, o, he⟩ := s.forget_eq h
  rw [he]

theorem phase_congr {s s' : Shelf} (h : s'.phases = s.phases) (i : Nat) :
    s'.phase i = s.phase i := by
  rw [phase, h, phase]

@[simp] theorem phase_forget (s : Shelf) (h : HandleId) (i : Nat) :
    (s.forget h).phase i = s.phase i :=
  phase_congr (s.phases_forget h) i

/-! ## Tickets and creations -/

/-- Gives out a ticket. -/
def addTicket (s : Shelf) (t : Ticket) : Shelf := { s with tickets := s.tickets ++ [t] }

/-- Replaces a ticket. -/
def setTicket (s : Shelf) (n : Nat) (t : Ticket) : Shelf := { s with tickets := s.tickets.set n t }

/-- Offers an outcome to all tickets; those that are waited for take it. -/
def settle (s : Shelf) (outcome : Outcome) (refund : Option Refund) : Shelf :=
  { s with tickets := s.tickets.map (·.accept outcome refund) }

/-- How the replacement of a ticket shows in a count. -/
theorem countP_setTicket {s : Shelf} {n : Nat} {t : Ticket} (h : s.tickets[n]? = some t)
    (t' : Ticket) (p : Ticket → Bool) :
    (s.setTicket n t').tickets.countP p + (if p t then 1 else 0) =
      s.tickets.countP p + (if p t' then 1 else 0) := by
  obtain ⟨hn, rfl⟩ := List.getElem?_eq_some_iff.mp h
  change (s.tickets.set n t').countP p + _ = _
  rw [List.countP_set hn]
  have hpos : p s.tickets[n] = true → 0 < s.tickets.countP p := fun hp =>
    List.countP_pos_iff.mpr ⟨_, List.getElem_mem hn, hp⟩
  split
  · rename_i hp
    have := hpos hp
    omega
  · omega

/-- How many tickets are waited for. -/
def waiting (s : Shelf) : Nat := s.tickets.countP Ticket.isWaiting

/-- The polls that sleep on queued tickets, in the order of the queue, by ticket and number. -/
def sleepers (s : Shelf) (k : Key) (queue : List TicketId) : List (Nat × Nat) :=
  queue.filterMap fun
    | .forKey j n => if j = k then (s.tickets[n]?).bind fun t => t.sleeper?.map (n, ·) else none
    | .loose _ => none

/-- Changes a creation. -/
def onCreation (s : Shelf) (i : Nat) (f : Creation → Creation) : Shelf :=
  { s with creations := s.creations.modify i f }

/-- Marks a creation's answer as having reached the owner. -/
def markDelivered (s : Shelf) (i : Nat) : Shelf := s.onCreation i fun c => { c with delivered := true }

/-- Puts a new handle of the key into service, with its queue and its creation. -/
def openHandle (s : Shelf) (k : Key) (queue : List TicketId) (c : Creation) : Shelf :=
  { s with
    serving := some ⟨k, s.phases.length⟩
    phases := s.phases ++ [.pending queue]
    creations := s.creations ++ [c] }

theorem phase_openHandle (s : Shelf) (k : Key) (queue : List TicketId) (c : Creation) (j : Nat) :
    (s.openHandle k queue c).phase j =
      if j = s.phases.length then .pending queue else s.phase j := by
  unfold phase openHandle
  by_cases hj : j = s.phases.length
  · simp [hj]
  · rcases Nat.lt_or_ge j s.phases.length with hlt | hge
    · simp [hj, List.getElem?_append_left hlt]
    · rw [List.getElem?_append_right hge, List.getElem?_eq_none (by simp; omega),
        List.getElem?_eq_none hge, if_neg hj]

/-- A handle that is just opened is pending. -/
theorem phase_openHandle_self (s : Shelf) (k : Key) (queue : List TicketId) (c : Creation) :
    (s.openHandle k queue c).phase s.phases.length = .pending queue := by
  rw [phase_openHandle, if_pos rfl]

@[simp] theorem phase_serve (s : Shelf) (h : Option HandleId) (i : Nat) :
    (s.serve h).phase i = s.phase i := rfl

@[simp] theorem phase_unlink (s : Shelf) (h : HandleId) (i : Nat) :
    (s.unlink h).phase i = s.phase i := rfl

@[simp] theorem phase_addTicket (s : Shelf) (t : Ticket) (i : Nat) :
    (s.addTicket t).phase i = s.phase i := rfl

@[simp] theorem phase_setTicket (s : Shelf) (n : Nat) (t : Ticket) (i : Nat) :
    (s.setTicket n t).phase i = s.phase i := rfl

@[simp] theorem phase_settle (s : Shelf) (outcome : Outcome) (refund : Option Refund) (i : Nat) :
    (s.settle outcome refund).phase i = s.phase i := rfl

@[simp] theorem phase_markDelivered (s : Shelf) (j i : Nat) :
    (s.markDelivered j).phase i = s.phase i := rfl

/-- Gives one reference back to a handle; the last one ends it. A handle without references stays
as it is. -/
def giveBack (s : Shelf) (h : HandleId) : Shelf :=
  match s.phase h.index with
  | .live link (refs + 2) => s.setPhase h.index (.live link (refs + 1))
  | .orphaned (refs + 2) => s.setPhase h.index (.orphaned (refs + 1))
  | .live _ 1 | .orphaned 1 => (s.setPhase h.index .closed).forget h
  | _ => s

theorem tickets_giveBack (s : Shelf) (hd : HandleId) : (s.giveBack hd).tickets = s.tickets := by
  unfold giveBack
  split
  · rfl
  · rfl
  · exact tickets_forget _ _
  · exact tickets_forget _ _
  · rfl

theorem creations_giveBack (s : Shelf) (hd : HandleId) :
    (s.giveBack hd).creations = s.creations := by
  unfold giveBack
  split
  · rfl
  · rfl
  · exact creations_forget _ _
  · exact creations_forget _ _
  · rfl

theorem length_giveBack (s : Shelf) (hd : HandleId) :
    (s.giveBack hd).phases.length = s.phases.length := by
  unfold giveBack
  split
  · exact length_setPhase _ _ _
  · exact length_setPhase _ _ _
  · rw [phases_forget, length_setPhase]
  · rw [phases_forget, length_setPhase]
  · rfl

end Shelf

/-! ## The hub's writes -/

namespace Hub

theorem setServing_eq (w : Hub) (k : Key) (h : Option HandleId) :
    w.setServing k h = w.onShelf k (·.serve h) := rfl

theorem setPhase_eq (w : Hub) (h : HandleId) (p : Phase) :
    w.setPhase h p = w.onShelf h.key (·.setPhase h.index p) := rfl

theorem addTicket_eq (w : Hub) (k : Key) (t : Ticket) :
    w.addTicket k t = w.onShelf k (·.addTicket t) := rfl

theorem setTicket_eq (w : Hub) (k : Key) (n : Nat) (t : Ticket) :
    w.setTicket (.forKey k n) t = w.onShelf k (·.setTicket n t) := rfl

theorem markDelivered_eq (w : Hub) (k : Key) (i : Nat) :
    w.markDelivered (.made k i) = w.onShelf k (·.markDelivered i) := rfl

theorem phase_eq (w : Hub) (h : HandleId) : w.phase h = (w.shelf h.key).phase h.index := rfl

theorem serving_eq (w : Hub) (k : Key) : w.serving k = (w.shelf k).serving := rfl

theorem ticket?_eq (w : Hub) (k : Key) (n : Nat) :
    w.ticket? (.forKey k n) = (w.shelf k).tickets[n]? := rfl

end Hub

end SharedLinks
