import SharedLinks.Proofs.Outline
import SharedLinks.Proofs.Releases

/-!
# Where unclaimed references go back to

A ticket that is given up before it has yielded its link sends the reference on it back, to the handle
that counted it or to whoever left a mark on it. `Hub.Returned` lists what this comes to: the mark can be
seen, or the handle counts one reference less, or it ends and a job closes its link, or it counted none
any more and there is nothing to give back. `returned_refund` shows that it is one of these, whatever the
state of the hub.

Tickets have nothing to do with it. `Hub.SameBut` says that hubs differ in one ticket at most, and the
lemmas on `ticket?` say which ticket a write changes.
-/

namespace SharedLinks

/-- The phase counts one reference less. If there was only that one, a teardown has closed the link. -/
inductive Phase.Lowers : Phase → Phase → Prop where
  | live (link : Link) (refs : Nat) : Lowers (.live link (refs + 2)) (.live link (refs + 1))
  | orphan (refs : Nat) : Lowers (.orphaned (refs + 2)) (.orphaned (refs + 1))
  | lastOrphan : Lowers (.orphaned 1) .closed

namespace Hub

variable {w w' w'' : Hub} {id : TicketId} {t : Ticket}

/-! ## Tickets after writes -/

theorem ticket?_onShelf (w : Hub) (k : Key) {f : Shelf → Shelf}
    (hf : (f (w.shelf k)).tickets = (w.shelf k).tickets) (id : TicketId) :
    (w.onShelf k f).ticket? id = w.ticket? id := by
  cases id with
  | forKey j n =>
    rw [ticket?_eq, ticket?_eq]
    by_cases hj : j = k
    · rw [hj, shelf_onShelf_self, hf]
    · rw [shelf_onShelf_ne w hj]
  | loose n => rfl

theorem ticket?_forget (w : Hub) (k : Key) (h : HandleId) (id : TicketId) :
    (w.forget k h).ticket? id = w.ticket? id := by
  unfold forget
  split
  · split
    · exact ticket?_onShelf w k rfl id
    · refine ticket?_onShelf w k ?_ id
      obtain ⟨o, ho⟩ := (w.shelf k).dropOrphan_eq h
      rw [ho]
  · rfl

theorem ticket?_spawn_closingJob (w : Hub) (h : HandleId) (link : Link) (id : TicketId) :
    (w.spawn (closingJob h link)).ticket? id = w.ticket? id := by
  have hloose : (w.spawn (closingJob h link)).loose = w.loose := by
    unfold spawn
    split
    · rfl
    · have hwork : (w.work (closingJob h link)).1.loose = w.loose := by
        change ((w.beginClose h link).workAwaitClose _).1.loose = _
        unfold workAwaitClose awaitClose
        split <;> rename_i heq <;> split at heq <;> cases heq <;> rfl
      split <;> rename_i heq <;> rwa [heq] at hwork
    · rfl
  cases id with
  | forKey k n => rw [ticket?_eq, shelf_spawn_closingJob, ticket?_eq]
  | loose n => exact congrArg (·[n]?) hloose

theorem ticket?_setTicket (found : w.ticket? id = some t) (t' : Ticket) :
    (w.setTicket id t').ticket? id = some t' := by
  cases id with
  | forKey k n =>
    rw [setTicket_eq, ticket?_eq, shelf_onShelf_self]
    exact List.getElem?_set_self (List.getElem?_eq_some_iff.mp found).1
  | loose n => exact List.getElem?_set_self (List.getElem?_eq_some_iff.mp found).1

theorem ticket?_setTicket_ne {id' : TicketId} (h : id' ≠ id) (t : Ticket) :
    (w.setTicket id t).ticket? id' = w.ticket? id' := by
  cases id with
  | forKey k n =>
    rw [setTicket_eq]
    cases id' with
    | forKey j m =>
      rw [ticket?_eq, ticket?_eq]
      by_cases hj : j = k
      · subst hj
        have hne : n ≠ m := fun e => h (by rw [e])
        rw [shelf_onShelf_self]
        exact List.getElem?_set_ne hne
      · rw [shelf_onShelf_ne w hj]
    | loose m => rfl
  | loose n =>
    cases id' with
    | forKey j m => rfl
    | loose m =>
      have hne : n ≠ m := fun e => h (by rw [e])
      exact List.getElem?_set_ne hne

/-- The hubs differ in this ticket at most. -/
structure SameBut (id : TicketId) (w w' : Hub) : Prop where
  tickets : ∀ id', id' ≠ id → w'.ticket? id' = w.ticket? id'
  shelf : ∀ k, { w'.shelf k with tickets := [] } = { w.shelf k with tickets := [] }
  rest : w' = { w with shelves := w'.shelves, loose := w'.loose }

namespace SameBut

theorem refl (id : TicketId) (w : Hub) : SameBut id w w := ⟨fun _ _ => rfl, fun _ => rfl, rfl⟩

theorem trans (h : SameBut id w w') (h' : SameBut id w' w'') : SameBut id w w'' where
  tickets id' hne := (h'.tickets id' hne).trans (h.tickets id' hne)
  shelf k := (h'.shelf k).trans (h.shelf k)
  rest := h'.rest.trans
    (congrArg (fun u => { u with shelves := w''.shelves, loose := w''.loose }) h.rest)

theorem events (h : SameBut id w w') : w'.events = w.events := by
  rw [h.rest]

theorem setTicket (w : Hub) (id : TicketId) (t : Ticket) : SameBut id w (w.setTicket id t) where
  tickets _ hne := ticket?_setTicket_ne hne t
  shelf k := by
    cases id with
    | forKey j n =>
      rw [setTicket_eq]
      by_cases hk : k = j
      · rw [hk, shelf_onShelf_self]
        rfl
      · rw [shelf_onShelf_ne w hk]
    | loose n => rfl
  rest := by cases id <;> rfl

end SameBut

/-! ## What giving a reference back comes to -/

/-- A handle has moved to another phase. Besides that, at most the places of the handles of its key, the
counters and the journal have changed. -/
structure MovedTo (h : HandleId) (p : Phase) (w w' : Hub) : Prop where
  phase : w'.phase h = p
  others : ∀ h', h' ≠ h → w'.phase h' = w.phase h'
  tickets : ∀ id, w'.ticket? id = w.ticket? id
  confined : Confined h.key w w'

namespace MovedTo

variable {h : HandleId} {p : Phase}

theorem setPhase (made : w.phase h ≠ .closed) (p : Phase) : MovedTo h p w (w.setPhase h p) := by
  have hphase : ∀ h', (w.setPhase h p).phase h' = if h' = h then p else w.phase h' :=
    congrFun (congrArg Outline.phase (outline_setPhase (lt_of_phase_ne made) p))
  refine ⟨?_, fun h' hne => ?_, ticket?_onShelf w h.key rfl, (Confined.refl h.key w).onShelf _⟩
  · rw [hphase, if_pos rfl]
  · rw [hphase, if_neg hne]

theorem note (m : MovedTo h p w w') (n : Notice) : MovedTo h p w (w'.note n) :=
  ⟨m.phase, m.others, m.tickets, m.confined.note n⟩

theorem count (m : MovedTo h p w w') (c : Counter) : MovedTo h p w (w'.count c) :=
  ⟨m.phase, m.others, m.tickets, m.confined.count c⟩

theorem forget (m : MovedTo h p w w') : MovedTo h p w (w'.forget h.key h) := by
  have hphase : (w'.forget h.key h).phase = w'.phase :=
    congrArg Outline.phase (outline_forget w' h.key h)
  refine ⟨?_, fun h' hne => ?_, fun id => (ticket?_forget w' _ h id).trans (m.tickets id),
    m.confined.forget h⟩
  · rw [hphase, m.phase]
  · rw [hphase, m.others h' hne]

/-- A notice before the handle moves is nothing but a notice. -/
theorem of_note {n : Notice} (m : MovedTo h p (w.note n) w') : MovedTo h p w w' :=
  ⟨m.phase, m.others, m.tickets, m.confined.shelf, m.confined.fixtures, m.confined.namer,
    m.confined.jobs, m.confined.ready, m.confined.events⟩

end MovedTo

/-- An unclaimed reference has gone back to where it came from. -/
inductive Returned (w : Hub) : Refund → Hub → Prop where
  /-- Whoever left the mark can see it. -/
  | mark (name : String) : Returned w (.mark name) { w with events := .refund name :: w.events }
  /-- The handle counts one reference less. -/
  | lowered {h : HandleId} {p : Phase} {w' : Hub} (lowers : (w.phase h).Lowers p)
      (moved : MovedTo h p w w') (counters : w'.counters = w.counters.add .releases 1) :
      Returned w (.handle h) w'
  /-- The handle gives its last reference up and ends, and a job is taken up that closes its link. -/
  | ended {h : HandleId} {link : Link} {u : Hub} (held : w.phase h = .live link 1)
      (moved : MovedTo h .closed w u)
      (counters : u.counters = (w.counters.add .releases 1).add .closes 1)
      (kept : ∀ j, (u.spawn (closingJob h link)).shelf j = u.shelf j) :
      Returned w (.handle h) (u.spawn (closingJob h link))
  /-- The handle counts no references any more. This is noted, and that is all. -/
  | vain {h : HandleId} (none : (w.phase h).refs = 0) :
      Returned w (.handle h) (w.note (.unclaimed h.key))

theorem returned_refund (w : Hub) (r : Refund) : Returned w r (w.refund r) := by
  cases r with
  | mark name => exact .mark name
  | handle h =>
    have hset : ∀ {q : Phase} (p : Phase), w.phase h = q → q ≠ .closed →
        MovedTo h p w ((w.note (.unclaimed h.key)).setPhase h p) := fun p hq hne =>
      (MovedTo.setPhase (w := w.note (.unclaimed h.key)) (hq ▸ hne) p).of_note
    have hforget := (forget_rest ((w.note (.unclaimed h.key)).setPhase h .closed) h.key h).2.1
    change Returned w (.handle h) ((w.note (.unclaimed h.key)).giveBack h false).1
    unfold giveBack
    rw [show (w.note (.unclaimed h.key)).phase h = w.phase h from rfl]
    cases hp : w.phase h with
    | pending queue => exact .vain (by rw [hp]; rfl)
    | closed => exact .vain (by rw [hp]; rfl)
    | live link refs =>
      obtain _ | _ | refs := refs
      · exact .vain (by rw [hp]; rfl)
      · refine .ended hp ((hset .closed hp (by simp)).forget.count _ |>.count _) ?_
          fun j => shelf_spawn_closingJob _ h link j
        exact congrArg (fun m => (Counters.add m .releases 1).add .closes 1) hforget
      · exact .lowered (hp ▸ .live link refs) ((hset _ hp (by simp)).count _) rfl
    | orphaned refs =>
      obtain _ | _ | refs := refs
      · exact .vain (by rw [hp]; rfl)
      · refine .lowered (hp ▸ .lastOrphan) ((hset .closed hp (by simp)).forget.count _ |>.note _) ?_
        exact congrArg (Counters.add · .releases 1) hforget
      · exact .lowered (hp ▸ .orphan refs) ((hset _ hp (by simp)).count _) rfl

/-- A reference that goes back changes no ticket. -/
theorem Returned.tickets {r : Refund} (h : Returned w r w') (id : TicketId) :
    w'.ticket? id = w.ticket? id := by
  cases h with
  | mark name => cases id <;> rfl
  | lowered lowers moved => exact moved.tickets id
  | ended held moved => exact (ticket?_spawn_closingJob _ _ _ id).trans (moved.tickets id)
  | vain => rfl

end Hub

end SharedLinks
