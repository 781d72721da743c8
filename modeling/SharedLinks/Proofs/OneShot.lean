import SharedLinks.Proofs.Refunds

/-!
# Tickets are settled once and yield once

What its owner and whoever settles it do to a ticket comes in any order: `Ticket.Act` lists it, and
`Hub.acts` is the hub after some of it. The acts so far determine the state of the ticket: until it is
settled its polls do (`Ticket.waiting_acts`), unless it was dropped (`Ticket.isOver_acts`), and from then
on the first poll or drop does (`Ticket.settled_acts`). In each state `Waits`, `Holds` or `Empty` says what
the next act comes to, both for whoever does it and for the hub.

Two acts show beside the ticket: to settle it wakes its last poll, and to drop it may send a reference
back. `Refunded` says of a whole history that nothing but the references it sends back has changed
anything else (`refunded_acts`). `oneShot_acts` puts these together for a ticket that is made to wait and
for one that is made with its outcome.
-/

namespace SharedLinks

namespace Ticket

/-- One thing that is done to a ticket. -/
inductive Act where
  /-- The owner polls it. -/
  | poll
  /-- The owner looks whether the outcome is known. -/
  | look
  /-- The owner gives it up. -/
  | drop
  /-- Somebody settles it. -/
  | settle (outcome : Outcome) (refund : Option Refund)

namespace Act

/-- The owner asks for the outcome. -/
def isPoll : Act → Bool
  | poll => true
  | look | drop | settle _ _ => false

/-- The owner gives the ticket up. -/
def isDrop : Act → Bool
  | drop => true
  | poll | look | settle _ _ => false

/-- Somebody settles the ticket. -/
def isSettle : Act → Bool
  | settle _ _ => true
  | poll | look | drop => false

end Act

/-- The last of the polls among some acts, by its number. -/
def lastPoll (acts : List Act) : Option Nat :=
  match acts.countP Act.isPoll with
  | 0 => none
  | n + 1 => some n

/-- The act that decides what becomes of an outcome that is known: the first poll or drop. -/
def taker? (acts : List Act) : Option Act := acts.find? fun a => a.isPoll || a.isDrop

theorem isPoll_or_isDrop_of_taker? {acts : List Act} {a : Act} (h : taker? acts = some a) :
    a.isPoll = true ∨ a.isDrop = true := by
  simpa using List.find?_some h

/-- Where the reference goes back to if the outcome is never yielded. Errors come without one. -/
def owed (outcome : Outcome) (refund : Option Refund) : Option Refund :=
  match outcome with
  | .ok _ => refund
  | .error _ => none

/-- The ticket after an act. -/
def act (t : Ticket) : Act → Ticket
  | .poll => t.poll.1
  | .look => t
  | .drop => t.drop.1
  | .settle outcome refund => ((t.settle outcome refund).map Prod.fst).getD t

/-- The ticket after some acts in order. -/
def acts (t : Ticket) (past : List Act) : Ticket := past.foldl act t

theorem acts_concat (t : Ticket) (past : List Act) (a : Act) :
    t.acts (past ++ [a]) = (t.acts past).act a := by
  rw [acts, List.foldl_append]
  rfl

/-- The ticket has yielded its outcome or was given up. -/
def IsOver (t : Ticket) : Prop := (∃ o, t.state = .yielded o) ∨ ∃ o, t.state = .dropped o

variable {t : Ticket} {outcome : Outcome} {refund : Option Refund}

/-! ## The ticket after some acts -/

/-- Until it is settled or dropped, a ticket waits, and its last poll is the one to be woken. -/
theorem waiting_acts {past : List Act} (unsettled : ∀ a ∈ past, a.isSettle = false)
    (kept : ∀ a ∈ past, a.isDrop = false) :
    (fresh.acts past).state = .waiting ((lastPoll past).map .poll) ∧
      (fresh.acts past).polls = past.countP Act.isPoll := by
  induction past using List.reverseRecOn with
  | nil => exact ⟨rfl, rfl⟩
  | append_singleton past a ih =>
    obtain ⟨hstate, hpolls⟩ := ih (fun b hb => unsettled b (List.mem_append_left _ hb))
      fun b hb => kept b (List.mem_append_left _ hb)
    have hcount : (past ++ [a]).countP Act.isPoll =
        past.countP Act.isPoll + if a.isPoll then 1 else 0 := by
      rw [List.countP_append, List.countP_singleton]
    rw [acts_concat]
    cases a with
    | poll => simp [act, poll, take, hstate, hpolls, lastPoll, Act.isPoll]
    | look => simpa [act, lastPoll, hcount, Act.isPoll] using ⟨hstate, hpolls⟩
    | drop => exact absurd (kept .drop (by simp)) (by decide)
    | settle o r => exact absurd (unsettled (.settle o r) (by simp)) (by simp [Act.isSettle])

/-- A ticket that does not wait never waits again. -/
theorem not_isWaiting_act (h : t.isWaiting = false) (a : Act) : (t.act a).isWaiting = false := by
  cases hs : t.state with
  | waiting sleeper => simp [isWaiting, hs] at h
  | settled outcome refund =>
    cases a with
    | poll => simp [act, poll, take, isWaiting, hs]
    | look => exact h
    | drop => cases outcome <;> simp [act, drop, isWaiting, hs]
    | settle o r => simpa [act, settle, hs] using h
  | yielded | dropped => cases a <;> simp [act, poll, take, drop, settle, isWaiting, hs]

/-- A ticket that is over stays so. -/
theorem IsOver.act (h : t.IsOver) (a : Act) : (t.act a).IsOver := by
  rcases h with ⟨o, ho⟩ | ⟨o, ho⟩
  · cases a <;> simp [IsOver, Ticket.act, poll, take, drop, settle, ho]
  · cases a <;> simp [IsOver, Ticket.act, poll, take, drop, settle, ho]

theorem IsOver.not_isWaiting (h : t.IsOver) : t.isWaiting = false := by
  rcases h with ⟨o, ho⟩ | ⟨o, ho⟩ <;> simp [isWaiting, ho]

theorem IsOver.acts (h : t.IsOver) (past : List Act) : (t.acts past).IsOver := by
  induction past generalizing t with
  | nil => exact h
  | cons a past ih => exact ih (h.act a)

/-- A ticket that was dropped before it was settled takes no outcome any more. -/
theorem isOver_acts {past : List Act} (unsettled : ∀ a ∈ past, a.isSettle = false)
    (dropped : ∃ a ∈ past, a.isDrop = true) : (fresh.acts past).IsOver := by
  induction past using List.reverseRecOn with
  | nil => simp at dropped
  | append_singleton past a ih =>
    have hbefore : ∀ b ∈ past, b.isSettle = false := fun b hb =>
      unsettled b (List.mem_append_left _ hb)
    rw [acts_concat]
    by_cases h : ∃ b ∈ past, b.isDrop = true
    · exact (ih hbefore h).act a
    · have hkept : ∀ b ∈ past, b.isDrop = false := fun b hb => by simpa using fun e => h ⟨b, hb, e⟩
      obtain ⟨hstate, -⟩ := waiting_acts hbefore hkept
      obtain ⟨b, hb, hdrop⟩ := dropped
      rcases List.mem_append.mp hb with hb | hb
      · exact absurd ⟨b, hb, hdrop⟩ h
      · obtain rfl := List.mem_singleton.mp hb
        cases b with
        | drop => exact Or.inr ⟨none, by simp [Ticket.act, drop, hstate]⟩
        | poll | look | settle => contradiction

/-- A settled ticket is over once it is polled or dropped. -/
theorem isOver_act (h : t.state = .settled outcome refund) {a : Act}
    (takes : a.isPoll = true ∨ a.isDrop = true) : (t.act a).IsOver := by
  cases a with
  | poll => exact Or.inl ⟨outcome, by simp [act, poll, take, h]⟩
  | drop => exact Or.inr ⟨some outcome, by cases outcome <;> simp [act, drop, h]⟩
  | look | settle => simp [Act.isPoll, Act.isDrop] at takes

/-- Until it is polled or dropped, a settled ticket keeps its outcome, and afterwards it is over. -/
theorem settled_acts (h : t.state = .settled outcome refund) (past : List Act) :
    (taker? past = none → (t.acts past).state = .settled outcome refund) ∧
      ((taker? past).isSome = true → (t.acts past).IsOver) := by
  induction past generalizing t with
  | nil => exact ⟨fun _ => h, fun hs => by contradiction⟩
  | cons a past ih =>
    change (_ → ((t.act a).acts past).state = _) ∧ (_ → ((t.act a).acts past).IsOver)
    cases a with
    | poll => exact ⟨fun hs => by contradiction, fun _ => (isOver_act h (Or.inl rfl)).acts past⟩
    | look => exact ih h
    | drop => exact ⟨fun hs => by contradiction, fun _ => (isOver_act h (Or.inr rfl)).acts past⟩
    | settle o r => exact ih (t := t.act (.settle o r)) (by simp [act, settle, h])

end Ticket

namespace Hub

variable {w : Hub} {id : TicketId} {t : Ticket} {outcome : Outcome} {refund : Option Refund}

open Ticket (Act lastPoll taker? owed)

/-! ## What acts on a ticket of a hub come to -/

/-- The hub after an act on one of its tickets. -/
def act (w : Hub) (id : TicketId) : Act → Hub
  | .poll => (w.pollTicket id).1
  | .look => w
  | .drop => w.dropTicket id
  | .settle outcome refund => (w.settle id outcome refund).1

/-- The hub after some acts in order. -/
def acts (w : Hub) (id : TicketId) (past : List Act) : Hub := past.foldl (act · id ·) w

/-- What the owner of a ticket sees when looking whether its outcome is known. -/
def knows (w : Hub) (id : TicketId) : Bool := (w.ticket? id).any Ticket.isReady

/-- The outcomes that polls among some acts yield, in order. -/
def yields (w : Hub) (id : TicketId) : List Act → List Outcome
  | [] => []
  | a :: acts =>
    let yielded :=
      match a, (w.pollTicket id).2 with
      | .poll, .ready outcome => [outcome]
      | _, _ => []
    yielded ++ (w.act id a).yields id acts

/-- Where the references go that drops among some acts give back, in order. -/
def refunds (w : Hub) (id : TicketId) : List Act → List Refund
  | [] => []
  | a :: acts =>
    let refunded :=
      match a with
      | .drop => ((w.ticket? id).bind fun t => t.drop.2).toList
      | .poll | .look | .settle _ _ => []
    refunded ++ (w.act id a).refunds id acts

/-- The ticket waits: nobody has settled it and its owner has kept it. Whoever settles it now wakes the
`last` poll and nobody else. -/
structure Waits (w : Hub) (id : TicketId) (last : Option Nat) : Prop where
  poll : ∃ t, w.pollTicket id = (w.setTicket id t, .pending)
  look : w.knows id = false
  drop : ∃ t, w.dropTicket id = w.setTicket id t
  settle : ∀ outcome refund, ∃ t, w.settle id outcome refund =
    ({ w.setTicket id t with events := (last.map (.wake id)).toList ++ w.events }, true)

/-- The ticket has an outcome to yield, and takes no other. Whoever drops it now gives its reference
back. -/
structure Holds (w : Hub) (id : TicketId) (outcome : Outcome) (refund : Option Refund) : Prop where
  poll : ∃ t, w.pollTicket id = (w.setTicket id t, .ready outcome)
  look : w.knows id = true
  drop : ∃ t,
    match owed outcome refund with
    | none => w.dropTicket id = w.setTicket id t
    | some refund => Returned (w.setTicket id t) refund (w.dropTicket id)
  settle : ∀ outcome refund, w.settle id outcome refund = (w, false)

/-- The ticket has nothing to yield and nothing to give back, and takes no outcome. -/
structure Empty (w : Hub) (id : TicketId) : Prop where
  poll : ∃ t, w.pollTicket id = (w.setTicket id t, .over)
  look : w.knows id = false
  drop : ∃ t, w.dropTicket id = w.setTicket id t
  settle : ∀ outcome refund, w.settle id outcome refund = (w, false)

/-- Whoever sleeps on a ticket by a poll is woken by one event. -/
theorem wake_setTicket (w : Hub) (id : TicketId) (t : Ticket) (last : Option Nat) :
    (w.setTicket id t).wake id (last.map .poll) =
      { w.setTicket id t with events := (last.map (.wake id)).toList ++ w.events } := by
  rw [← (SameBut.setTicket w id t).events]
  cases last <;> rfl

theorem waits_of_state (found : w.ticket? id = some t) {last : Option Nat}
    (h : t.state = .waiting (last.map .poll)) : w.Waits id last := by
  refine ⟨⟨t.poll.1, ?_⟩, ?_, ⟨t.drop.1, ?_⟩, fun o r => ⟨{ t with state := .settled o r }, ?_⟩⟩
  · simp [pollTicket, found, Ticket.poll, Ticket.take, h]
  · simp [knows, found, Ticket.isReady, h]
  · simp [dropTicket, found, Ticket.drop, h]
  · rw [← wake_setTicket]
    simp [settle, found, Ticket.settle_of_waiting h]

theorem holds_of_state (found : w.ticket? id = some t) (h : t.state = .settled outcome refund) :
    w.Holds id outcome refund := by
  have hwaiting : t.isWaiting = false := by simp [Ticket.isWaiting, h]
  refine ⟨⟨t.poll.1, ?_⟩, ?_, ⟨t.drop.1, ?_⟩, fun o r => ?_⟩
  · simp [pollTicket, found, Ticket.poll, Ticket.take, h]
  · simp [knows, found, Ticket.isReady, h]
  · have hdrop := fun t' r => returned_refund (w.setTicket id t') r
    cases outcome with
    | ok link => cases refund <;> simp [dropTicket, found, Ticket.drop, h, owed, hdrop]
    | error e => simp [dropTicket, found, Ticket.drop, h, owed]
  · simp [settle, found, Ticket.settle_of_not_isWaiting hwaiting]

theorem empty_of_isOver (found : w.ticket? id = some t) (h : t.IsOver) : w.Empty id := by
  refine ⟨⟨t.poll.1, ?_⟩, ?_, ⟨t, ?_⟩, fun o r => ?_⟩
  · rcases h with ⟨o, ho⟩ | ⟨o, ho⟩ <;> simp [pollTicket, found, Ticket.poll, Ticket.take, ho]
  · rcases h with ⟨o, ho⟩ | ⟨o, ho⟩ <;> simp [knows, found, Ticket.isReady, ho]
  · rcases h with ⟨o, ho⟩ | ⟨o, ho⟩ <;> simp [dropTicket, found, Ticket.drop, ho]
  · simp [settle, found, Ticket.settle_of_not_isWaiting h.not_isWaiting]

/-! ## The ticket of the hub after some acts -/

theorem ticket?_act (found : w.ticket? id = some t) (a : Act) :
    (w.act id a).ticket? id = some (t.act a) := by
  cases a with
  | poll =>
    simp only [act, pollTicket, found]
    exact ticket?_setTicket found _
  | look => exact found
  | drop =>
    simp only [act, dropTicket, found]
    split
    · rename_i t' hdrop
      exact (ticket?_setTicket found t').trans (by rw [Ticket.act, hdrop])
    · rename_i t' r hdrop
      rw [(returned_refund _ r).tickets, ticket?_setTicket found t', Ticket.act, hdrop]
  | settle o r =>
    simp only [act, settle, found, Option.bind_some, Ticket.act]
    cases hs : t.settle o r with
    | none => exact found
    | some x =>
      obtain ⟨t', sleeper⟩ := x
      have hwake : ((w.setTicket id t').wake id sleeper).ticket? id =
          (w.setTicket id t').ticket? id := by
        unfold wake
        split <;> rfl
      exact hwake.trans (ticket?_setTicket found t')

theorem ticket?_acts (found : w.ticket? id = some t) (past : List Act) :
    (w.acts id past).ticket? id = some (t.acts past) := by
  induction past generalizing w t with
  | nil => exact found
  | cons a past ih => exact ih (ticket?_act found a)

/-! ## What a history changes -/

/-- These references went back, in this order. Nothing else has changed but the ticket. -/
inductive Refunded (id : TicketId) : Hub → List Refund → Hub → Prop where
  | none {w w' : Hub} (same : SameBut id w w') : Refunded id w [] w'
  | more {w v u w' : Hub} {r : Refund} {rs : List Refund} (same : SameBut id w v)
      (returned : Returned v r u) (rest : Refunded id u rs w') : Refunded id w (r :: rs) w'

theorem Refunded.after {v w' : Hub} {rs : List Refund} (same : SameBut id w v)
    (h : Refunded id v rs w') : Refunded id w rs w' := by
  cases h with
  | none same' => exact .none (same.trans same')
  | more same' returned rest => exact .more (same.trans same') returned rest

theorem Refunded.sameBut {w' : Hub} (h : Refunded id w [] w') : SameBut id w w' := by
  cases h with
  | none same => exact same

/-- Where nobody settles the ticket any more, only the references that drops send back change anything
beside it. -/
theorem refunded_acts (found : w.ticket? id = some t) {past : List Act}
    (quiet : t.isWaiting = false ∨ ∀ a ∈ past, a.isSettle = false) :
    Refunded id w (w.refunds id past) (w.acts id past) := by
  induction past generalizing w t with
  | nil => exact .none (.refl id w)
  | cons a past ih =>
    have hrest : Refunded id (w.act id a) ((w.act id a).refunds id past) ((w.act id a).acts id past) :=
      ih (ticket?_act found a) (quiet.imp (Ticket.not_isWaiting_act · a)
        fun h b hb => h b (List.mem_cons_of_mem a hb))
    change Refunded id w (_ ++ _) _
    cases a with
    | poll =>
      have hpoll : w.act id .poll = w.setTicket id t.poll.1 := by simp [act, pollTicket, found]
      exact hrest.after (hpoll ▸ .setTicket w id _)
    | look => exact hrest
    | drop =>
      cases hdrop : t.drop with
      | mk t' refund =>
        cases refund with
        | none =>
          have hact : w.act id .drop = w.setTicket id t' := by simp [act, dropTicket, found, hdrop]
          simp only [found, Option.bind_some, hdrop, Option.toList_none, List.nil_append]
          exact hrest.after (hact ▸ .setTicket w id t')
        | some r =>
          have hact : w.act id .drop = (w.setTicket id t').refund r := by
            simp [act, dropTicket, found, hdrop]
          simp only [found, Option.bind_some, hdrop, Option.toList_some, List.singleton_append]
          exact .more (.setTicket w id t') (hact ▸ returned_refund _ r) hrest
    | settle o r =>
      have hwaiting : t.isWaiting = false :=
        quiet.resolve_right fun h => by simpa [Act.isSettle] using h (.settle o r) (by simp)
      have hact : w.act id (.settle o r) = w := by
        simp [act, settle, found, Ticket.settle_of_not_isWaiting hwaiting]
      have hsame : SameBut id w (w.act id (.settle o r)) := by
        rw [hact]
        exact .refl id w
      exact hrest.after hsame

/-! ## What a history gives out -/

/-- A ticket that is over gives nothing out any more. -/
theorem gives_of_isOver (found : w.ticket? id = some t) (h : t.IsOver) (past : List Act) :
    w.yields id past = [] ∧ w.refunds id past = [] := by
  induction past generalizing w t with
  | nil => exact ⟨rfl, rfl⟩
  | cons a past ih =>
    obtain ⟨hyields, hrefunds⟩ := ih (ticket?_act found a) (h.act a)
    obtain ⟨t', hpoll⟩ := (empty_of_isOver found h).poll
    have hdrop : t.drop.2 = none := by
      rcases h with ⟨o, ho⟩ | ⟨o, ho⟩ <;> simp [Ticket.drop, ho]
    cases a <;> simp [yields, refunds, hyields, hrefunds, hpoll, found, hdrop]

/-- A ticket without an outcome gives nothing out as long as nobody settles it. -/
theorem gives_of_unsettled (found : w.ticket? id = some t) (h : t.outcome? = none) {past : List Act}
    (unsettled : ∀ a ∈ past, a.isSettle = false) :
    w.yields id past = [] ∧ w.refunds id past = [] := by
  induction past generalizing w t with
  | nil => exact ⟨rfl, rfl⟩
  | cons a past ih =>
    have hstate : (∃ last, t.state = .waiting last) ∨ t.state = .dropped none := by
      cases hs : t.state <;> simp_all [Ticket.outcome?]
    have hnone : (t.act a).outcome? = none := by
      cases a with
      | poll => rcases hstate with ⟨last, hs⟩ | hs <;>
          simp [Ticket.act, Ticket.poll, Ticket.take, Ticket.outcome?, hs]
      | look => exact h
      | drop => rcases hstate with ⟨last, hs⟩ | hs <;>
          simp [Ticket.act, Ticket.drop, Ticket.outcome?, hs]
      | settle o r => exact absurd (unsettled (.settle o r) (by simp)) (by simp [Act.isSettle])
    obtain ⟨hyields, hrefunds⟩ := ih (ticket?_act found a) hnone fun b hb =>
      unsettled b (List.mem_cons_of_mem a hb)
    have hpoll : (w.pollTicket id).2 = .pending ∨ (w.pollTicket id).2 = .over := by
      rcases hstate with ⟨last, hs⟩ | hs <;>
        simp [pollTicket, found, Ticket.poll, Ticket.take, hs]
    have hdrop : t.drop.2 = none := by
      rcases hstate with ⟨last, hs⟩ | hs <;> simp [Ticket.drop, hs]
    cases a with
    | poll => rcases hpoll with hp | hp <;> simp [yields, refunds, hyields, hrefunds, hp]
    | look | drop | settle => simp [yields, refunds, hyields, hrefunds, found, hdrop]

/-- A settled ticket gives out its outcome or its reference, as its first poll or drop decides. -/
theorem gives_of_settled (found : w.ticket? id = some t) (h : t.state = .settled outcome refund)
    (past : List Act) :
    w.yields id past = (if (taker? past).any Act.isPoll then [outcome] else []) ∧
      w.refunds id past =
        if (taker? past).any Act.isDrop then (owed outcome refund).toList else [] := by
  induction past generalizing w t with
  | nil => exact ⟨rfl, rfl⟩
  | cons a past ih =>
    have hnext := ticket?_act found a
    cases a with
    | poll =>
      obtain ⟨hyields, hrefunds⟩ := gives_of_isOver hnext (Ticket.isOver_act h (Or.inl rfl)) past
      obtain ⟨t', hpoll⟩ := (holds_of_state found h).poll
      simp [yields, refunds, hyields, hrefunds, hpoll, taker?, Act.isPoll, Act.isDrop]
    | look => exact ih hnext h
    | drop =>
      have hdrop : t.drop.2 = owed outcome refund := by
        cases outcome <;> simp [Ticket.drop, h, owed]
      obtain ⟨hyields, hrefunds⟩ := gives_of_isOver hnext (Ticket.isOver_act h (Or.inr rfl)) past
      simp [yields, refunds, hyields, hrefunds, found, hdrop, taker?, Act.isPoll, Act.isDrop]
    | settle o r => exact ih hnext (by simp [Ticket.act, Ticket.settle, h])

/-! ## Whole histories -/

/-- A ticket that was settled, after anything that is done to it: it holds its outcome until its first
poll or drop, which decides who gets it, and is empty from then on. -/
structure Decided (w : Hub) (id : TicketId) (outcome : Outcome) (refund : Option Refund) : Prop where
  unclaimed : ∀ past, taker? past = none → (w.acts id past).Holds id outcome refund
  taken : ∀ past, (taker? past).isSome = true → (w.acts id past).Empty id
  yields : ∀ past, w.yields id past = if (taker? past).any Act.isPoll then [outcome] else []
  refunds : ∀ past,
    w.refunds id past = if (taker? past).any Act.isDrop then (owed outcome refund).toList else []
  /-- Nothing but that reference changes anything beside the ticket. -/
  history : ∀ past, Refunded id w (w.refunds id past) (w.acts id past)
  /-- A link with a reference is unclaimed, yielded or given back: one of them, and once. -/
  conserved : ∀ past, (owed outcome refund).isSome = true →
    (if (w.acts id past).knows id then 1 else 0) + (w.yields id past).length +
      (w.refunds id past).length = 1

/-- A ticket that nobody has settled, after anything else that is done to it: it gives nothing out and
nothing changes beside it, it waits as long as it is kept, and it stays empty once it was dropped. -/
structure Undecided (w : Hub) (id : TicketId) : Prop where
  silent : ∀ past, (∀ a ∈ past, a.isSettle = false) →
    w.yields id past = [] ∧ w.refunds id past = [] ∧ SameBut id w (w.acts id past)
  kept : ∀ past, (∀ a ∈ past, a.isSettle = false) → (∀ a ∈ past, a.isDrop = false) →
    (w.acts id past).Waits id (lastPoll past)
  settled : ∀ past, (∀ a ∈ past, a.isSettle = false) → (∀ a ∈ past, a.isDrop = false) →
    ∀ outcome refund, ((w.acts id past).settle id outcome refund).1.Decided id outcome refund
  dropped : ∀ past, (∀ a ∈ past, a.isSettle = false) → (∃ a ∈ past, a.isDrop = true) →
    ∀ further, ((w.acts id past).acts id further).Empty id ∧
      (w.acts id past).yields id further = [] ∧ (w.acts id past).refunds id further = [] ∧
      SameBut id (w.acts id past) ((w.acts id past).acts id further)

theorem decided_of_state (found : w.ticket? id = some t) (h : t.state = .settled outcome refund) :
    w.Decided id outcome refund := by
  have hunclaimed : ∀ past, taker? past = none → (w.acts id past).Holds id outcome refund :=
    fun past hnone => holds_of_state (ticket?_acts found past) ((Ticket.settled_acts h past).1 hnone)
  have htaken : ∀ past, (taker? past).isSome = true → (w.acts id past).Empty id :=
    fun past hsome => empty_of_isOver (ticket?_acts found past) ((Ticket.settled_acts h past).2 hsome)
  have hwaiting : t.isWaiting = false := by simp [Ticket.isWaiting, h]
  refine ⟨hunclaimed, htaken, fun past => (gives_of_settled found h past).1,
    fun past => (gives_of_settled found h past).2, fun past => refunded_acts found (Or.inl hwaiting),
    fun past howed => ?_⟩
  obtain ⟨r, hr⟩ := Option.isSome_iff_exists.mp howed
  obtain ⟨hyields, hrefunds⟩ := gives_of_settled found h past
  rw [hyields, hrefunds, hr]
  cases htaker : taker? past with
  | none => simp [(hunclaimed past htaker).look]
  | some a =>
    have hlook := (htaken past (by simp [htaker])).look
    have htakes := Ticket.isPoll_or_isDrop_of_taker? htaker
    cases a <;> simp_all [Act.isPoll, Act.isDrop]

/-- A settled ticket is in the state that it was settled into. -/
theorem decided_settle (found : w.ticket? id = some t) {last : Option Sleeper}
    (h : t.state = .waiting last) (outcome : Outcome) (refund : Option Refund) :
    (w.settle id outcome refund).1.Decided id outcome refund := by
  refine decided_of_state (ticket?_act found (.settle outcome refund)) ?_
  simp [Ticket.act, Ticket.settle, h]

/-- Where nothing is sent back, nothing changes beside the ticket. -/
theorem sameBut_acts (found : w.ticket? id = some t) {past : List Act}
    (quiet : t.isWaiting = false ∨ ∀ a ∈ past, a.isSettle = false)
    (none : w.refunds id past = []) : SameBut id w (w.acts id past) := by
  have hrefunded := refunded_acts found quiet
  rw [none] at hrefunded
  exact hrefunded.sameBut

/-- A ticket is settled at most once, which wakes its last poll and no other, and the outcome goes to
its first poll since then. The reference that comes with a link goes back if the ticket is dropped
before that poll, and only then. A ticket that is dropped before it is settled refuses the outcome.
Nothing else that is done to a ticket changes anything beside it. -/
theorem oneShot_acts (w : Hub) (id : TicketId) :
    (w.ticket? id = some .fresh → w.Undecided id) ∧
      ∀ outcome refund, w.ticket? id = some (.ready outcome refund) →
        w.Decided id outcome refund := by
  refine ⟨fun found => ?_, fun outcome refund found => decided_of_state found rfl⟩
  refine ⟨fun past unsettled => ?_, fun past unsettled kept => ?_,
    fun past unsettled kept outcome refund => ?_, fun past unsettled dropped further => ?_⟩
  · obtain ⟨hyields, hrefunds⟩ := gives_of_unsettled found rfl unsettled
    exact ⟨hyields, hrefunds, sameBut_acts found (Or.inr unsettled) hrefunds⟩
  · exact waits_of_state (ticket?_acts found past) (Ticket.waiting_acts unsettled kept).1
  · exact decided_settle (ticket?_acts found past) (Ticket.waiting_acts unsettled kept).1 outcome refund
  · have hfound := ticket?_acts found past
    have hover := Ticket.isOver_acts unsettled dropped
    obtain ⟨hyields, hrefunds⟩ := gives_of_isOver hfound hover further
    exact ⟨empty_of_isOver (ticket?_acts hfound further) (hover.acts further), hyields, hrefunds,
      sameBut_acts hfound (Or.inl hover.not_isWaiting) hrefunds⟩

/-- The owner of a ticket asks for its outcome twice, and then somebody settles it. -/
def settledOnceAsked : Hub :=
  (((sample.addLoose .fresh).1.acts (.loose 0) [.poll, .look, .poll]).settle (.loose 0)
    (.ok ⟨.brought "link", "link"⟩) (some (.mark "owner"))).1

/-- Two callers share a link, and the second has not claimed it. -/
def sharedByTwo : Hub :=
  sample.play [.acquire sampleKey, .runJob ⟨.made sampleKey 0, .create⟩, .acquire sampleKey]

/-- The second of two polls is woken and not the first, and a drop before the next one sends the
reference back once: one to a mark, and one to the handle that counted it. -/
theorem oneShot_acts_addLoose :
    (sample.addLoose .fresh).1.ticket? (.loose 0) = some .fresh ∧
    ((sample.addLoose .fresh).1.acts (.loose 0) [.poll, .look, .poll]).Waits (.loose 0) (some 1) ∧
    settledOnceAsked.events = [.wake (.loose 0) 1] ∧
    Refunded (.loose 0) settledOnceAsked [.mark "owner"]
      (settledOnceAsked.acts (.loose 0) [.look, .drop, .poll]) ∧
    (settledOnceAsked.acts (.loose 0) [.look, .drop, .poll]).events =
      [.refund "owner", .wake (.loose 0) 1] ∧
    (∃ link, sharedByTwo.ticket? (.forKey sampleKey 1) =
      some (.ready (.ok link) (some (.handle ⟨sampleKey, 0⟩)))) ∧
    Refunded (.forKey sampleKey 1) sharedByTwo [.handle ⟨sampleKey, 0⟩]
      (sharedByTwo.acts (.forKey sampleKey 1) [.look, .drop, .poll]) ∧
    (sharedByTwo.phase ⟨sampleKey, 0⟩).refs = 2 ∧
    ((sharedByTwo.acts (.forKey sampleKey 1) [.look, .drop, .poll]).phase ⟨sampleKey, 0⟩).refs = 1 ∧
    (sample.addLoose (.ready (.ok ⟨.brought "link", "link"⟩) none)).1.yields (.loose 0)
      [.look, .poll, .drop] = [.ok ⟨.brought "link", "link"⟩] := by
  have hfresh := (oneShot_acts (sample.addLoose .fresh).1 (.loose 0)).1 rfl
  have hready := (oneShot_acts (sample.addLoose (.ready (.ok ⟨.brought "link", "link"⟩) none)).1
    (.loose 0)).2 _ _ rfl
  have hshared := (oneShot_acts sharedByTwo (.forKey sampleKey 1)).2 _ _ rfl
  refine ⟨rfl, hfresh.kept [.poll, .look, .poll] (by decide) (by decide), by decide, ?_, by decide,
    ⟨_, rfl⟩, ?_, by decide, by decide, ?_⟩
  · exact (hfresh.settled [.poll, .look, .poll] (by decide) (by decide) _ _).history
      [.look, .drop, .poll]
  · exact hshared.history [.look, .drop, .poll]
  · exact hready.yields [.look, .poll, .drop]

end Hub

end SharedLinks
