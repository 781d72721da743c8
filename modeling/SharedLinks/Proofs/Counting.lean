import SharedLinks.Proofs.Effects
import SharedLinks.Proofs.Standings
import SharedLinks.Proofs.Weights

/-!
# Every call keeps the weight of a hub

Outcomes that arrive, jobs, calls for links, releases and teardowns change counters and what they count
together, so that under any `Weights` a hub weighs after a move what it weighed before (`drifts_move`).
Two things have to be known of the hub: a job awaits a link only as long as its creation is due, and
whoever moves tickets to another handle finds none that is live.
-/

namespace SharedLinks

namespace Hub

variable {W : Weights} {w : Hub} {k : Key}

/-! ## Outcomes of creations -/

theorem phase_of_outline {w w' : Hub} (h : w'.outline = w.outline) (hd : HandleId) :
    w'.phase hd = w.phase hd :=
  congrFun (congrArg Outline.phase h) hd

/-- A link that reaches its handle makes a live handle, or counts as a close. -/
theorem drifts_fulfil (W : Weights) (w : Hub) (h : HandleId) (link : Link) :
    Drifts W W.live w (w.fulfil h link).1 := by
  have hcounted : ∀ n, Drifts W W.live w ((w.note n).count .closes) := fun n =>
    ((drifts_note W w n).after (drifts_count W _ _)).cast W.close
  unfold fulfil
  cases hp : w.phase h with
  | live => exact hcounted _
  | orphaned => exact hcounted _
  | closed => exact hcounted _
  | pending queue =>
    have hgrant := drifts_grant W w h link queue
    have hphase := phase_of_outline (outline_grant w h link queue) h
    rw [hp] at hphase
    dsimp only
    generalize hg : w.grant h link queue = g at hgrant hphase
    obtain ⟨w₁, refs⟩ := g
    dsimp only at hgrant hphase ⊢
    have hnoted := hgrant.light (drifts_note W w₁ (.created h.key link.identity refs))
    split
    · rename_i hrefs
      subst hrefs
      refine (((((hnoted.trans (drifts_setPhase W (w := w₁.note _) hphase Phase.noConfusion .closed)).light
        (drifts_note W _ _)).light (drifts_forget W _ _ _)).trans (drifts_count W _ _))).cast ?_
      simp [Weights.phase, W.close]
    · refine (hnoted.trans
        (drifts_setPhase W (w := w₁.note _) hphase Phase.noConfusion (.live link refs))).cast ?_
      have hbalance := W.grant
      simp only [Weights.phase]
      grind

/-- A failure that reaches its handle is counted. -/
theorem drifts_fail (W : Weights) (w : Hub) (h : HandleId) (failure : String) :
    Drifts W W.due w (w.fail h failure) := by
  unfold fail
  extract_lets error w₁
  have hcounted : Drifts W W.due w w₁ :=
    ((drifts_note W w _).after (drifts_count W _ _)).cast W.fail
  cases hp : w₁.phase h with
  | live => exact hcounted
  | orphaned => exact hcounted
  | closed => exact hcounted
  | pending queue =>
    refine (((hcounted.trans (drifts_setPhase W hp Phase.noConfusion .closed)).light
      (drifts_forget W _ _ _)).light (drifts_refuse W _ _ _)).cast ?_
    simp [Weights.phase]

/-! ## Jobs -/

theorem drifts_beginClose (W : Weights) (w : Hub) (h : HandleId) (link : Link) :
    Drifts W 0 w (w.beginClose h link) :=
  (drifts_note W w _).light (drifts_emit W _ _)

theorem drifts_awaitClose (W : Weights) (w : Hub) (h : HandleId) (link : Link) :
    Drifts W 0 w (w.awaitClose h link).1 := by
  unfold awaitClose
  split
  · exact .refl W w
  · exact drifts_note W w _
  · exact ((drifts_count W w _).light (drifts_note W _ _)).cast W.closeFailed

theorem drifts_workAwaitClose (W : Weights) (w : Hub) (j : Job) :
    Drifts W 0 w (w.workAwaitClose j).1 := by
  have h := drifts_awaitClose W w j.owner j.link
  unfold workAwaitClose
  split <;> simp_all

theorem drifts_workClose (W : Weights) (w : Hub) (j : Job) : Drifts W 0 w (w.workClose j).1 :=
  (drifts_beginClose W w _ _).light (drifts_workAwaitClose W _ j)

/-- The job awaits a link only if its creation is due. -/
def Awaited (w : Hub) (j : Job) : Prop :=
  j.stage = .awaitLink → ∀ c, w.creation? j.link.id = some c → c.delivered = false

/-- An answer that reaches its handle is due no more. -/
theorem drifts_markDelivered (W : Weights) {id : LinkId} {c : Creation}
    (found : w.creation? id = some c) (due : c.delivered = false) :
    Drifts W ((if c.making = .opened none then W.made else 0) - W.due) w (w.markDelivered id) := by
  refine (drifts_onCreation W found _).cast ?_
  simp [Weights.creation, Creation.isMade, due]

theorem drifts_work (W : Weights) {j : Job} (awaited : w.Awaited j) :
    Drifts W 0 w (w.work j).1 := by
  unfold work
  cases hstage : j.stage with
  | close => exact drifts_workClose W w j
  | awaitClose => exact drifts_workAwaitClose W w j
  | awaitLink =>
    dsimp only
    cases hmaking : w.making j.link.id with
    | shut => exact .refl W w
    | opened answer =>
      obtain ⟨c, hfound, hc⟩ := creation_of_making hmaking
      have hmarked := drifts_markDelivered W hfound (awaited hstage c hfound)
      rw [hc] at hmarked
      cases answer with
      | some failure =>
        refine (hmarked.trans (drifts_fail W _ _ _)).cast ?_
        rw [if_neg (by simp)]
        grind
      | none =>
        have hfulfilled := hmarked.trans (drifts_fulfil W (w.markDelivered j.link.id) j.owner j.link)
        have hdone : Drifts W 0 w ((w.markDelivered j.link.id).fulfil j.owner j.link).1 := by
          refine hfulfilled.cast ?_
          have hbalance := W.arrive
          simp only [if_pos]
          grind
        dsimp only
        split
        · rename_i w₁ hr
          rw [hr] at hdone
          exact hdone.light (drifts_workClose W w₁ j)
        · rename_i w₁ hr
          rw [hr] at hdone
          exact hdone

theorem drifts_spawn (W : Weights) {j : Job} (awaited : w.Awaited j) :
    Drifts W 0 w (w.spawn j) := by
  have h := drifts_work W awaited
  unfold spawn
  split
  · exact .of_eq rfl rfl rfl
  · split
    · rename_i w₁ hr
      rw [hr] at h
      exact h
    · rename_i w₁ stage hr
      rw [hr] at h
      exact h.light (.of_eq rfl rfl rfl)
  · exact .refl W w

theorem drifts_runJob (W : Weights) (awaited : ∀ j ∈ w.jobs, w.Awaited j) (id : JobId) :
    Drifts W 0 w (w.runJob id).1 := by
  unfold runJob
  split
  · exact .refl W w
  · rename_i j hj
    have hunready : Drifts W 0 w (w.unready id) := .of_eq rfl rfl rfl
    have h := hunready.light
      (drifts_work W (w := w.unready id) (awaited j (List.mem_of_find?_eq_some hj)))
    split
    · rename_i w₁ hr
      rw [hr] at h
      exact h.light (.of_eq rfl rfl rfl)
    · rename_i w₁ stage hr
      rw [hr] at h
      exact h.light (.of_eq rfl rfl rfl)

/-! ## Asking for links -/

/-- A creation that is requested is due, and its job awaits it. -/
theorem drifts_spawn_request (W : Weights) (w : Hub) (namer : Namer) (n : Notice) (k : Key)
    {c : Creation} (r : Request) (link : c.link.id = .made k (w.shelf k).creations.length)
    (undelivered : c.delivered = false) :
    Drifts W 0 w ((((({ w with namer := namer }.note n).count .creations).emit
      (.create c.link.id r)).onShelf k fun s => { s with creations := s.creations ++ [c] }).spawn
        ⟨⟨c.link.id, .create⟩, c.owner, c.link, .awaitLink⟩) := by
  have hnamed : Drifts W 0 w { w with namer := namer } := .of_eq rfl rfl rfl
  have hcounted : Drifts W (W.counter .creations) w
      ((({ w with namer := namer }.note n).count .creations).emit (.create c.link.id r)) :=
    ((hnamed.light (drifts_note W _ n)).after (drifts_count W _ _)).light (drifts_emit W _ _)
  have hrequest := outline_request (c := c) (r := r)
    (({ w with namer := namer }.note n).count .creations) k link
  have hadded := hcounted.trans (drifts_addCreation W _ k c)
  generalize ((({ w with namer := namer }.note n).count .creations).emit
    (.create c.link.id r)).onShelf k (fun s => { s with creations := s.creations ++ [c] }) = w₁
      at hadded hrequest ⊢
  refine (hadded.light (drifts_spawn W fun _ c' hc' => ?_)).cast ?_
  · have hnew : w₁.creation? c.link.id = some c := by
      change w₁.outline.creation? c.link.id = some c
      rw [hrequest]
      exact if_pos rfl
    obtain rfl := Option.some.inj (hnew.symm.trans hc')
    exact undelivered
  · simp [Weights.creation, undelivered, W.create]

theorem drifts_startCreation (W : Weights) (w : Hub) (h : HandleId) (k : Key) :
    Drifts W 0 w (w.startCreation h k) := by
  unfold startCreation
  extract_lets request index prospect link creation
  exact drifts_spawn_request W w w.namer.advance (.creating h.key request.linkName request.target) k
    (c := creation) request rfl rfl

theorem drifts_openHandle (W : Weights) (w : Hub) (k : Key) (queue : List TicketId) :
    Drifts W 0 w (w.openHandle k queue) :=
  (((drifts_addHandle W w k (.pending queue)).light (drifts_setServing W _ k _)).light
    (drifts_startCreation W _ _ k)).cast rfl

/-- A handle that gives out a ticket counts a hit or a wait for the call. -/
theorem drifts_join (W : Weights) (w : Hub) (h : HandleId) :
    Drifts W (if (w.join h).2.isSome then - W.counter .acquires else 0) w (w.join h).1 := by
  have hhit := W.hit
  have hwait := W.wait
  unfold join
  cases hp : w.phase h with
  | orphaned => exact .refl W w
  | closed => exact .refl W w
  | live link refs =>
    have hphase : ∀ t, (w.addTicket h.key t).phase h = .live link refs := fun t =>
      (phase_of_outline (outline_addTicket w h.key t) h).trans hp
    refine (((drifts_addTicket W w h.key (by simp [Ticket.ready, Ticket.isWaiting])).trans
      (drifts_setPhase W (hphase _) Phase.noConfusion _)).trans (drifts_count W _ _)).cast ?_
    simp only [Weights.phase_live_succ, Weights.ticket, Ticket.ready, Bool.false_and,
      Option.isSome_some, if_pos]
    grind
  | pending queue =>
    have hphase : ∀ t, (w.addTicket h.key t).phase h = .pending queue := fun t =>
      (phase_of_outline (outline_addTicket w h.key t) h).trans hp
    refine (((drifts_addTicket W w h.key fun _ => rfl).trans
      (drifts_setPhase W (hphase _) Phase.noConfusion _)).trans (drifts_count W _ _)).cast ?_
    simp only [Weights.phase, Weights.ticket, Ticket.fresh, Ticket.isServed, Ticket.outcome?,
      Option.isSome_some, if_pos]
    grind

theorem drifts_joinFresh (W : Weights) (w : Hub) (k : Key) :
    Drifts W (- W.counter .acquires) w (w.joinFresh k).1 := by
  have hwait := W.wait
  refine (((drifts_addTicket W w k fun _ => rfl).trans (drifts_count W _ _)).light
    (drifts_openHandle W _ k _)).cast ?_
  simp only [Weights.ticket, Ticket.fresh, Ticket.isServed, Ticket.outcome?]
  grind

/-- Every call for a link is a hit or a wait. -/
theorem drifts_acquire (W : Weights) (w : Hub) (k : Key) : Drifts W 0 w (w.acquire k).1 := by
  have hcounted := drifts_count W w .acquires
  unfold acquire
  extract_lets w₁
  have hbalance : W.counter .acquires + - W.counter .acquires = 0 := by grind
  cases w₁.serving k with
  | none => exact (hcounted.trans (drifts_joinFresh W w₁ k)).cast hbalance
  | some h =>
    have hjoin := drifts_join W w₁ h
    dsimp only
    generalize w₁.join h = r at hjoin
    obtain ⟨w₂, id⟩ := r
    cases id with
    | some id => exact (hcounted.trans hjoin).cast hbalance
    | none =>
      refine ((((hcounted.light hjoin).light (drifts_note W _ _)).light (drifts_purge W _)).trans
        (drifts_joinFresh W _ k)).cast hbalance

/-- Tickets move to a handle that has no link yet, or to a new one. -/
theorem drifts_requeue (W : Weights) (w : Hub) (k : Key) (ids : List TicketId)
    (free : w.serving k = none) : Drifts W 0 w (w.requeue k ids) := by
  unfold requeue
  split
  · exact .refl W w
  · simp only [free]
    exact drifts_openHandle W w k _

/-! ## Giving references back -/

theorem drifts_giveBack (W : Weights) (w : Hub) (h : HandleId) (report : Bool) :
    Drifts W 0 w (w.giveBack h report).1 := by
  have hrelease := W.release
  have hclose := W.close
  unfold giveBack
  split
  · rename_i link refs hp
    refine ((drifts_setPhase W hp Phase.noConfusion _).trans (drifts_count W _ _)).cast ?_
    rw [W.phase_live_succ link (refs + 1)]
    grind
  · rename_i link hp
    refine ((((((drifts_setPhase W hp Phase.noConfusion .closed).light (drifts_forget W _ _ _)).trans
      (drifts_count W _ .releases)).trans (drifts_count W _ .closes)).light
        (drifts_spawn W fun hs => ?_))).cast ?_
    · contradiction
    · have hone := W.phase_live_succ link 0
      have hzero := W.phase_live_zero link
      simp only [Weights.phase] at hone hzero ⊢
      grind
  · rename_i refs hp
    refine ((drifts_setPhase W hp Phase.noConfusion _).trans (drifts_count W _ _)).cast ?_
    rw [W.phase_orphaned_succ (refs + 1)]
    grind
  · rename_i hp
    refine ((((drifts_setPhase W hp Phase.noConfusion .closed).light (drifts_forget W _ _ _)).trans
      (drifts_count W _ .releases)).light (drifts_note W _ _)).cast ?_
    have hone := W.phase_orphaned_succ 0
    have hzero := W.phase_orphaned_zero
    simp only [Weights.phase] at hone hzero ⊢
    grind
  · dsimp only
    split
    · exact ((drifts_count W w _).light (drifts_note W _ _)).cast W.unbalanced
    · exact .refl W w

theorem drifts_giveBackFirst (W : Weights) {w w' : Hub} {hs : List HandleId}
    (h : w.giveBackFirst hs = some w') : Drifts W 0 w w' := by
  induction hs generalizing w with
  | nil => simp [giveBackFirst] at h
  | cons hd hs ih =>
    have hback := drifts_giveBack W w hd false
    rw [giveBackFirst] at h
    split at h
    · rename_i w₁ hr
      rw [hr] at hback
      obtain rfl := Option.some.inj h
      exact hback
    · exact ih h

theorem drifts_release (W : Weights) (w : Hub) (k : Key) : Drifts W 0 w (w.release k).1 := by
  unfold release
  split
  · rename_i w₁ hr
    exact drifts_giveBackFirst W hr
  · split
    · exact drifts_note W w _
    · split
      · exact ((drifts_note W w _).light (drifts_purge W _)).light (drifts_note W _ _)
      · exact drifts_giveBack W w _ true

/-! ## The life of a ticket -/

/-- Whoever asks a ticket for its outcome does not change it. -/
theorem weight_take (W : Weights) (t : Ticket) (sleeper : Sleeper) :
    W.ticket (t.take sleeper).1 = W.ticket t ∧
      ((t.isWaiting = true → t.waited = true) →
        (t.take sleeper).1.isWaiting = true → (t.take sleeper).1.waited = true) := by
  obtain ⟨state, waited, polls⟩ := t
  cases state <;>
    exact ⟨rfl, fun h hw => by simp_all [Ticket.take, Ticket.isWaiting]⟩

/-- Giving a ticket up does not change what it was settled with. -/
theorem weight_drop (W : Weights) (t : Ticket) :
    W.ticket t.drop.1 = W.ticket t ∧
      ((t.isWaiting = true → t.waited = true) → t.drop.1.isWaiting = true →
        t.drop.1.waited = true) := by
  obtain ⟨state, waited, polls⟩ := t
  cases state with
  | settled outcome refund =>
    cases outcome <;> exact ⟨rfl, fun h hw => by simp_all [Ticket.drop, Ticket.isWaiting]⟩
  | waiting | yielded | dropped =>
    exact ⟨rfl, fun h hw => by simp_all [Ticket.drop, Ticket.isWaiting]⟩

theorem drifts_parkTicket (W : Weights) (w : Hub) (id : TicketId) :
    Drifts W 0 w (w.parkTicket id).1 := by
  unfold parkTicket
  cases ht : w.ticket? id with
  | none => exact .refl W w
  | some t =>
    obtain ⟨hweight, hwaited⟩ := weight_take W t .thread
    exact drifts_setTicket W ht hwaited fun _ => by rw [hweight, UInt64.add_zero]

theorem drifts_pollTicket (W : Weights) (w : Hub) (id : TicketId) :
    Drifts W 0 w (w.pollTicket id).1 := by
  unfold pollTicket
  cases ht : w.ticket? id with
  | none => exact .refl W w
  | some t =>
    obtain ⟨hweight, hwaited⟩ := weight_take W t (.poll t.polls)
    refine drifts_setTicket W ht hwaited fun _ => ?_
    rw [UInt64.add_zero]
    exact hweight

theorem drifts_dropTicket (W : Weights) (w : Hub) (id : TicketId) :
    Drifts W 0 w (w.dropTicket id) := by
  unfold dropTicket
  cases ht : w.ticket? id with
  | none => exact .refl W w
  | some t =>
    obtain ⟨hweight, hwaited⟩ := weight_drop W t
    have hset : Drifts W 0 w (w.setTicket id t.drop.1) :=
      drifts_setTicket W ht hwaited fun _ => by rw [hweight, UInt64.add_zero]
    dsimp only
    split
    · rename_i t' hr
      rw [hr] at hset
      exact hset
    · rename_i t' refund hr
      rw [hr] at hset
      cases refund with
      | handle h => exact (hset.light (drifts_note W _ _)).light (drifts_giveBack W _ h false)
      | mark name => exact hset.light (drifts_emit W _ _)

/-! ## Answers of the provider -/

theorem drifts_rouse (W : Weights) (w : Hub) (id : LinkId) (stage : Stage) :
    Drifts W 0 w (w.rouse id stage) := .of_eq rfl rfl rfl

/-- Whether a link could be made matters only once the answer has reached its handle. -/
theorem drifts_answerMaking (W : Weights) {id : LinkId}
    (due : ∀ c, w.creation? id = some c → c.making = .shut → c.delivered = false)
    (failure : Option String) :
    Drifts W 0 w (((w.answerMaking id failure).map Prod.fst).getD w) := by
  unfold answerMaking
  cases hc : w.creation? id with
  | none => exact .refl W w
  | some c =>
    dsimp only [Option.map_some, Option.getD_some]
    cases hmaking : c.making with
    | opened answer => exact .refl W w
    | shut =>
      refine ((drifts_onCreation W hc _).light (drifts_rouse W _ _ _)).cast ?_
      simp [Weights.creation, due c hc hmaking]

theorem drifts_answerClosing (W : Weights) (w : Hub) (id : LinkId) (failure : Option String) :
    Drifts W 0 w (((w.answerClosing id failure).map Prod.fst).getD w) := by
  unfold answerClosing
  cases hc : w.creation? id with
  | none => exact .refl W w
  | some c =>
    dsimp only [Option.map_some, Option.getD_some]
    cases c.closing with
    | opened answer => exact .refl W w
    | shut =>
      refine ((drifts_onCreation W hc _).light (drifts_rouse W _ _ _)).cast ?_
      simp [Weights.creation, Creation.isMade]

/-! ## Teardowns -/

theorem drifts_awaitPart (W : Weights) (w : Hub) (h : HandleId) (link : Link) :
    Drifts W 0 w (w.awaitPart h link).1 := by
  have hawait := drifts_awaitClose W w h link
  unfold awaitPart
  split <;> simp_all

theorem drifts_awaitParts (W : Weights) (w : Hub) (parts : List Part) :
    Drifts W 0 w (w.awaitParts parts).1 := by
  induction parts generalizing w with
  | nil => exact .refl W w
  | cons part parts ih =>
    cases part with
    | closing h link => exact (drifts_awaitPart W w h link).light (ih _)
    | done result => exact ih w

/-- A handle that is out of service is closed, and its tickets move to a new one. -/
theorem drifts_forceClose (W : Weights) {h : HandleId} (free : w.serving h.key = none) :
    Drifts W 0 w (w.forceClose h).1 := by
  unfold forceClose
  cases hp : w.phase h with
  | orphaned => exact .refl W w
  | closed => exact .refl W w
  | live link refs =>
    have hphase : (w.note (.orphaning h.key refs)).phase h = .live link refs := hp
    refine ((((((drifts_note W w _).trans (drifts_setPhase W hphase Phase.noConfusion
      (.orphaned refs))).trans (drifts_count W _ .forceCloses)).light (drifts_note W _ _)).light
        (drifts_beginClose W _ h link)).light (drifts_awaitPart W _ h link)).cast ?_
    have hforce := W.force
    rw [W.phase_live]
    grind
  | pending queue =>
    have hended : Drifts W 0 w ((w.setPhase h .closed).forget h.key h) :=
      ((drifts_setPhase W hp Phase.noConfusion .closed).light (drifts_forget W _ _ _)).cast (by
        simp [Weights.phase])
    cases queue with
    | nil => exact hended
    | cons id ids =>
      refine (hended.light (drifts_note W _ _)).light (drifts_requeue W _ _ _ ?_)
      -- a key without a handle in service stays so when one of its handles is taken out
      change ((w.setPhase h .closed).forget h.key h).serving h.key = none
      have hserving : (w.setPhase h .closed).serving h.key = none := by
        rw [serving_eq, setPhase_eq, shelf_onShelf_self]
        exact free
      unfold forget
      split
      · rw [hserving, if_neg (by simp), serving_eq, shelf_onShelf_self]
        obtain ⟨o, ho⟩ := ((w.setPhase h .closed).shelf h.key).dropOrphan_eq h
        rw [ho]
        exact hserving
      · exact hserving

theorem drifts_forceCloseEach (W : Weights) {w₀ : Hub} (held : w₀.isHeld = true)
    (orderly : ∀ k, (w₀.shelf k).Orderly k) {hs : List HandleId} (out : Withdrawn w₀ w hs) :
    Drifts W 0 w (w.forceCloseEach hs).1 := by
  induction hs generalizing w with
  | nil => exact .refl W w
  | cons h hs ih =>
    have hfree : w.serving h.key = none := by
      rw [serving_eq, out.shelf h (by simp)]
      rfl
    exact (drifts_forceClose W hfree).light (ih (out.forceClose held orderly).2.2.2)

theorem drifts_unlinkAll (W : Weights) (w : Hub) (wish : List Key) :
    Drifts W 0 w (w.unlinkAll wish).1 := by
  unfold unlinkAll
  dsimp only
  generalize w.servedInOrder wish = ks
  induction ks generalizing w with
  | nil => exact .refl W w
  | cons k ks ih => exact (drifts_unlink W w k).light (ih _)

theorem drifts_noteIfAbandoned (W : Weights) (w : Hub) : Drifts W 0 w w.noteIfAbandoned := by
  unfold noteIfAbandoned
  split
  · exact .refl W w
  · exact drifts_note W w _

theorem drifts_concludeTeardown (W : Weights) (w : Hub) (i : Nat) (scope : Scope)
    (parts : List Part) : Drifts W 0 w (w.concludeTeardown i scope parts).1 := by
  unfold concludeTeardown
  split
  · exact .of_eq rfl rfl rfl
  · have hresult : Drifts W 0 w
        ((w.teardownResult scope parts).1.setTeardown i scope .finished) := by
      unfold teardownResult
      split <;> exact .of_eq rfl rfl rfl
    exact hresult.light (drifts_noteIfAbandoned W _)

theorem drifts_pollTeardown (W : Weights) (h : w.Sound) (i : Nat) (wish : List Key) :
    Drifts W 0 w (w.pollTeardown i wish).1 := by
  unfold pollTeardown
  split
  · rename_i scope ht
    obtain rfl : scope = .all := h.scope _ (List.mem_of_getElem? ht)
    have hheld : w.isHeld = true := by
      rw [isHeld, Bool.or_eq_true, List.any_eq_true]
      exact Or.inr ⟨_, List.mem_of_getElem? ht, rfl⟩
    have hunlinked := (drifts_unlinkAll W w wish).light
      (drifts_note W _ (.tearingDown (w.unlinkAll wish).2.length))
    exact (hunlinked.light (drifts_forceCloseEach W hheld h.orderly
      (withdrawn_unlinkAll h.orderly wish _).1)).light (drifts_concludeTeardown W _ _ _ _)
  · exact (drifts_awaitParts W w _).light (drifts_concludeTeardown W _ _ _ _)
  · exact .refl W w
  · exact .refl W w
  · exact .refl W w

theorem drifts_dropTeardown (W : Weights) (w : Hub) (i : Nat) :
    Drifts W 0 w (w.dropTeardown i) := by
  unfold dropTeardown
  split
  · exact .refl W w
  · rename_i t _
    have hdropped : Drifts W 0 w (w.setTeardown i t.scope .dropped) := .of_eq rfl rfl rfl
    dsimp only
    split
    · exact hdropped.light (drifts_noteIfAbandoned W _)
    · exact hdropped

/-! ## Moves -/

/-- Every move of a hub keeps its weight. -/
theorem drifts_move (W : Weights) (h : w.Sound) (tidy : w.outline.Tidy) (m : Move) :
    Drifts W 0 w (w.move m) := by
  have hasked : ∀ f : Hub → Hub, Drifts W 0 w (f w) → Drifts W 0 w (w.asked f) :=
    fun f hf => asked_induction (fun _ => .refl W w) fun _ => hf
  cases m with
  | acquire k => exact hasked (fun w => (w.acquire k).1) (drifts_acquire W w k)
  | release k => exact hasked (fun w => (w.release k).1) (drifts_release W w k)
  | poll k n => exact drifts_pollTicket W w _
  | park k n => exact drifts_parkTicket W w _
  | drop k n => exact drifts_dropTicket W w _
  | tearDown => exact hasked (fun w => w.addTeardown .all) (.of_eq rfl rfl rfl)
  | pollTeardown i wish => exact drifts_pollTeardown W h i wish
  | dropTeardown i => exact drifts_dropTeardown W w i
  | runJob id =>
    refine drifts_runJob W (fun j hj hs c hc => ?_) id
    -- a job that awaits a link awaits one that is due
    have hstage : Stage.awaitLink ∈ Job.stages w.outline.jobs j.link.id :=
      hs ▸ Job.mem_stages hj
    exact ((tidy.stands _ c hc).of_awaitLink hstage).1
  | abortJob id => exact .of_eq rfl rfl rfl
  | answerMaking id failure =>
    refine drifts_answerMaking W (fun c hc hs => ?_) failure
    by_contra hd
    exact (tidy.stands id c hc).answered (by simpa using hd) hs
  | answerClosing id failure => exact drifts_answerClosing W w id failure
  | clone => exact hasked addClone (.of_eq rfl rfl rfl)
  | dropClone =>
    change Drifts W 0 w w.dropClone
    unfold dropClone
    split
    · exact .refl W w
    · have hfewer : Drifts W 0 w { w with clones := w.clones - 1 } := .of_eq rfl rfl rfl
      exact hfewer.light (drifts_noteIfAbandoned W _)

end Hub

end SharedLinks
