import SharedLinks.Proofs.Outliving
import SharedLinks.Proofs.Quiescence

/-!
# Letting go of a hub

All callers may let go of a hub at any time. What needs no caller goes on as if they had kept it
(`outlives_play`). In particular a link or a failure still reaches all who wait for it
(`Arrival.settles`), and the last unclaimed ticket of a link still closes it when it is dropped, once
and for all (`closes_drop`).
-/

namespace SharedLinks

/-! ## Outcomes still arrive -/

namespace Shelf

/-- All who waited on the shelf have got the outcome of the creation with this number. -/
def Settles (k : Key) (i : Nat) (s s' : Shelf) : Prop :=
  ∃ (c : Creation) (outcome : Outcome) (refund : Option Refund), s.creations[i]? = some c ∧
    (c.making = .opened none ∧ outcome = .ok c.link ∨ ∃ failure, c.making = .opened (some failure) ∧
      outcome = .error (.creation k (.message failure))) ∧
    ∀ (n : Nat) (t : Ticket), s.tickets[n]? = some t → t.isWaiting = true →
      s'.tickets[n]? = some { t with state := .settled outcome refund }

/-- An outcome that arrives at a pending handle goes to all who wait. -/
theorem Arrival.settles {k : Key} {i : Nat} {s s' : Shelf} {woken : List (Nat × Nat)}
    (arrival : Arrival k i s woken s') {queue : List TicketId} (hp : s.phase i = .pending queue) :
    Settles k i s s' := by
  have hsettle : ∀ (outcome : Outcome) (refund : Option Refund) (n : Nat) (t : Ticket),
      s.tickets[n]? = some t → t.isWaiting = true →
        (s.settle outcome refund).tickets[n]? = some { t with state := .settled outcome refund } := by
    intro outcome refund n t ht hw
    change (s.tickets.map _)[n]? = _
    rw [List.getElem?_map, ht, Option.map_some, Ticket.accept_of_isWaiting hw]
  cases arrival with
  | granted pending found made wanted => exact ⟨_, _, _, found, Or.inl ⟨made, rfl⟩, hsettle _ _⟩
  | unwanted pending found made gone =>
    refine ⟨_, _, none, found, Or.inl ⟨made, rfl⟩, fun n t ht hw => ?_⟩
    rw [waiting, List.countP_eq_zero] at gone
    exact absurd hw (gone t (List.mem_of_getElem? ht))
  | failed pending found made =>
    exact ⟨_, _, _, found, Or.inr ⟨_, made, rfl⟩, hsettle _ _⟩
  | late closed found undelivered =>
    rw [hp] at closed
    contradiction

end Shelf

namespace Hub

variable {w w' : Hub} {k : Key} {i n : Nat} {id : LinkId}

/-- A job that awaits a link hands over the answer that it finds. -/
theorem work_arrived (held : w.isHeld = true) (h : (w.shelf k).Orderly k) {j : Job}
    (hj : (w.shelf k).Backs k i j) (hstage : j.stage = .awaitLink)
    (hmaking : w.making (.made k i) ≠ .shut) :
    ∃ woken, Shelf.Arrival k i (w.shelf k) woken ((w.work j).1.shelf k) := by
  obtain ⟨⟨c, found, link, fresh⟩, -, howner, -, -⟩ := hj
  have hlink : j.link.id = .made k i := by rw [← link, h.recorded.link i c found]
  have hgate : w.making (.made k i) = c.making := by
    rw [making, creation?, found]
    rfl
  rw [hgate] at hmaking
  unfold work
  rw [hstage, hlink, howner]
  dsimp only
  rw [hgate]
  cases hm : c.making with
  | shut => exact absurd hm hmaking
  | opened answer =>
    cases answer with
    | some failure =>
      obtain ⟨woken, hw⟩ := fail_arrived held h found hm (fresh hstage)
      exact ⟨woken, hw.arrival⟩
    | none =>
      obtain ⟨woken, hw, -⟩ := fulfil_arrived held h found hm (fresh hstage)
      rw [link] at hw
      dsimp only
      generalize (w.markDelivered (.made k i)).fulfil ⟨k, i⟩ j.link = r at hw
      obtain ⟨w', again⟩ := r
      cases again with
      | false => exact ⟨woken, hw.arrival⟩
      | true =>
        refine ⟨woken, ?_⟩
        change Shelf.Arrival k i (w.shelf k) woken ((w'.workClose j).1.shelf k)
        rw [shelf_workClose]
        exact hw.arrival

/-- One run of the job for a pending handle settles all who wait, once the provider has answered. -/
theorem settles_runJob (h : w.Sound) (held : w.isHeld = true) {queue : List TicketId}
    (hp : w.phase ⟨k, i⟩ = .pending queue) (hj : ∃ j ∈ w.jobs, j.id = ⟨.made k i, .create⟩)
    (hmaking : w.making (.made k i) ≠ .shut) :
    (w.shelf k).Settles k i ((w.runJob ⟨.made k i, .create⟩).1.shelf k) := by
  obtain ⟨j, hfound⟩ : ∃ j, w.job? ⟨.made k i, .create⟩ = some j := by
    obtain ⟨j, hm, he⟩ := hj
    exact Option.isSome_iff_exists.mp (List.find?_isSome.mpr ⟨j, hm, by simpa using he⟩)
  have hid : j.id = ⟨.made k i, .create⟩ := by simpa using List.find?_some hfound
  obtain ⟨k', i', hback⟩ := h.backed.jobs j (List.mem_of_find?_eq_some hfound)
  obtain ⟨rfl, rfl⟩ : k' = k ∧ i' = i := by
    have hlink := hback.id
    rw [hid] at hlink
    exact (LinkId.made.inj hlink).imp Eq.symm Eq.symm
  -- the handle still takes callers, so the job is not past its creation
  have hstage : j.stage = .awaitLink := by
    by_contra hs
    have hopen := (hback.retired hs).2
    rw [show (w.shelf k').phase i' = .pending queue from hp] at hopen
    contradiction
  obtain ⟨woken, harrival⟩ := work_arrived (w := w.unready ⟨.made k' i', .create⟩) held
    (h.orderly k') hback hstage hmaking
  rw [runJob_of_some hfound, shelf_afterWork]
  exact harrival.settles hp

/-! ## Links still close -/

theorem closings_le_move (tidy : w.outline.Tidy) (m : Move) (id : LinkId) :
    w.outline.closings id ≤ (w.move m).outline.closings id :=
  (chain_move tidy.nodup_jobs m).keeps (P := fun o => w.outline.closings id ≤ o.closings id)
    (fun _ _ _ _ step h => Nat.le_trans h (step.closings_le id)) (Nat.le_refl _)

theorem closings_le_play (tidy : w.outline.Tidy) (ms : List Move) (id : LinkId) :
    w.outline.closings id ≤ (w.play ms).outline.closings id := by
  induction ms generalizing w with
  | nil => exact Nat.le_refl _
  | cons m ms ih =>
    have hnext : (w.move m).outline.Tidy := tidy_play tidy [m]
    exact Nat.le_trans (closings_le_move tidy m id) (ih hnext)

/-- The last reference goes back, and a job is taken up to close the link. -/
theorem giveBack_last {hd : HandleId} {link : Link} (hp : w.phase hd = .live link 1)
    (report : Bool) : ∃ u : Hub, u.dispatch = w.dispatch ∧
      (w.giveBack hd report).1 = u.spawn ⟨⟨link.id, .close⟩, hd, link, .close⟩ := by
  refine ⟨(((w.setPhase hd .closed).forget hd.key hd).count .releases).count .closes, ?_, ?_⟩
  · exact congrArg Outline.dispatch (outline_forget (w.setPhase hd .closed) hd.key hd)
  · unfold giveBack
    rw [hp]

theorem one_le_work {j : Job} (hs : j.stage = .close) :
    1 ≤ (w.work j).1.outline.closings j.link.id := by
  unfold work
  rw [hs]
  dsimp only
  rw [outline_workClose]
  exact Outline.one_le_closings_close w.outline j.link.id

/-- A link has been asked to close once its job was run, unless new jobs are thrown away. -/
theorem one_le_runJob_spawn {j : Job} (hs : j.stage = .close) (rule : w.dispatch ≠ .discard)
    (tidy : (w.spawn j).outline.Tidy) :
    1 ≤ ((w.spawn j).runJob j.id).1.outline.closings j.link.id := by
  cases hd : w.dispatch with
  | discard => exact absurd hd rule
  | inline =>
    refine Nat.le_trans ?_ (closings_le_move tidy (.runJob j.id) j.link.id)
    rw [spawn_inline hd]
    exact one_le_work hs
  | queue =>
    have hmem : j ∈ (w.spawn j).jobs := by
      rw [spawn_queue hd]
      exact List.mem_append_right _ (List.mem_singleton_self _)
    have hput : ∀ (u : Hub) (left : Option Stage),
        (u.afterWork j.id left).1.outline.closings = u.outline.closings := by
      intro u left
      cases left <;> rfl
    rw [runJob_of_some (job?_of_mem tidy.nodup_jobs hmem), hput]
    exact one_le_work hs

/-- Dropping the last unclaimed ticket of a link has it closed, once and for all. -/
theorem closes_drop (tidy : w.outline.Tidy) (rule : w.dispatch ≠ .discard) {t : Ticket}
    {link link' : Link} (found : (w.shelf k).tickets[n]? = some t)
    (unclaimed : t.state = .settled (.ok link') (some (.handle ⟨k, i⟩)))
    (last : w.phase ⟨k, i⟩ = .live link 1) (ms : List Move) :
    w.events.count (.close link.id) = 0 ∧
      (((w.move (.drop k n)).move (.runJob ⟨link.id, .close⟩)).play ms).events.count
        (.close link.id) = 1 := by
  let w₁ := (w.setTicket (.forKey k n) { t with state := .dropped (some (.ok link')) }).note
    (.unclaimed k)
  have hdrop : w.dropTicket (.forKey k n) = (w₁.giveBack ⟨k, i⟩ false).1 := by
    unfold dropTicket
    rw [ticket?_eq, found]
    simp only [Ticket.drop, unclaimed, refund, w₁]
  have hlast : w₁.phase ⟨k, i⟩ = .live link 1 := (phase_setTicket w _ _ _).trans last
  obtain ⟨u, hdispatch, hspawn⟩ := giveBack_last hlast false
  have hmove : w.move (.drop k n) = u.spawn ⟨⟨link.id, .close⟩, ⟨k, i⟩, link, .close⟩ :=
    hdrop.trans hspawn
  have hrule : u.dispatch ≠ .discard := by
    rw [hdispatch]
    exact rule
  have htidy : (w.move (.drop k n)).outline.Tidy := tidy_play tidy [.drop k n]
  have htidy' : ((w.move (.drop k n)).move (.runJob ⟨link.id, .close⟩)).outline.Tidy :=
    tidy_play htidy [.runJob ⟨link.id, .close⟩]
  have hheld : w.outline.Holds ⟨k, i⟩ link.id := by
    refine ⟨link, ?_, rfl⟩
    change (w.phase ⟨k, i⟩).link? = some link
    rw [last]
    rfl
  refine ⟨tidy.closings_of_holds hheld, ?_⟩
  have hone : 1 ≤ ((w.move (.drop k n)).move (.runJob ⟨link.id, .close⟩)).outline.closings link.id := by
    rw [hmove] at htidy ⊢
    exact one_le_runJob_spawn rfl hrule htidy
  have hmost := (tidy_play htidy' ms).closings_le link.id
  have hleast := closings_le_play htidy' ms link.id
  change ((((w.move (.drop k n)).move (.runJob ⟨link.id, .close⟩)).play ms).outline.closings link.id) = 1
  omega

/-! ## Letting go -/

/-- All callers let go of the hub. -/
def letGo (w : Hub) : Hub := w.play (List.replicate w.clones .dropClone)

theorem letGo_eq (w : Hub) : ∃ journal, w.letGo = { w with clones := 0, journal := journal } := by
  unfold letGo
  generalize hn : w.clones = n
  induction n generalizing w with
  | zero => exact ⟨w.journal, by rw [List.replicate_zero, play_nil, ← hn]⟩
  | succ n ih =>
    have hdrop : ∃ journal, w.dropClone = { w with clones := n, journal := journal } := by
      rw [dropClone, if_neg (by omega), hn]
      unfold noteIfAbandoned
      split
      · exact ⟨w.journal, rfl⟩
      · exact ⟨_, rfl⟩
    obtain ⟨journal, hdrop⟩ := hdrop
    obtain ⟨journal', e⟩ := ih w.dropClone (by rw [hdrop])
    refine ⟨journal', ?_⟩
    rw [List.replicate_succ, play_cons]
    change w.dropClone.play _ = _
    rw [e, hdrop]

theorem outlives_letGo (h : 0 < w.clones) : Outlives w w.letGo := by
  obtain ⟨journal, e⟩ := w.letGo_eq
  rw [e]
  exact ⟨h, rfl, fun k => .refl _ _, fun _ => rfl, rfl, rfl, rfl, rfl, rfl, rfl, rfl, rfl, rfl, rfl⟩

/-- The job for a pending handle settles all who wait, once the provider has answered. -/
def SettlesWaiters (w : Hub) : Prop :=
  ∀ k i queue, w.phase ⟨k, i⟩ = .pending queue → (∃ j ∈ w.jobs, j.id = ⟨.made k i, .create⟩) →
    w.making (.made k i) ≠ .shut →
      (w.shelf k).Settles k i ((w.move (.runJob ⟨.made k i, .create⟩)).shelf k)

/-- Dropping the last unclaimed ticket of a link, and running the job for it, has the link asked to
close once, whatever happens after that. -/
def ClosesUnclaimed (w : Hub) : Prop :=
  ∀ k n (t : Ticket) i link link', (w.shelf k).tickets[n]? = some t →
    t.state = .settled (.ok link') (some (.handle ⟨k, i⟩)) → w.phase ⟨k, i⟩ = .live link 1 →
      w.events.count (.close link.id) = 0 ∧
      ∀ ms, (((w.move (.drop k n)).move (.runJob ⟨link.id, .close⟩)).play ms).events.count
        (.close link.id) = 1

/-- Whether its callers keep a hub or all let go of it, moves that need no caller get the same replies,
and tickets, teardowns, jobs, counters and what others see of links are the same after each of them. In
particular the outcome of a creation still settles all who wait for it, and the last unclaimed ticket of
a link still has it closed exactly once when it is dropped. -/
theorem outlives_play {settings : Settings} {seed : UInt64} {ambient : Option Dispatch} {w₀ : Hub}
    (built : settings.build seed ambient = .ok w₀) (ms : List Move)
    (held : 0 < (w₀.play ms).clones) (ms' : List Move) (free : ∀ m ∈ ms', m.isFree = true) :
    Outlives ((w₀.play ms).play ms') ((w₀.play ms).letGo.play ms') ∧
    (w₀.play ms).letGo.replies ms' = (w₀.play ms).replies ms' ∧
    ((w₀.play ms).letGo.play ms').SettlesWaiters ∧
    (w₀.dispatch ≠ .discard → ((w₀.play ms).letGo.play ms').ClosesUnclaimed) := by
  have hsound := (sound_build built).play (isHeld_of_clones held)
  obtain ⟨houtlives, hreplies⟩ := (outlives_letGo held).play hsound free
  have hkept := hsound.play houtlives.held
  refine ⟨houtlives, hreplies, fun k i queue hp hj hmaking => ?_, fun rule => ?_⟩
  · -- the hub that was kept settles them, and the other one does the same
    obtain ⟨hnext, -⟩ := houtlives.runJob hkept ⟨.made k i, .create⟩
    have hlink := (LinkId.made k i).within_true
    rw [houtlives.start.phase trivial] at hp
    rw [houtlives.jobs] at hj
    rw [houtlives.start.making hlink] at hmaking
    obtain ⟨c, outcome, refund, found, source, settled⟩ :=
      settles_runJob hkept houtlives.held hp hj hmaking
    refine ⟨c, outcome, refund, ?_, source, fun n t ht hw => ?_⟩
    · rw [(houtlives.shelf k).creations]
      exact found
    · rw [(houtlives.shelf k).tickets] at ht
      exact (congrArg (·[n]?) (hnext.shelf k).tickets).trans (settled n t ht hw)
  · have hrun : (w₀.play ms).letGo.play ms' =
        w₀.play (ms ++ List.replicate (w₀.play ms).clones .dropClone ++ ms') := by
      rw [play_append, play_append, letGo]
    have htidy := tidy_build built
    rw [hrun]
    intro k n t i link link' found unclaimed last
    have hrule : (w₀.play (ms ++ List.replicate (w₀.play ms).clones .dropClone ++ ms')).dispatch ≠
        .discard := by
      rw [dispatch_play htidy]
      exact rule
    have hcloses := closes_drop (tidy_play htidy _) hrule found unclaimed last
    exact ⟨(hcloses []).1, fun ns => (hcloses ns).2⟩

/-- A link is asked for, and arrives after all callers have let go of the hub. -/
def askBeforeLoss : List Move := [.acquire sampleKey]

/-- The ticket that nobody claims is dropped, and the link closes. -/
theorem outlives_play_askBeforeLoss : 0 < (sample.play askBeforeLoss).clones ∧
    (sample.play askBeforeLoss).letGo.isHeld = false ∧
    (sample.play askBeforeLoss).letGo.replies
      [.runJob ⟨.made sampleKey 0, .create⟩, .drop sampleKey 0, .runJob ⟨.made sampleKey 0, .close⟩] =
    (sample.play askBeforeLoss).replies
      [.runJob ⟨.made sampleKey 0, .create⟩, .drop sampleKey 0,
        .runJob ⟨.made sampleKey 0, .close⟩] := by
  have hheld : 0 < (sample.play askBeforeLoss).clones := by decide
  exact ⟨hheld, by decide, (outlives_play build_sample askBeforeLoss hheld _ (by decide)).2.1⟩

end Hub

end SharedLinks
