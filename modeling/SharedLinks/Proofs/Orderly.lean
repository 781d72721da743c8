import SharedLinks.Proofs.Queued

/-!
# What every turn and every arrival keeps

`Turn.orderly` and `Arrival.orderly` show that a shelf which is in order stays so, `Step.orderly` that
it is in order after each move. No creation is ever lost (`Turn.extends`, `Arrival.extends`) and no
handle goes back in its life (`Turn.later`, `Arrival.later`).
-/

namespace SharedLinks

namespace Shelf

variable {k : Key} {s s' : Shelf}

/-! ## Creations and handles go forward -/

/-- A handle that takes no callers any more never does again, and a closed one stays closed. -/
structure Later (s s' : Shelf) : Prop where
  length : s.phases.length ≤ s'.phases.length
  retired : ∀ i, i < s.phases.length → (s.phase i).isOpen = false → (s'.phase i).isOpen = false
  closed : ∀ i, i < s.phases.length → s.phase i = .closed → s'.phase i = .closed

namespace Later

theorem refl (s : Shelf) : s.Later s := ⟨Nat.le_refl _, fun _ _ => id, fun _ _ => id⟩

theorem trans {s'' : Shelf} (h : s.Later s') (h' : s'.Later s'') : s.Later s'' := by
  refine ⟨Nat.le_trans h.length h'.length, ?_, ?_⟩
  · intro i hi hr
    exact h'.retired i (Nat.lt_of_lt_of_le hi h.length) (h.retired i hi hr)
  · intro i hi hc
    exact h'.closed i (Nat.lt_of_lt_of_le hi h.length) (h.closed i hi hc)

theorem of_eq (h : s'.phases = s.phases) : s.Later s' := by
  refine ⟨Nat.le_of_eq (by rw [h]), ?_, ?_⟩ <;> intro i _ hi <;> rwa [phase_congr h]

/-- A handle that has not come to its end may move to any phase that is not earlier. -/
theorem setPhase {i : Nat} {p : Phase} (hi : s.phase i ≠ .closed)
    (hp : (s.phase i).isOpen = false → p.isOpen = false) : s.Later (s.setPhase i p) := by
  have hlt := lt_of_phase_ne hi
  refine ⟨Nat.le_of_eq (length_setPhase s i p).symm, ?_, ?_⟩
  · intro j _ hj
    rw [phase_setPhase hlt]
    split
    · rename_i e
      rw [e] at hj
      exact hp hj
    · exact hj
  · intro j _ hj
    rw [phase_setPhase hlt, if_neg ?_]
    · exact hj
    · rintro rfl
      exact hi hj

theorem openHandle (s : Shelf) (k : Key) (queue : List TicketId) (c : Creation) :
    s.Later (s.openHandle k queue c) := by
  refine ⟨?_, ?_, ?_⟩
  · change s.phases.length ≤ (s.phases ++ [_]).length
    rw [List.length_append]
    omega
  · intro i hi hr
    rwa [phase_openHandle, if_neg (by omega)]
  · intro i hi hc
    rwa [phase_openHandle, if_neg (by omega)]

theorem giveBack (s : Shelf) (h : HandleId) : s.Later (s.giveBack h) := by
  have hclose : s.phase h.index ≠ .closed → s.Later ((s.setPhase h.index .closed).forget h) := by
    intro hi
    exact (setPhase hi fun _ => rfl).trans (of_eq (phases_forget _ _))
  unfold Shelf.giveBack
  split
  · rename_i hi
    exact setPhase (by simp [hi]) (by simp [hi, Phase.isOpen])
  · rename_i hi
    exact setPhase (by simp [hi]) (by simp [Phase.isOpen])
  · rename_i hi
    exact hclose (by simp [hi])
  · rename_i hi
    exact hclose (by simp [hi])
  · exact refl s

end Later

theorem keeps_giveBack (s : Shelf) (h : HandleId) (i : Nat) : s.Keeps (s.giveBack h) i :=
  .of_eq (creations_giveBack s h) i

/-- A turn delivers nothing. -/
theorem Turn.keeps {mark : Mark} (turn : Turn k s mark s') (i : Nat) :
    s.Keeps s' i := by
  cases turn with
  | rest => exact .of_eq rfl i
  | hit => exact .of_eq rfl i
  | wait => exact .of_eq rfl i
  | enter => exact keeps_openHandle (s.addTicket .fresh) k _ _ i
  | touch => exact .of_eq rfl i
  | refund => exact keeps_giveBack (s.dropUnclaimed _ _ _) _ i
  | stray => exact .of_eq rfl i
  | releaseOrphan => exact keeps_giveBack s _ i
  | releaseLive => exact keeps_giveBack s _ i
  | @answer j f owner link delivered =>
    intro c hc
    by_cases hj : j = i
    · refine ⟨f c, ?_, link c, delivered c⟩
      rw [getElem?_onCreation, if_pos hj, hc]
      rfl
    · refine ⟨c, ?_, rfl, rfl⟩
      rw [getElem?_onCreation, if_neg hj, hc]
  | orphan => exact .of_eq rfl i
  | dismiss => exact .of_eq rfl i
  | requeue => exact keeps_openHandle ((s.setPhase _ .closed).serve none) k _ _ i

theorem Turn.extends {mark : Mark} (turn : Turn k s mark s') : s.Extends s' :=
  .of_keeps turn.keeps

/-- An arrival delivers its own creation only. -/
theorem Arrival.keeps {i : Nat} {woken : List (Nat × Nat)}
    (arrival : Arrival k i s woken s') {j : Nat} (hj : j ≠ i) : s.Keeps s' j := by
  have hmarked : ∀ c : Creation, s.creations[j]? = some c →
      (s.markDelivered i).creations[j]? = some c := by
    intro c hc
    rw [markDelivered, getElem?_onCreation, if_neg (Ne.symm hj), hc]
  intro c hc
  refine ⟨c, ?_, rfl, rfl⟩
  cases arrival with
  | granted => exact hmarked c hc
  | unwanted => exact hmarked c hc
  | failed => exact hmarked c hc
  | late => exact hmarked c hc

theorem extends_markDelivered (s : Shelf) (i : Nat) : s.Extends (s.markDelivered i) :=
  extends_onCreation s i (fun _ => rfl) fun _ _ => rfl

theorem Arrival.extends {i : Nat} {woken : List (Nat × Nat)} (arrival : Arrival k i s woken s') :
    s.Extends s' := by
  cases arrival with
  | granted => exact extends_markDelivered s i
  | unwanted => exact extends_markDelivered s i
  | failed => exact extends_markDelivered s i
  | late => exact extends_markDelivered s i

theorem Turn.later {mark : Mark} (turn : Turn k s mark s') : s.Later s' := by
  cases turn with
  | rest => exact .refl s
  | hit live =>
    exact (Later.of_eq rfl : s.Later (s.addTicket _)).trans
      (.setPhase (by simp [live]) (by simp [live, Phase.isOpen]))
  | wait pending =>
    exact (Later.of_eq rfl : s.Later (s.addTicket _)).trans
      (.setPhase (by simp [pending]) (by simp [pending, Phase.isOpen]))
  | enter => exact (Later.of_eq rfl : s.Later (s.addTicket _)).trans (.openHandle _ _ _ _)
  | touch => exact .of_eq rfl
  | refund => exact (Later.of_eq rfl : s.Later (s.dropUnclaimed _ _ _)).trans (.giveBack _ _)
  | stray => exact .of_eq rfl
  | releaseOrphan => exact .giveBack s _
  | releaseLive => exact .giveBack s _
  | answer => exact .of_eq rfl
  | orphan serving live =>
    exact (Later.of_eq rfl : s.Later (s.unlink _)).trans
      (.setPhase (by simp [live]) fun _ => rfl)
  | dismiss serving pending =>
    exact (Later.setPhase (by simp [pending]) fun _ => rfl).trans (.of_eq rfl)
  | @requeue i _ _ serving pending =>
    have hserve : s.Later ((s.setPhase i .closed).serve none) :=
      (Later.setPhase (by simp [pending]) fun _ => rfl).trans (.of_eq rfl)
    exact hserve.trans (.openHandle _ _ _ _)

theorem Arrival.later {i : Nat} {woken : List (Nat × Nat)} (arrival : Arrival k i s woken s') :
    s.Later s' := by
  cases arrival with
  | @granted _ c pending found made wanted =>
    exact (Later.of_eq rfl : s.Later ((s.markDelivered i).settle (.ok c.link) _)).trans
      (.setPhase (by simp [pending]) (by simp [pending, Phase.isOpen]))
  | unwanted pending =>
    exact (Later.setPhase (by simp [pending]) fun _ => rfl).trans (.of_eq rfl)
  | failed pending =>
    exact (Later.setPhase (by simp [pending]) fun _ => rfl).trans (.of_eq rfl)
  | late => exact .of_eq rfl

/-! ## Tickets -/

theorem Turn.granted {mark : Mark} (turn : Turn k s mark s') (h : s.Orderly k) : s'.Granted k := by
  cases turn with
  | rest => exact h.granted
  | hit live =>
    obtain ⟨c, hc, hlink, hd⟩ := h.recorded.creation_of_live live
    refine (h.granted.addTicket ?_ ?_).of_extends (.of_eq rfl) rfl
    · intro link' hl
      injection hl with hl
      injection hl with hl
      exact ⟨_, c, hc, hlink.trans hl, hd⟩
    · intro link' r hr
      obtain ⟨hl, hr⟩ := TicketState.settled.inj hr
      injection hl with hl
      exact ⟨_, by rw [← hl]; exact h.recorded.id_of_live live, hr.symm⟩
  | wait => exact h.granted.addFresh.of_extends (.of_eq rfl) rfl
  | enter =>
    exact h.granted.addFresh.of_extends (extends_openHandle (s.addTicket .fresh) k _ _) rfl
  | touch found touched =>
    exact h.granted.setTicket found (fun _ => touched.outcome?_of_link) fun _ _ => touched.settled
  | refund found unclaimed => exact (h.granted.dropUnclaimed found unclaimed).giveBack _
  | stray found unclaimed => exact h.granted.dropUnclaimed found unclaimed
  | releaseOrphan => exact h.granted.giveBack _
  | releaseLive => exact h.granted.giveBack _
  | answer owner link delivered =>
    exact h.granted.of_extends (extends_onCreation s _ link fun c hc => (delivered c).trans hc) rfl
  | orphan => exact h.granted.of_extends (.of_eq rfl) rfl
  | dismiss => exact h.granted.of_extends (.of_eq rfl) rfl
  | requeue =>
    exact h.granted.of_extends (extends_openHandle ((s.setPhase _ .closed).serve none) k _ _) rfl

theorem Turn.queued {mark : Mark} (turn : Turn k s mark s') (h : s.Orderly k) : s'.Queued k := by
  cases turn with
  | rest => exact h.queued
  | hit live =>
    exact (h.queued.addTicket rfl).setPhase _ (by simp [live]) (by simp)
  | wait pending => exact h.queued.wait pending
  | enter free new =>
    have hp := h.not_pending_of_free free
    have hsorted : [s.tickets.length].Pairwise (· < ·) := List.pairwise_singleton _ _
    refine Queued.openHandle (s := s.addTicket .fresh) hp hsorted ?_ ?_ _
    · intro n hn
      rw [List.mem_singleton.mp hn]
      exact ⟨.fresh, List.getElem?_concat_length, rfl⟩
    · intro n t hn hw
      change (s.tickets ++ [Ticket.fresh])[n]? = some t at hn
      rw [List.mem_singleton]
      by_contra hne
      have hlt := (List.getElem?_eq_some_iff.mp hn).1
      rw [List.length_append, List.length_singleton] at hlt
      rw [List.getElem?_append_left (by omega)] at hn
      rw [h.not_isWaiting hp hn] at hw
      contradiction
  | touch found touched =>
    exact h.queued.setTicket found touched.outcome?_eq_none touched.isWaiting
  | refund found unclaimed =>
    refine Queued.giveBack (h.queued.setTicket found ?_ ?_) _
    · intro ht
      simp [Ticket.outcome?, unclaimed] at ht
    · intro ht
      contradiction
  | stray found unclaimed =>
    refine h.queued.setTicket found ?_ ?_
    · intro ht
      simp [Ticket.outcome?, unclaimed] at ht
    · intro ht
      contradiction
  | releaseOrphan => exact h.queued.giveBack _
  | releaseLive => exact h.queued.giveBack _
  | answer => exact h.queued.congr (fun _ _ => Iff.rfl) rfl
  | orphan serving live =>
    exact (h.queued.congr (fun _ _ => Iff.rfl) rfl : (s.unlink _).Queued k).setPhase _
      (by simp [live]) (by simp)
  | dismiss serving pending gone =>
    refine Queued.of_none ?_ ?_
    · exact h.not_pending_setPhase pending (by simp)
    · intro n t hn
      by_contra hw
      have hmem := h.mem_queue pending hn (by simpa using hw)
      have hdropped := gone _ hmem
      rw [show s.isDropped (.forKey k n) = t.isDropped by simp [isDropped, show s.tickets[n]? = _ from hn]]
        at hdropped
      unfold Ticket.isWaiting at hw
      unfold Ticket.isDropped at hdropped
      split at hdropped <;> simp_all
  | requeue serving pending new =>
    obtain ⟨ns, hq, hsorted, hmem⟩ := h.queued.queue _ _ pending
    rw [hq, List.filter_map]
    refine Queued.openHandle ?_ (hsorted.filter _) ?_ ?_ _
    · exact h.not_pending_setPhase pending (by simp)
    · intro n hn
      exact hmem n (List.mem_filter.mp hn).1
    · intro n t hn hw
      have hmem' := h.mem_queue pending hn hw
      rw [hq, List.mem_map] at hmem'
      obtain ⟨n', hn', e⟩ := hmem'
      obtain rfl : n' = n := by simpa using e
      refine List.mem_filter.mpr ⟨hn', ?_⟩
      have hd : s.isDropped (.forKey k n') = t.isDropped := by
        simp [isDropped, show s.tickets[n']? = _ from hn]
      rw [Function.comp_apply, hd]
      unfold Ticket.isWaiting at hw
      unfold Ticket.isDropped
      split at hw <;> simp_all

theorem Arrival.granted_of {i : Nat} {woken : List (Nat × Nat)} (arrival : Arrival k i s woken s')
    (h : s.Orderly k) : s'.Granted k := by
  have hmarked := h.granted.of_extends (extends_markDelivered s i) rfl
  cases arrival with
  | @granted _ c pending found made wanted =>
    refine (hmarked.settle ?_).of_extends (.of_eq rfl) rfl
    intro link hl
    injection hl with hl
    subst hl
    refine ⟨i, { c with delivered := true }, ?_, rfl, rfl, h.recorded.link i c found, rfl⟩
    rw [markDelivered, getElem?_onCreation, if_pos rfl, found]
    rfl
  | unwanted => exact hmarked.of_extends (.of_eq rfl) rfl
  | failed =>
    refine Granted.settle (s := ((s.markDelivered i).setPhase i .closed).serve none)
      (hmarked.of_extends (.of_eq rfl) rfl) ?_
    rintro link ⟨⟩
  | late => exact hmarked

theorem Arrival.queued {i : Nat} {woken : List (Nat × Nat)} (arrival : Arrival k i s woken s')
    (h : s.Orderly k) : s'.Queued k := by
  have hsettled : ∀ outcome refund (n : Nat) (t : Ticket),
      (s.settle outcome refund).tickets[n]? = some t → t.isWaiting = false := by
    intro outcome refund n t hn
    obtain ⟨t, -, rfl⟩ := List.mem_map.mp (List.mem_of_getElem? hn)
    exact t.not_isWaiting_accept outcome refund
  cases arrival with
  | granted pending => exact Queued.of_none (h.not_pending_setPhase pending (by simp)) (hsettled _ _)
  | unwanted pending found made gone =>
    refine Queued.of_none (h.not_pending_setPhase pending (by simp)) fun n t hn => ?_
    rw [waiting, List.countP_eq_zero] at gone
    simpa using gone t (List.mem_of_getElem? hn)
  | failed pending => exact Queued.of_none (h.not_pending_setPhase pending (by simp)) (hsettled _ _)
  | late => exact h.queued.congr (fun _ _ => Iff.rfl) rfl

/-! ## The shelf as a whole -/

theorem Turn.orderly {mark : Mark} (turn : Turn k s mark s') (h : s.Orderly k) : s'.Orderly k :=
  ⟨turn.placed h.placed, turn.recorded h.recorded, turn.granted h, turn.queued h⟩

theorem Arrival.orderly {i : Nat} {woken : List (Nat × Nat)} (arrival : Arrival k i s woken s')
    (h : s.Orderly k) : s'.Orderly k :=
  ⟨arrival.placed h.placed, arrival.recorded h.recorded, arrival.granted_of h, arrival.queued h⟩

/-- A shelf that is in order is so after every move. -/
theorem Step.orderly {mark : Mark} {woken : List (Nat × Nat)} (step : Step k s mark woken s')
    (h : s.Orderly k) : s'.Orderly k := by
  obtain ⟨m, turn, ⟨rfl, -⟩ | ⟨i, arrival, -⟩⟩ := step
  · exact turn.orderly h
  · exact arrival.orderly (turn.orderly h)

theorem Step.later {mark : Mark} {woken : List (Nat × Nat)} (step : Step k s mark woken s') :
    s.Later s' := by
  obtain ⟨m, turn, ⟨rfl, -⟩ | ⟨i, arrival, -⟩⟩ := step
  · exact turn.later
  · exact turn.later.trans arrival.later

/-- The shelf of a key that was never asked for is in order. -/
theorem orderly_empty (k : Key) : ({} : Shelf).Orderly k := by
  have hphase : ∀ i, ({} : Shelf).phase i = .closed := fun _ => rfl
  refine ⟨⟨?_, ?_, List.nodup_nil, by simp, ?_⟩, ⟨rfl, ?_, ?_, ?_⟩, ⟨?_, ?_⟩, ⟨?_, ?_⟩⟩
  · intro h
    simp [hphase, Phase.isOpen]
  · intro h
    simp [hphase, orphans]
  · intro i
    rw [hphase]
    trivial
  all_goals intros; simp_all

end Shelf

end SharedLinks
