import SharedLinks.Proofs.Turns

/-!
# Where the handles of a key are

`Shelf.Placed` says where each handle stands: a handle serves its key exactly while it takes callers,
it is among the orphans exactly while it is orphaned, and it is nowhere once it is closed. Every turn
and every arrival keeps this (`Turn.placed`, `Arrival.placed`), so it holds of every shelf of a hub
between two moves.
-/

namespace SharedLinks

/-- An established or orphaned handle counts at least one reference. -/
def Phase.IsCounted : Phase → Prop
  | .live _ refs | .orphaned refs => 0 < refs
  | .pending _ | .closed => True

namespace Shelf

/-- Every handle of the key is where its phase says, and nowhere else. -/
structure Placed (k : Key) (s : Shelf) : Prop where
  /-- The handle in service is the one that takes callers. -/
  serving_iff : ∀ h : HandleId, s.serving = some h ↔ h.key = k ∧ (s.phase h.index).isOpen = true
  /-- The orphans are the orphaned handles. -/
  mem_orphans_iff : ∀ h : HandleId,
    h ∈ s.orphans ↔ h.key = k ∧ ∃ refs, s.phase h.index = .orphaned refs
  /-- No handle is an orphan twice. -/
  nodup : s.orphans.Nodup
  /-- No empty list of orphans is kept. -/
  entry : s.orphaned ≠ some []
  /-- No handle stays without references. -/
  counted : ∀ i, (s.phase i).IsCounted

namespace Placed

variable {k : Key} {s : Shelf}

/-- Where handles are does not depend on tickets and creations. -/
theorem congr {s' : Shelf} (h : s.Placed k) (hserving : s'.serving = s.serving)
    (horphaned : s'.orphaned = s.orphaned) (hphases : s'.phases = s.phases) : s'.Placed k := by
  have horphans : s'.orphans = s.orphans := by rw [orphans, horphaned, orphans]
  constructor
  · intro h'
    rw [hserving, phase_congr hphases]
    exact h.serving_iff h'
  · intro h'
    rw [horphans, phase_congr hphases]
    exact h.mem_orphans_iff h'
  · rw [horphans]
    exact h.nodup
  · rw [horphaned]
    exact h.entry
  · intro i
    rw [phase_congr hphases]
    exact h.counted i

theorem serving_of_isOpen (h : s.Placed k) {i : Nat} (hi : (s.phase i).isOpen = true) :
    s.serving = some ⟨k, i⟩ :=
  (h.serving_iff ⟨k, i⟩).mpr ⟨rfl, hi⟩

theorem serving_of_live (h : s.Placed k) {i : Nat} {link : Link} {refs : Nat}
    (hi : s.phase i = .live link refs) : s.serving = some ⟨k, i⟩ :=
  h.serving_of_isOpen (by rw [hi]; rfl)

theorem serving_of_pending (h : s.Placed k) {i : Nat} {queue : List TicketId}
    (hi : s.phase i = .pending queue) : s.serving = some ⟨k, i⟩ :=
  h.serving_of_isOpen (by rw [hi]; rfl)

/-- Only one handle at a time takes callers. -/
theorem eq_of_isOpen (h : s.Placed k) {i j : Nat} (hi : (s.phase i).isOpen = true)
    (hj : (s.phase j).isOpen = true) : i = j := by
  have e := (h.serving_of_isOpen hi).symm.trans (h.serving_of_isOpen hj)
  simpa using e

theorem isOpen_of_serving (h : s.Placed k) {i : Nat} (hs : s.serving = some ⟨k, i⟩) :
    (s.phase i).isOpen = true :=
  ((h.serving_iff ⟨k, i⟩).mp hs).2

/-- A handle that is neither pending nor closed counts references. -/
theorem refs_pos_of_ne (h : s.Placed k) {i : Nat} (hc : s.phase i ≠ .closed)
    (hp : ∀ queue, s.phase i ≠ .pending queue) : 0 < (s.phase i).refs := by
  have hcounted := h.counted i
  cases hi : s.phase i with
  | pending queue => exact absurd hi (hp queue)
  | live link refs => rwa [hi] at hcounted
  | orphaned refs => rwa [hi] at hcounted
  | closed => exact absurd hi hc

/-- Where only one handle has changed, only that one has to be looked at. -/
theorem of_change {s' : Shelf} (h : s.Placed k) (i : Nat)
    (hother : ∀ j, j ≠ i → s'.phase j = s.phase j)
    (hserving : ∀ h' : HandleId, h' ≠ ⟨k, i⟩ → (s'.serving = some h' ↔ s.serving = some h'))
    (hopen : s'.serving = some ⟨k, i⟩ ↔ (s'.phase i).isOpen = true)
    (horphans : ∀ h' : HandleId, h' ≠ ⟨k, i⟩ → (h' ∈ s'.orphans ↔ h' ∈ s.orphans))
    (horphaned : (⟨k, i⟩ : HandleId) ∈ s'.orphans ↔ ∃ refs, s'.phase i = .orphaned refs)
    (hnodup : s'.orphans.Nodup) (hentry : s'.orphaned ≠ some [])
    (hcounted : (s'.phase i).IsCounted) : s'.Placed k := by
  -- a handle of another key may have the same number
  have hne : ∀ h' : HandleId, h' ≠ ⟨k, i⟩ → h'.index = i → h'.key ≠ k := by
    rintro ⟨key, index⟩ h' rfl rfl
    exact h' rfl
  constructor
  · intro h'
    by_cases e : h' = ⟨k, i⟩
    · subst e
      simpa using hopen
    · rw [hserving h' e, h.serving_iff h']
      by_cases hi : h'.index = i
      · simp [hne h' e hi]
      · rw [hother _ hi]
  · intro h'
    by_cases e : h' = ⟨k, i⟩
    · subst e
      simpa using horphaned
    · rw [horphans h' e, h.mem_orphans_iff h']
      by_cases hi : h'.index = i
      · simp [hne h' e hi]
      · rw [hother _ hi]
  · exact hnodup
  · exact hentry
  · intro j
    by_cases hj : j = i
    · rw [hj]
      exact hcounted
    · rw [hother j hj]
      exact h.counted j

/-- A handle that takes callers goes on to do so. -/
theorem setPhase_of_isOpen (h : s.Placed k) {i : Nat} (p : Phase)
    (hi : (s.phase i).isOpen = true) (hp : p.isOpen = true) (hc : p.IsCounted) :
    (s.setPhase i p).Placed k := by
  have hlt : i < s.phases.length := lt_of_phase_ne (by intro e; simp [e, Phase.isOpen] at hi)
  have hself := phase_setPhase_self hlt p
  refine h.of_change i ?_ (fun _ _ => Iff.rfl) ?_ (fun _ _ => Iff.rfl) ?_ h.nodup h.entry ?_
  · intro j hj
    rw [phase_setPhase_ne hj]
  · rw [hself, hp]
    exact iff_of_true (h.serving_of_isOpen hi) rfl
  · rw [hself]
    refine iff_of_false ?_ ?_
    · intro hm
      obtain ⟨-, refs, hr⟩ := (h.mem_orphans_iff ⟨k, i⟩).mp hm
      simp [hr, Phase.isOpen] at hi
    · rintro ⟨refs, rfl⟩
      simp [Phase.isOpen] at hp
  · rw [hself]
    exact hc

/-- An orphan that keeps some references stays an orphan. -/
theorem setPhase_orphaned (h : s.Placed k) {i old refs : Nat} (hi : s.phase i = .orphaned old)
    (hc : 0 < refs) : (s.setPhase i (.orphaned refs)).Placed k := by
  have hlt : i < s.phases.length := lt_of_phase_ne (by simp [hi])
  have hself := phase_setPhase_self hlt (.orphaned refs)
  refine h.of_change i ?_ (fun _ _ => Iff.rfl) ?_ (fun _ _ => Iff.rfl) ?_ h.nodup h.entry ?_
  · intro j hj
    rw [phase_setPhase_ne hj]
  · rw [hself]
    refine iff_of_false ?_ (by simp [Phase.isOpen])
    intro hs
    have := h.isOpen_of_serving hs
    simp [hi, Phase.isOpen] at this
  · rw [hself]
    exact iff_of_true ((h.mem_orphans_iff ⟨k, i⟩).mpr ⟨rfl, old, hi⟩) ⟨refs, rfl⟩
  · rw [hself]
    exact hc

/-- A handle that has come to its end is taken off the shelf. -/
theorem retire (h : s.Placed k) {i : Nat} (hi : s.phase i ≠ .closed) :
    ((s.setPhase i .closed).forget ⟨k, i⟩).Placed k := by
  have hlt : i < s.phases.length := lt_of_phase_ne hi
  have hphase : ∀ j, ((s.setPhase i .closed).forget ⟨k, i⟩).phase j =
      if j = i then .closed else s.phase j := by
    intro j
    rw [phase_forget, phase_setPhase hlt]
  have hself : ((s.setPhase i .closed).forget ⟨k, i⟩).phase i = .closed := by
    rw [hphase, if_pos rfl]
  -- the handle leaves the service if it is there, and otherwise the list of orphans
  by_cases hs : s.serving = some ⟨k, i⟩
  · have he := forget_of_serving (s := s.setPhase i .closed) hs
    refine h.of_change i ?_ ?_ ?_ ?_ ?_ ?_ ?_ ?_
    · intro j hj
      rw [hphase, if_neg hj]
    · intro h' hne
      rw [he, hs]
      exact iff_of_false (by simp [serve]) (by simpa using Ne.symm hne)
    · rw [hself, he]
      exact iff_of_false (by simp [serve]) (by simp [Phase.isOpen])
    · intro h' _
      rw [he]
      exact Iff.rfl
    · rw [hself, he]
      refine iff_of_false ?_ (by simp)
      intro hm
      obtain ⟨-, refs, hr⟩ := (h.mem_orphans_iff ⟨k, i⟩).mp hm
      have := h.isOpen_of_serving hs
      simp [hr, Phase.isOpen] at this
    · rw [he]
      exact h.nodup
    · rw [he]
      exact h.entry
    · rw [hself]
      trivial
  · have he := forget_of_not_serving (s := s.setPhase i .closed) hs
    have horphans : ((s.setPhase i .closed).forget ⟨k, i⟩).orphans
        = s.orphans.filter (· ≠ ⟨k, i⟩) := by
      rw [he, orphans_dropOrphan]
      rfl
    have hserving : ((s.setPhase i .closed).forget ⟨k, i⟩).serving = s.serving := by
      obtain ⟨o, ho⟩ := (s.setPhase i .closed).dropOrphan_eq ⟨k, i⟩
      rw [he, ho]
      rfl
    refine h.of_change i ?_ ?_ ?_ ?_ ?_ ?_ ?_ ?_
    · intro j hj
      rw [hphase, if_neg hj]
    · intro h' _
      rw [hserving]
    · rw [hself, hserving]
      exact iff_of_false hs (by simp [Phase.isOpen])
    · intro h' hne
      rw [horphans, List.mem_filter]
      simp [hne]
    · rw [hself, horphans, List.mem_filter]
      simp
    · rw [horphans]
      exact h.nodup.filter _
    · rw [he]
      exact orphaned_dropOrphan_ne _ _ h.entry
    · rw [hself]
      trivial

/-- A handle in service that has come to its end leaves the key without one. -/
theorem retire_serving (h : s.Placed k) {i : Nat} (hs : s.serving = some ⟨k, i⟩) :
    ((s.setPhase i .closed).serve none).Placed k := by
  have hopen := h.isOpen_of_serving hs
  have := h.retire (i := i) (by intro e; simp [e, Phase.isOpen] at hopen)
  rwa [forget_of_serving (show (s.setPhase i .closed).serving = some ⟨k, i⟩ from hs)] at this

/-- A handle in service becomes the newest orphan. -/
theorem orphan (h : s.Placed k) {i : Nat} {link : Link} {refs : Nat}
    (hs : s.serving = some ⟨k, i⟩) (hi : s.phase i = .live link refs) :
    ((s.unlink ⟨k, i⟩).setPhase i (.orphaned refs)).Placed k := by
  have hlt : i < (s.unlink ⟨k, i⟩).phases.length := lt_of_phase_ne (s := s) (by simp [hi])
  have hself := phase_setPhase_self hlt (.orphaned refs)
  have hnot : ⟨k, i⟩ ∉ s.orphans := by
    rw [h.mem_orphans_iff]
    simp [hi]
  have horphans : ((s.unlink ⟨k, i⟩).setPhase i (.orphaned refs)).orphans
      = s.orphans ++ [⟨k, i⟩] := rfl
  refine h.of_change i ?_ ?_ ?_ ?_ ?_ ?_ ?_ ?_
  · intro j hj
    rw [phase_setPhase_ne hj]
    rfl
  · intro h' hne
    rw [hs]
    exact iff_of_false (by simp [unlink, Shelf.setPhase]) (by simpa using Ne.symm hne)
  · rw [hself]
    exact iff_of_false (by simp [unlink, Shelf.setPhase]) (by simp [Phase.isOpen])
  · intro h' hne
    rw [horphans, List.mem_append, List.mem_singleton, or_iff_left hne]
  · rw [hself, horphans]
    exact iff_of_true (by simp) ⟨refs, rfl⟩
  · rw [horphans, List.nodup_append]
    refine ⟨h.nodup, by simp, ?_⟩
    intro a ha b hb e
    rw [List.mem_singleton] at hb
    exact hnot (by rwa [← hb, ← e])
  · change some (s.orphans ++ [⟨k, i⟩]) ≠ some []
    simp
  · have hcounted := h.counted i
    rw [hi] at hcounted
    rw [hself]
    exact hcounted

/-- A new handle serves a key that had none. -/
theorem openHandle (h : s.Placed k) (hs : s.serving = none) (queue : List TicketId)
    (c : Creation) : (s.openHandle k queue c).Placed k := by
  have hself := s.phase_openHandle_self k queue c
  refine h.of_change s.phases.length ?_ ?_ ?_ (fun _ _ => Iff.rfl) ?_ h.nodup h.entry ?_
  · intro j hj
    rw [phase_openHandle, if_neg hj]
  · intro h' hne
    rw [hs]
    exact iff_of_false (by simpa [Shelf.openHandle] using Ne.symm hne) (by simp)
  · rw [hself]
    exact iff_of_true rfl rfl
  · rw [hself]
    refine iff_of_false ?_ (by simp)
    intro hm
    obtain ⟨-, refs, hr⟩ := (h.mem_orphans_iff ⟨k, s.phases.length⟩).mp hm
    rw [phase_of_le (Nat.le_refl _)] at hr
    contradiction
  · rw [hself]
    trivial

/-- Giving a reference back keeps every handle in its place. -/
theorem giveBack (h : s.Placed k) (i : Nat) : (s.giveBack ⟨k, i⟩).Placed k := by
  unfold Shelf.giveBack
  dsimp only
  split
  · rename_i link refs hi
    exact h.setPhase_of_isOpen _ (by rw [hi]; rfl) rfl (Nat.succ_pos refs)
  · rename_i refs hi
    exact h.setPhase_orphaned hi (Nat.succ_pos refs)
  · rename_i link hi
    exact h.retire (by simp [hi])
  · rename_i hi
    exact h.retire (by simp [hi])
  · exact h

end Placed

/-- A turn keeps every handle in its place. -/
theorem Turn.placed {k : Key} {s s' : Shelf} {mark : Mark} (turn : Turn k s mark s')
    (h : s.Placed k) : s'.Placed k := by
  cases turn with
  | rest => exact h
  | hit live =>
    refine (h.congr rfl rfl rfl : (s.addTicket _).Placed k).setPhase_of_isOpen _ ?_ rfl
      (Nat.succ_pos _)
    change (s.phase _).isOpen = true
    rw [live]
    rfl
  | wait pending =>
    refine (h.congr rfl rfl rfl : (s.addTicket .fresh).Placed k).setPhase_of_isOpen _ ?_ rfl trivial
    change (s.phase _).isOpen = true
    rw [pending]
    rfl
  | enter free new => exact (h.congr rfl rfl rfl : (s.addTicket .fresh).Placed k).openHandle free _ _
  | touch => exact h.congr rfl rfl rfl
  | refund => exact (h.congr rfl rfl rfl : (s.dropUnclaimed _ _ _).Placed k).giveBack _
  | stray => exact h.congr rfl rfl rfl
  | releaseOrphan => exact h.giveBack _
  | releaseLive => exact h.giveBack _
  | answer => exact h.congr rfl rfl rfl
  | orphan serving live => exact h.orphan serving live
  | dismiss serving => exact h.retire_serving serving
  | requeue serving => exact (h.retire_serving serving).openHandle rfl _ _

/-- An arrival keeps every handle in its place. -/
theorem Arrival.placed {k : Key} {i : Nat} {s s' : Shelf} {woken : List (Nat × Nat)}
    (arrival : Arrival k i s woken s') (h : s.Placed k) : s'.Placed k := by
  cases arrival with
  | granted pending found made wanted =>
    refine Placed.setPhase_of_isOpen (s := (s.markDelivered i).settle _ _) (h.congr rfl rfl rfl) _
      ?_ rfl wanted
    change (s.phase i).isOpen = true
    rw [pending]
    rfl
  | unwanted pending =>
    have := h.retire_serving (h.serving_of_pending pending)
    exact this.congr rfl rfl rfl
  | failed pending =>
    have := h.retire_serving (h.serving_of_pending pending)
    exact this.congr rfl rfl rfl
  | late => exact h.congr rfl rfl rfl

end Shelf

end SharedLinks
