import SharedLinks.Proofs.Books
import SharedLinks.Proofs.Tickets

/-!
# Who holds the link in service

Releases go to the oldest orphan first, whatever link the caller holds. So while a key has orphans the
handle in service loses references only to tickets that it has granted them to, and it counts exactly
the tickets that hold its link (`Step.exact`). That keeps its link in service for everybody who holds
it: only a teardown takes it away, or the last reference of the whole key (`Step.serves`).
-/

namespace SharedLinks

namespace Shelf

variable {k : Key} {s s' m : Shelf} {mark : Mark} {i j : Nat} {link : Link} {refs : Nat} {n : Nat}
  {woken : List (Nat × Nat)}

/-- While there are orphans, the handle in service counts exactly the tickets that hold its link. -/
def Exact (s : Shelf) : Prop :=
  s.orphans ≠ [] → ∀ i link refs, s.phase i = .live link refs → refs = s.holding (· = link)

/-! ## Live handles -/

theorem Placed.eq_of_live (h : s.Placed k) (live : s.phase i = .live link refs)
    {link' : Link} {refs' : Nat} (live' : s.phase j = .live link' refs') :
    i = j ∧ link = link' ∧ refs = refs' := by
  obtain rfl : i = j := h.eq_of_isOpen (by rw [live]; rfl) (by rw [live']; rfl)
  rw [live] at live'
  exact ⟨rfl, Phase.live.inj live'⟩

/-- Giving a reference back leaves all other handles alone. -/
theorem phase_giveBack_ne (s : Shelf) (k : Key) (hne : i ≠ j) :
    (s.giveBack ⟨k, j⟩).phase i = s.phase i := by
  have hset : ∀ p, (s.setPhase j p).phase i = s.phase i := phase_setPhase_ne hne
  unfold giveBack
  split
  · exact hset _
  · exact hset _
  · exact (phase_forget (s.setPhase j .closed) _ i).trans (hset _)
  · exact (phase_forget (s.setPhase j .closed) _ i).trans (hset _)
  · rfl

/-- A live handle that gives a reference back stays live, or leaves the service with its last one. -/
theorem giveBack_of_live (h : s.Placed k) (live : s.phase i = .live link refs) :
    (∃ rest, refs = rest + 2 ∧ s.giveBack ⟨k, i⟩ = s.setPhase i (.live link (rest + 1))) ∨
      refs = 1 ∧ s.giveBack ⟨k, i⟩ = (s.setPhase i .closed).serve none := by
  have hserving : (s.setPhase i .closed).serving = some ⟨k, i⟩ := h.serving_of_live live
  match refs with
  | 0 =>
    have hpos := h.refs_pos_of_ne (i := i) (by simp [live]) (by simp [live])
    simp [live, Phase.refs] at hpos
  | 1 =>
    refine Or.inr ⟨rfl, ?_⟩
    rw [giveBack]
    simp only [live]
    exact forget_of_serving hserving
  | rest + 2 =>
    refine Or.inl ⟨rest, rfl, ?_⟩
    rw [giveBack]
    simp only [live]

/-- A handle that is live after giving a reference back was so before. -/
theorem live_of_giveBack (h : s.Placed k) (live : (s.giveBack ⟨k, i⟩).phase i = .live link refs) :
    s.phase i = .live link (refs + 1) := by
  have hphase : ∀ p, s.phase i ≠ .closed → (s.setPhase i p).phase i = p := fun p hp =>
    phase_setPhase_self (lt_of_phase_ne hp) p
  cases hp : s.phase i with
  | live link' refs' =>
    rcases giveBack_of_live h hp with ⟨rest, rfl, e⟩ | ⟨rfl, e⟩
    · rw [e, hphase _ (by simp [hp])] at live
      obtain ⟨rfl, rfl⟩ := Phase.live.inj live
      rfl
    · rw [e, phase_serve, hphase _ (by simp [hp])] at live
      contradiction
  | orphaned refs' =>
    unfold giveBack at live
    simp only [hp] at live
    split at live <;> simp_all
  | pending queue =>
    unfold giveBack at live
    simp [hp] at live
  | closed =>
    unfold giveBack at live
    simp [hp] at live

/-- Giving a reference back makes no orphans. -/
theorem orphans_giveBack (s : Shelf) (hd : HandleId) (h : (s.giveBack hd).orphans ≠ []) :
    s.orphans ≠ [] := by
  have hforget : ((s.setPhase hd.index .closed).forget hd).orphans ≠ [] → s.orphans ≠ [] := by
    unfold forget
    split
    · exact id
    · rw [orphans_dropOrphan]
      intro hf e
      exact hf (by rw [show (s.setPhase hd.index .closed).orphans = s.orphans from rfl, e]; rfl)
  unfold giveBack at h
  split at h
  · exact h
  · exact h
  · exact hforget h
  · exact hforget h
  · exact h

/-- A ticket holds the link of the live handle exactly if that handle has granted it. -/
theorem Orderly.link_eq_iff (h : s.Orderly k) (live : s.phase i = .live link refs) {t : Ticket}
    {link' : Link} (found : s.tickets[n]? = some t) (held : t.held? = some link')
    (hid : link'.id = .made k j) : link' = link ↔ j = i := by
  constructor
  · rintro rfl
    have he := hid.symm.trans (h.recorded.id_of_live live)
    exact (LinkId.made.inj he).2
  · rintro rfl
    obtain ⟨c, hc, hlink, -⟩ := h.creation_of_held found held hid
    obtain ⟨c', hc', hlink', -⟩ := h.recorded.creation_of_live live
    obtain rfl := Option.some.inj (hc.symm.trans hc')
    exact hlink.symm.trans hlink'

/-! ## The handle in service counts its holders -/

theorem exact_of_not_live (h : ∀ i link refs, s.phase i ≠ .live link refs) : s.Exact :=
  fun _ i link refs live => absurd live (h i link refs)

theorem Placed.exact_of_free (h : s.Placed k) (free : s.serving = none) : s.Exact := by
  refine exact_of_not_live fun i link refs live => ?_
  have hs := h.serving_of_live live
  rw [free] at hs
  contradiction

theorem Placed.exact_of_pending (h : s.Placed k) {queue : List TicketId}
    (pending : s.phase i = .pending queue) : s.Exact := by
  refine exact_of_not_live fun j link refs live => ?_
  obtain rfl : i = j := h.eq_of_isOpen (by rw [pending]; rfl) (by rw [live]; rfl)
  rw [pending] at live
  contradiction

/-- A turn keeps the count of the handle in service exact. -/
theorem Turn.exact (turn : Turn k s mark s') (h : s.Orderly k) (exact : s.Exact) : s'.Exact := by
  have hplaced := turn.placed h.placed
  cases turn with
  | rest => exact exact
  | @hit j link refs live =>
    intro ho i link' refs' live'
    have hlt : j < s.phases.length := lt_of_phase_ne (by simp [live])
    have hphase := phase_setPhase_self
      (s := s.addTicket (.ready (.ok link) (some (.handle ⟨k, j⟩)))) hlt (.live link (refs + 1))
    obtain ⟨rfl, rfl, rfl⟩ := hplaced.eq_of_live hphase live'
    have hold := exact ho j link refs live
    have hnew := s.holding_addTicket (.ready (.ok link) (some (.handle ⟨k, j⟩))) (· = link)
    rw [if_pos (by simp [Ticket.ready, Ticket.held?])] at hnew
    change refs + 1 = (s.addTicket _).holding _
    omega
  | @wait j queue pending =>
    have hlt : j < s.phases.length := lt_of_phase_ne (by simp [pending])
    exact hplaced.exact_of_pending (phase_setPhase_self (s := s.addTicket _) hlt _)
  | enter =>
    exact hplaced.exact_of_pending (phase_openHandle_self (s.addTicket .fresh) k _ _)
  | touch found touched =>
    intro ho i link refs live
    rw [holding_touch found touched]
    exact exact ho i link refs live
  | @refund n t link j found unclaimed held =>
    intro ho i link' refs live
    have hplaced₁ : (s.dropUnclaimed n t link).Placed k := h.placed.congr rfl rfl rfl
    have hdrop := holding_dropUnclaimed found unclaimed (· = link')
    obtain ⟨j', hid, hj⟩ := h.refund_of_unclaimed found unclaimed
    obtain rfl : j = j' := by simpa using hj
    have hheld : t.held? = some link := by rw [Ticket.held?, unclaimed]
    have ho₀ : s.orphans ≠ [] := orphans_giveBack (s.dropUnclaimed n t link) _ ho
    rw [holding_giveBack]
    -- either the count and the holders of the link in service fall by one, or neither does
    by_cases e : i = j
    · subst e
      have live₁ := live_of_giveBack hplaced₁ live
      have live₀ : s.phase i = .live link' (refs + 1) := live₁
      have hcount := exact ho₀ i link' (refs + 1) live₀
      rw [if_pos (by simpa using (h.link_eq_iff live₀ found hheld hid).mpr rfl)] at hdrop
      omega
    · rw [phase_giveBack_ne _ k e] at live
      have hcount := exact ho₀ i link' refs live
      have hne : link ≠ link' := fun e' => e ((h.link_eq_iff live found hheld hid).mp e').symm
      rw [if_neg (by simpa using hne)] at hdrop
      exact hcount.trans hdrop.symm
  | @stray n t link j found unclaimed spent =>
    intro ho i link' refs live
    have hdrop := holding_dropUnclaimed found unclaimed (· = link')
    obtain ⟨j', hid, hj⟩ := h.refund_of_unclaimed found unclaimed
    obtain rfl : j = j' := by simpa using hj
    have hheld : t.held? = some link := by rw [Ticket.held?, unclaimed]
    have hne : link ≠ link' := by
      intro e
      obtain rfl := (h.link_eq_iff live found hheld hid).mp e
      have live₀ : s.phase j = .live link' refs := live
      rw [spent] at live₀
      contradiction
    rw [if_neg (by simpa using hne)] at hdrop
    exact (exact ho i link' refs live).trans hdrop.symm
  | @releaseOrphan j oldest =>
    intro ho i link refs live
    obtain ⟨-, n, hn⟩ := (h.placed.mem_orphans_iff _).mp (List.mem_of_head? oldest)
    -- an orphan is not the handle in service
    have hne : i ≠ j := by
      rintro rfl
      have := live_of_giveBack h.placed live
      simp [hn] at this
    rw [phase_giveBack_ne s k hne] at live
    rw [holding_giveBack]
    exact exact (orphans_giveBack _ _ ho) i link refs live
  -- nothing is claimed of a shelf without orphans
  | releaseLive clear =>
    intro ho
    exact absurd clear (orphans_giveBack _ _ ho)
  | answer => exact exact
  | orphan => exact hplaced.exact_of_free rfl
  | dismiss => exact hplaced.exact_of_free rfl
  | requeue => exact hplaced.exact_of_pending (phase_openHandle_self _ k _ _)

/-- Nobody holds a link that is still being created. -/
theorem Orderly.holding_eq_zero (h : s.Orderly k) {queue : List TicketId} {c : Creation}
    (pending : s.phase i = .pending queue) (found : s.creations[i]? = some c) :
    s.holding (· = c.link) = 0 := by
  rw [holding, List.countP_eq_zero]
  intro t ht hany
  obtain ⟨link, hheld, he⟩ := (Option.any_eq_true _ _).mp hany
  obtain rfl : link = c.link := by simpa using he
  obtain ⟨n, hn⟩ := List.getElem?_of_mem ht
  obtain ⟨c', hc', -, hd⟩ := h.creation_of_held hn hheld (h.recorded.link i c found)
  have := h.recorded.undelivered_of_pending pending hc'
  rw [hd] at this
  contradiction

/-- An arrival keeps the count of the handle in service exact. -/
theorem Arrival.exact (arrival : Arrival k i s woken s') (h : s.Orderly k) (exact : s.Exact) :
    s'.Exact := by
  have hplaced := arrival.placed h.placed
  cases arrival with
  | @granted queue c pending found made wanted =>
    intro ho j link refs live
    have hlt : i < s.phases.length := lt_of_phase_ne (by simp [pending])
    have hphase := phase_setPhase_self (s := (s.markDelivered i).settle (.ok c.link)
      (some (.handle ⟨k, i⟩))) hlt (.live c.link s.waiting)
    obtain ⟨rfl, rfl, rfl⟩ := hplaced.eq_of_live hphase live
    have hnew := (s.markDelivered i).holding_settle_ok c.link (some (.handle ⟨k, i⟩)) (· = c.link)
    have hold : (s.markDelivered i).holding (· = c.link) = 0 := h.holding_eq_zero pending found
    rw [hold, if_pos (by simp), Nat.zero_add] at hnew
    exact hnew.symm
  | unwanted => exact hplaced.exact_of_free rfl
  | failed => exact hplaced.exact_of_free rfl
  | late => exact exact

theorem Step.exact (step : Step k s mark woken s') (h : s.Orderly k) (exact : s.Exact) :
    s'.Exact := by
  obtain ⟨m, turn, ⟨rfl, -⟩ | ⟨i, arrival, -⟩⟩ := step
  · exact turn.exact h exact
  · exact arrival.exact (turn.orderly h) (turn.exact h exact)

/-! ## The link stays in service -/

theorem holding_pos (hs : s.held? n = some link) : 0 < s.holding (· = link) := by
  obtain ⟨t, ht, hl⟩ := held?_eq_some_iff.mp hs
  exact List.countP_pos_iff.mpr ⟨t, List.mem_of_getElem? ht, by simp [hl]⟩

theorem total_eq_zero_of_free (free : s.serving = none) (clear : s.orphans = []) : s.total = 0 := by
  rw [total, free, clear]
  rfl

/-- A link that somebody holds stays in service in a turn that is not part of a teardown, unless the
key loses its last reference. -/
theorem Turn.serves (turn : Turn k s mark s') (h : s.Orderly k) (exact : s.Exact)
    (calm : mark ≠ .torn) (still : s'.held? n = some link) (serves : s.Serves link) :
    s'.Serves link ∨ s'.total = 0 := by
  obtain ⟨i, refs, live⟩ := serves
  cases turn with
  | rest => exact Or.inl ⟨i, refs, live⟩
  | @hit j link' refs' live' =>
    obtain ⟨rfl, rfl, rfl⟩ := h.placed.eq_of_live live live'
    have hlt : i < s.phases.length := lt_of_phase_ne (by simp [live])
    exact Or.inl ⟨i, refs + 1, phase_setPhase_self (s := s.addTicket _) hlt _⟩
  | wait pending => exact absurd pending (h.not_pending_of_live live _ _)
  | enter free =>
    have hs := h.placed.serving_of_live live
    rw [free] at hs
    contradiction
  | touch => exact Or.inl ⟨i, refs, live⟩
  | @refund n' t link' j found unclaimed held =>
    have hplaced₁ : (s.dropUnclaimed n' t link').Placed k := h.placed.congr rfl rfl rfl
    have live₁ : (s.dropUnclaimed n' t link').phase i = .live link refs := live
    obtain ⟨j', hid, hj⟩ := h.refund_of_unclaimed found unclaimed
    obtain rfl : j = j' := by simpa using hj
    by_cases e : i = j
    · subst e
      have hlt : i < s.phases.length := lt_of_phase_ne (by simp [live])
      rcases giveBack_of_live hplaced₁ live₁ with ⟨rest, -, he⟩ | ⟨rfl, he⟩
      · rw [he]
        exact Or.inl ⟨i, rest + 1, phase_setPhase_self (s := s.dropUnclaimed n' t link') hlt _⟩
      · rw [he] at still ⊢
        by_cases clear : s.orphans = []
        · exact Or.inr (total_eq_zero_of_free rfl clear)
        · -- the count is exact, so the last reference was that of the dropped ticket
          have hheld : t.held? = some link' := by rw [Ticket.held?, unclaimed]
          have hlink : link' = link := (h.link_eq_iff live found hheld hid).mpr rfl
          have hcount := exact clear i link 1 live
          have hdrop := holding_dropUnclaimed found unclaimed (· = link)
          rw [if_pos (by simpa using hlink)] at hdrop
          have hpos : 0 < (s.dropUnclaimed n' t link').holding (· = link) := holding_pos still
          omega
    · exact Or.inl ⟨i, refs, (phase_giveBack_ne _ k e).trans live₁⟩
  | stray => exact Or.inl ⟨i, refs, live⟩
  | @releaseOrphan j oldest =>
    obtain ⟨-, n, hn⟩ := (h.placed.mem_orphans_iff _).mp (List.mem_of_head? oldest)
    have hne : i ≠ j := by
      rintro rfl
      simp [hn] at live
    exact Or.inl ⟨i, refs, (phase_giveBack_ne s k hne).trans live⟩
  | @releaseLive j clear serving held =>
    have hs := (h.placed.serving_of_live live).symm.trans serving
    obtain rfl : i = j := by simpa using hs
    have hlt : i < s.phases.length := lt_of_phase_ne (by simp [live])
    rcases giveBack_of_live h.placed live with ⟨rest, -, he⟩ | ⟨-, he⟩
    · rw [he]
      exact Or.inl ⟨i, rest + 1, phase_setPhase_self hlt _⟩
    · rw [he]
      exact Or.inr (total_eq_zero_of_free rfl clear)
  | answer => exact Or.inl ⟨i, refs, live⟩
  | orphan => exact absurd rfl calm
  | dismiss => exact absurd rfl calm
  | requeue => exact absurd rfl calm

/-- An arrival takes no link out of service. -/
theorem Arrival.serves (arrival : Arrival k i s woken s') (h : s.Orderly k)
    (serves : s.Serves link) : s'.Serves link := by
  obtain ⟨j, refs, live⟩ := serves
  cases arrival with
  | granted pending => exact absurd pending (h.not_pending_of_live live _ _)
  | unwanted pending => exact absurd pending (h.not_pending_of_live live _ _)
  | failed pending => exact absurd pending (h.not_pending_of_live live _ _)
  | late => exact ⟨j, refs, live⟩

theorem Step.serves (step : Step k s mark woken s') (h : s.Orderly k) (exact : s.Exact)
    (calm : mark ≠ .torn) (still : s'.held? n = some link) (serves : s.Serves link) :
    s'.Serves link ∨ s'.total = 0 := by
  obtain ⟨m, turn, ⟨rfl, -⟩ | ⟨i, arrival, rfl | ⟨hs, hi⟩⟩⟩ := step
  · exact turn.serves h exact calm still serves
  · exact Or.inl (arrival.serves h serves)
  · obtain ⟨j, refs, live⟩ := serves
    rcases (turn.opened h hs hi).2.1 with free | torn
    · have hs := h.placed.serving_of_live live
      rw [free] at hs
      contradiction
    · exact absurd torn calm

/-- A step grants only the link of the handle in service. -/
theorem Step.grants (step : Step k s mark woken s') (h : s.Orderly k)
    (hs : s'.held? n = some link) : s.held? n = some link ∨ s'.Serves link := by
  obtain ⟨m, turn, ⟨rfl, -⟩ | ⟨i, arrival, -⟩⟩ := step
  · exact turn.grants hs
  · rcases arrival.grants hs with hm | serves
    · rcases turn.grants hm with hold | serves
      · exact Or.inl hold
      · exact Or.inr (arrival.serves (turn.orderly h) serves)
    · exact Or.inr serves

end Shelf

end SharedLinks
