import SharedLinks.Proofs.Placed

/-!
# Which creation and which link a handle has

`Shelf.Recorded` ties the creations of a key to its handles: the creation with a number belongs to
the handle with that number and is for the link with that number, and it has been delivered exactly
when the handle has a link. `Shelf.Granted` ties the tickets to the creations: every link that a
ticket was settled with is that of a delivered creation, and an unclaimed link goes back to the
handle that the creation belongs to.
-/

namespace SharedLinks

/-- The phase of a handle agrees with the creation that belongs to it. -/
def Phase.Fits (c : Creation) : Phase → Prop
  | .pending _ => c.delivered = false
  | .live link _ => c.link = link ∧ c.delivered = true
  | .orphaned _ => c.delivered = true
  | .closed => True

namespace Shelf

/-- Every handle of the key has the creation with its number. -/
structure Recorded (k : Key) (s : Shelf) : Prop where
  /-- There are as many creations as handles. -/
  length : s.creations.length = s.phases.length
  /-- A creation belongs to the handle with its number. -/
  owner : ∀ (i : Nat) (c : Creation), s.creations[i]? = some c → c.owner = ⟨k, i⟩
  /-- A creation is for the link with its number. -/
  link : ∀ (i : Nat) (c : Creation), s.creations[i]? = some c → c.link.id = .made k i
  /-- The handle is as far as its creation. -/
  fits : ∀ (i : Nat) (c : Creation), s.creations[i]? = some c → (s.phase i).Fits c

/-- Every link that a ticket was settled with comes from a creation of the key. -/
structure Granted (k : Key) (s : Shelf) : Prop where
  /-- The creation has been delivered. -/
  source : ∀ t ∈ s.tickets, ∀ link : Link, t.outcome? = some (.ok link) →
    ∃ (i : Nat) (c : Creation), s.creations[i]? = some c ∧ c.link = link ∧ c.delivered = true
  /-- The reference of an unclaimed link goes back to the handle that counted it. -/
  refund : ∀ t ∈ s.tickets, ∀ (link : Link) (r : Option Refund), t.state = .settled (.ok link) r →
    ∃ i, link.id = .made k i ∧ r = some (.handle ⟨k, i⟩)

/-! ## Creations -/

theorem getElem?_onCreation (s : Shelf) (i j : Nat) (f : Creation → Creation) :
    (s.onCreation i f).creations[j]? = if i = j then (s.creations[j]?).map f
      else s.creations[j]? := by
  unfold onCreation
  rw [List.getElem?_modify]
  split <;> simp

namespace Recorded

variable {k : Key} {s : Shelf}

theorem congr {s' : Shelf} (h : s.Recorded k) (hphases : s'.phases = s.phases)
    (hcreations : s'.creations = s.creations) : s'.Recorded k := by
  constructor
  · rw [hphases, hcreations, h.length]
  · rw [hcreations]
    exact h.owner
  · rw [hcreations]
    exact h.link
  · intro i c hc
    rw [hcreations] at hc
    rw [phase_congr hphases]
    exact h.fits i c hc

/-- A handle that is in any phase but the last has a creation. -/
theorem exists_creation (h : s.Recorded k) {i : Nat} (hi : s.phase i ≠ .closed) :
    ∃ c : Creation, s.creations[i]? = some c := by
  have hlt := lt_of_phase_ne hi
  rw [← h.length] at hlt
  exact ⟨_, List.getElem?_eq_getElem hlt⟩

/-- The link of a live handle is that of its creation, which has been delivered. -/
theorem creation_of_live (h : s.Recorded k) {i : Nat} {link : Link} {refs : Nat}
    (hi : s.phase i = .live link refs) :
    ∃ c : Creation, s.creations[i]? = some c ∧ c.link = link ∧ c.delivered = true := by
  obtain ⟨c, hc⟩ := h.exists_creation (i := i) (by simp [hi])
  have hfits := h.fits i c hc
  rw [hi] at hfits
  exact ⟨c, hc, hfits.1, hfits.2⟩

theorem id_of_live (h : s.Recorded k) {i : Nat} {link : Link} {refs : Nat}
    (hi : s.phase i = .live link refs) : link.id = .made k i := by
  obtain ⟨c, hc, rfl, -⟩ := h.creation_of_live hi
  exact h.link i c hc

/-- The creation of a pending handle has not been delivered. -/
theorem undelivered_of_pending (h : s.Recorded k) {i : Nat} {queue : List TicketId} {c : Creation}
    (hi : s.phase i = .pending queue) (hc : s.creations[i]? = some c) : c.delivered = false := by
  have hfits := h.fits i c hc
  rwa [hi] at hfits

theorem setPhase (h : s.Recorded k) (i : Nat) (p : Phase)
    (hp : ∀ c : Creation, s.creations[i]? = some c → p.Fits c) : (s.setPhase i p).Recorded k := by
  constructor
  · rw [length_setPhase]
    exact h.length
  · exact h.owner
  · exact h.link
  · intro j c hc
    have hlt : j < s.creations.length := (List.getElem?_eq_some_iff.mp hc).1
    by_cases hj : j = i
    · subst hj
      rw [phase_setPhase_self (by rwa [← h.length])]
      exact hp c hc
    · rw [phase_setPhase_ne hj]
      exact h.fits j c hc

/-- A closed handle fits any creation. -/
theorem close (h : s.Recorded k) (i : Nat) : (s.setPhase i .closed).Recorded k :=
  h.setPhase i .closed fun _ _ => trivial

/-- An answer of the provider changes neither the link nor the handle of a creation. -/
theorem onCreation (h : s.Recorded k) (i : Nat) {f : Creation → Creation}
    (howner : ∀ c, (f c).owner = c.owner) (hlink : ∀ c, (f c).link = c.link)
    (hfits : ∀ c : Creation, s.creations[i]? = some c → (s.phase i).Fits (f c)) :
    (s.onCreation i f).Recorded k := by
  constructor
  · exact (List.length_modify _ _ _).trans h.length
  · intro j c hc
    rw [getElem?_onCreation] at hc
    split at hc
    · obtain ⟨c, hc', rfl⟩ := Option.map_eq_some_iff.mp hc
      rw [howner]
      exact h.owner j c hc'
    · exact h.owner j c hc
  · intro j c hc
    rw [getElem?_onCreation] at hc
    split at hc
    · obtain ⟨c, hc', rfl⟩ := Option.map_eq_some_iff.mp hc
      rw [hlink]
      exact h.link j c hc'
    · exact h.link j c hc
  · intro j c hc
    change (s.phase j).Fits c
    rw [getElem?_onCreation] at hc
    split at hc
    · rename_i hj
      subst hj
      obtain ⟨c, hc', rfl⟩ := Option.map_eq_some_iff.mp hc
      exact hfits c hc'
    · exact h.fits j c hc

/-- An outcome reaches a handle, which moves on with it. -/
theorem deliver (h : s.Recorded k) (i : Nat) (p : Phase)
    (hp : ∀ c : Creation, s.creations[i]? = some c → p.Fits { c with delivered := true }) :
    ((s.markDelivered i).setPhase i p).Recorded k := by
  have hclosed : ((s.setPhase i .closed).markDelivered i).Recorded k := by
    refine (h.close i).onCreation i (fun _ => rfl) (fun _ => rfl) ?_
    intro c hc
    have hlt : i < s.creations.length := (List.getElem?_eq_some_iff.mp hc).1
    rw [phase_setPhase_self (by rwa [← h.length])]
    trivial
  have := hclosed.setPhase i p ?_
  · have he : ((s.setPhase i .closed).markDelivered i).setPhase i p
        = (s.markDelivered i).setPhase i p := by
      unfold markDelivered Shelf.onCreation Shelf.setPhase
      simp
    rwa [he] at this
  · intro c hc
    rw [markDelivered, getElem?_onCreation, if_pos rfl] at hc
    obtain ⟨c, hc', rfl⟩ := Option.map_eq_some_iff.mp hc
    exact hp c hc'

/-- A new handle comes with a new creation. -/
theorem openHandle (h : s.Recorded k) (queue : List TicketId) {c : Creation}
    (hc : c.IsNew k s.creations.length) : (s.openHandle k queue c).Recorded k := by
  have hmem : ∀ i c', (s.openHandle k queue c).creations[i]? = some c' →
      s.creations[i]? = some c' ∨ i = s.creations.length ∧ c' = c := by
    intro i c' hc'
    change (s.creations ++ [c])[i]? = some c' at hc'
    rw [List.getElem?_append] at hc'
    split at hc'
    · exact Or.inl hc'
    · rename_i hge
      right
      rw [List.getElem?_singleton] at hc'
      split at hc'
      · rename_i hi
        exact ⟨by omega, (Option.some.inj hc').symm⟩
      · contradiction
  constructor
  · change (s.creations ++ [c]).length = (s.phases ++ [_]).length
    rw [List.length_append, List.length_append, h.length]
    rfl
  · intro i c' hc'
    rcases hmem i c' hc' with hc' | ⟨rfl, rfl⟩
    · exact h.owner i c' hc'
    · exact hc.owner
  · intro i c' hc'
    rcases hmem i c' hc' with hc' | ⟨rfl, rfl⟩
    · exact h.link i c' hc'
    · exact hc.link
  · intro i c' hc'
    rw [phase_openHandle]
    rcases hmem i c' hc' with hc' | ⟨rfl, rfl⟩
    · have hlt : i < s.creations.length := (List.getElem?_eq_some_iff.mp hc').1
      rw [if_neg (by rw [← h.length]; omega)]
      exact h.fits i c' hc'
    · rw [if_pos h.length]
      exact hc.delivered

theorem giveBack (h : s.Recorded k) (i : Nat) : (s.giveBack ⟨k, i⟩).Recorded k := by
  unfold Shelf.giveBack
  dsimp only
  split
  · rename_i link refs hi
    refine h.setPhase i _ fun c hc => ?_
    have hfits := h.fits i c hc
    rwa [hi] at hfits
  · rename_i refs hi
    refine h.setPhase i _ fun c hc => ?_
    have hfits := h.fits i c hc
    rwa [hi] at hfits
  · exact (h.close i).congr (phases_forget _ _) (creations_forget _ _)
  · exact (h.close i).congr (phases_forget _ _) (creations_forget _ _)
  · exact h

end Recorded

/-- A turn keeps the creations of the handles. -/
theorem Turn.recorded {k : Key} {s s' : Shelf} {mark : Mark} (turn : Turn k s mark s')
    (h : s.Recorded k) : s'.Recorded k := by
  cases turn with
  | rest => exact h
  | hit live =>
    refine (h.congr rfl rfl : (s.addTicket _).Recorded k).setPhase _ _ fun c hc => ?_
    have hfits := h.fits _ c hc
    rwa [live] at hfits
  | wait pending =>
    refine (h.congr rfl rfl : (s.addTicket _).Recorded k).setPhase _ _ fun c hc => ?_
    exact h.undelivered_of_pending pending hc
  | enter free new => exact (h.congr rfl rfl : (s.addTicket _).Recorded k).openHandle _ new
  | touch => exact h.congr rfl rfl
  | refund => exact (h.congr rfl rfl : (s.dropUnclaimed _ _ _).Recorded k).giveBack _
  | stray => exact h.congr rfl rfl
  | releaseOrphan => exact h.giveBack _
  | releaseLive => exact h.giveBack _
  | answer owner link delivered =>
    refine h.onCreation _ owner link fun c hc => ?_
    have hfits := h.fits _ c hc
    unfold Phase.Fits at hfits ⊢
    rw [link, delivered]
    exact hfits
  | orphan serving live =>
    refine (h.congr rfl rfl : (s.unlink _).Recorded k).setPhase _ _ fun c hc => ?_
    have hfits := h.fits _ c hc
    rw [live] at hfits
    exact hfits.2
  | dismiss => exact (h.close _).congr rfl rfl
  | requeue serving pending new =>
    exact ((h.close _).congr rfl rfl : ((s.setPhase _ .closed).serve none).Recorded k).openHandle _ new

/-- An arrival marks the creation of its handle as delivered. -/
theorem Arrival.recorded {k : Key} {i : Nat} {s s' : Shelf} {woken : List (Nat × Nat)}
    (arrival : Arrival k i s woken s') (h : s.Recorded k) : s'.Recorded k := by
  cases arrival with
  | @granted _ c pending found made wanted =>
    have hd := h.deliver i (.live c.link s.waiting) fun c' hc' => by
      rw [found] at hc'
      rw [← Option.some.inj hc']
      exact ⟨rfl, rfl⟩
    exact hd.congr rfl rfl
  | unwanted => exact (h.deliver i .closed fun _ _ => trivial).congr rfl rfl
  | failed => exact (h.deliver i .closed fun _ _ => trivial).congr rfl rfl
  | late closed =>
    refine h.onCreation i (fun _ => rfl) (fun _ => rfl) fun c hc => ?_
    rw [closed]
    trivial

/-! ## Creations stay -/

/-- The creation with this number is there as before, delivered or not. -/
def Keeps (s s' : Shelf) (i : Nat) : Prop :=
  ∀ c : Creation, s.creations[i]? = some c →
    ∃ c', s'.creations[i]? = some c' ∧ c'.link = c.link ∧ c'.delivered = c.delivered

theorem Keeps.of_eq {s s' : Shelf} (h : s'.creations = s.creations) (i : Nat) : s.Keeps s' i := by
  intro c hc
  exact ⟨c, by rwa [h], rfl, rfl⟩

theorem keeps_openHandle (s : Shelf) (k : Key) (queue : List TicketId) (c : Creation) (i : Nat) :
    s.Keeps (s.openHandle k queue c) i := by
  intro c' hc'
  refine ⟨c', ?_, rfl, rfl⟩
  change (s.creations ++ [c])[i]? = some c'
  rw [List.getElem?_append_left (List.getElem?_eq_some_iff.mp hc').1]
  exact hc'

/-- The creations of a shelf are still there, and those that were delivered still are. -/
def Extends (s s' : Shelf) : Prop :=
  ∀ (i : Nat) (c : Creation), s.creations[i]? = some c →
    ∃ c', s'.creations[i]? = some c' ∧ c'.link = c.link ∧ (c.delivered = true → c'.delivered = true)

theorem Extends.of_keeps {s s' : Shelf} (h : ∀ i, s.Keeps s' i) : s.Extends s' := by
  intro i c hc
  obtain ⟨c', hc', hlink, hd⟩ := h i c hc
  exact ⟨c', hc', hlink, fun e => hd.trans e⟩

theorem Extends.of_eq {s s' : Shelf} (h : s'.creations = s.creations) : s.Extends s' :=
  .of_keeps fun i => .of_eq h i

theorem extends_openHandle (s : Shelf) (k : Key) (queue : List TicketId) (c : Creation) :
    s.Extends (s.openHandle k queue c) :=
  .of_keeps (s.keeps_openHandle k queue c)

theorem extends_onCreation (s : Shelf) (i : Nat) {f : Creation → Creation}
    (hlink : ∀ c, (f c).link = c.link) (hf : ∀ c, c.delivered = true → (f c).delivered = true) :
    s.Extends (s.onCreation i f) := by
  intro j c hc
  by_cases hj : i = j
  · exact ⟨f c, by rw [getElem?_onCreation, if_pos hj, hc]; rfl, hlink c, hf c⟩
  · exact ⟨c, by rw [getElem?_onCreation, if_neg hj, hc], rfl, id⟩

end Shelf

end SharedLinks
