import SharedLinks.Proofs.Abandoned
import SharedLinks.Proofs.Deeds

/-!
# One creation at a time

Every handle of a hub comes with one request to the provider, made before the call that makes the handle
is over (`Outline.Requested`), and at most one handle of a key takes callers. As long as no teardown is
polled, the shelves are `Calm`: there are no orphans, and a handle comes to its end only after its
creation was delivered. A new handle of a key is then made only when all earlier ones have come to their
end, so that creations of one key never overlap (`creations_play`).
-/

namespace SharedLinks

/-! ## Requests -/

namespace Outline

/-- Every creation was requested once, for the key that its link is named after, and nothing else was
requested. -/
structure Requested (o : Outline) : Prop where
  once : ∀ id c, o.creation? id = some c →
    ∃ k i r, id = .made k i ∧ o.requests id = [r] ∧ r.key = k
  never : ∀ id, o.creation? id = none → o.requests id = []

variable {o o' : Outline}

/-- What was requested does not change where no creation is new. -/
theorem Requested.of_requests (h : o.Requested) (requests : o'.requests = o.requests)
    (creation : ∀ id, (o'.creation? id).isSome = (o.creation? id).isSome) : o'.Requested where
  once id c hc := by
    have hsome := creation id
    rw [hc, Option.isSome_some, eq_comm, Option.isSome_iff_exists] at hsome
    obtain ⟨c₀, hc₀⟩ := hsome
    rw [requests]
    exact h.once id c₀ hc₀
  never id hc := by
    have hnone := creation id
    rw [hc, Option.isSome_none, eq_comm, Option.isSome_eq_false_iff, Option.isNone_iff_eq_none]
      at hnone
    rw [requests]
    exact h.never id hnone

theorem isSome_onCreation (o : Outline) (id : LinkId) (f : Creation → Creation) (i : LinkId) :
    ((o.onCreation id f).creation? i).isSome = (o.creation? i).isSome := by
  unfold onCreation
  dsimp only
  split <;> simp

/-- A job requests nothing. -/
theorem Works.requests {j : Job} {left : Option Stage} (h : Works j o left o') :
    o'.requests = o.requests ∧ ∀ id, (o'.creation? id).isSome = (o.creation? id).isSome := by
  cases h with
  | wait | close | done => exact ⟨rfl, fun _ => rfl⟩
  | granted | unwanted | late | failed | failedLate =>
    exact ⟨rfl, fun id => isSome_onCreation o j.link.id _ id⟩

theorem Step.requested {kind : Kind} (step : Step kind o o') (h : o.Requested) : o'.Requested := by
  cases step with
  | tend | make | release | drain | force | dismiss | abort | discard =>
    exact h.of_requests rfl fun _ => rfl
  | answer => exact h.of_requests rfl fun id => isSome_onCreation o _ _ id
  | work split works => exact h.of_requests works.requests.1 works.requests.2
  | @start _ k i c r owner link fresh undelivered key =>
    have hrequests : ∀ id, ((o.request c r).addJob
        ⟨⟨c.link.id, .create⟩, c.owner, c.link, .awaitLink⟩).requests id =
          if id = c.link.id then o.requests id ++ [r] else o.requests id := fun _ => rfl
    constructor
    · intro id c' hc'
      rw [hrequests]
      change (if id = c.link.id then some c else o.creation? id) = some c' at hc'
      split
      · rename_i hid
        refine ⟨k, i, r, hid.trans link, ?_, key⟩
        rw [hid, h.never _ fresh, List.nil_append]
      · rename_i hid
        rw [if_neg hid] at hc'
        exact h.once id c' hc'
    · intro id hc'
      change (if id = c.link.id then some c else o.creation? id) = none at hc'
      split at hc'
      · contradiction
      · rename_i hid
        rw [hrequests, if_neg hid]
        exact h.never id hc'

end Outline

/-! ## Calm shelves -/

namespace Shelf

/-- No handle was orphaned, and none has come to its end before its creation was delivered. -/
structure Calm (s : Shelf) : Prop where
  unorphaned : ∀ i refs, s.phase i ≠ .orphaned refs
  delivered : ∀ (i : Nat) (c : Creation), s.creations[i]? = some c → s.phase i = .closed →
    c.delivered = true

variable {k : Key} {s s' : Shelf} {mark : Mark}

namespace Calm

theorem congr (h : s.Calm) (phases : s'.phases = s.phases) (creations : s'.creations = s.creations) :
    s'.Calm := by
  refine ⟨fun i refs => ?_, fun i c hc hp => ?_⟩
  · rw [phase_congr phases]
    exact h.unorphaned i refs
  · rw [creations] at hc
    rw [phase_congr phases] at hp
    exact h.delivered i c hc hp

/-- A handle moves on, and not to its end unless its creation was delivered. -/
theorem setPhase (h : s.Calm) (i : Nat) {p : Phase} (unorphaned : ∀ refs, p ≠ .orphaned refs)
    (closed : p = .closed → ∀ c : Creation, s.creations[i]? = some c → c.delivered = true) :
    (s.setPhase i p).Calm := by
  by_cases hi : i < s.phases.length
  · refine ⟨fun j refs => ?_, fun j c hc hp => ?_⟩
    · rw [phase_setPhase hi]
      split
      · exact unorphaned refs
      · exact h.unorphaned j refs
    · rw [phase_setPhase hi] at hp
      split at hp
      · rename_i hj
        subst hj
        exact closed hp c hc
      · exact h.delivered j c hc hp
  · exact h.congr (List.set_eq_of_length_le (by omega)) rfl

/-- Creations change, and none that was delivered is not any more. -/
theorem onCreation (h : s.Calm) (i : Nat) {f : Creation → Creation}
    (delivered : ∀ c, c.delivered = true → (f c).delivered = true) : (s.onCreation i f).Calm := by
  refine ⟨h.unorphaned, fun j c hc hp => ?_⟩
  rw [getElem?_onCreation] at hc
  split at hc
  · obtain ⟨c₀, hc₀, rfl⟩ := Option.map_eq_some_iff.mp hc
    exact delivered c₀ (h.delivered j c₀ hc₀ hp)
  · exact h.delivered j c hc hp

theorem markDelivered (h : s.Calm) (i : Nat) : (s.markDelivered i).Calm :=
  h.onCreation i fun _ _ => rfl

theorem openHandle (h : s.Calm) (recorded : s.Recorded k) (queue : List TicketId) (c : Creation) :
    (s.openHandle k queue c).Calm := by
  refine ⟨fun i refs => ?_, fun i c' hc' hp => ?_⟩
  · rw [phase_openHandle]
    split
    · exact Phase.noConfusion
    · exact h.unorphaned i refs
  · rw [phase_openHandle] at hp
    split at hp
    · contradiction
    · rename_i hi
      change (s.creations ++ [c])[i]? = some c' at hc'
      rw [← recorded.length] at hi
      rw [List.getElem?_append] at hc'
      split at hc'
      · exact h.delivered i c' hc' hp
      · rw [List.getElem?_eq_none (by simp; omega)] at hc'
        contradiction

/-- The last reference is given back on a link that was delivered. -/
theorem giveBack (h : s.Calm) (recorded : s.Recorded k) (hd : HandleId) : (s.giveBack hd).Calm := by
  unfold Shelf.giveBack
  split
  · exact h.setPhase _ (fun _ => Phase.noConfusion) fun e => Phase.noConfusion e
  · rename_i refs hp
    exact absurd hp (h.unorphaned _ _)
  · rename_i link hp
    refine (h.setPhase hd.index (p := .closed) (fun _ => Phase.noConfusion) fun _ c hc => ?_).congr
      (phases_forget _ _) (creations_forget _ _)
    have hfits := recorded.fits _ c hc
    rw [hp] at hfits
    exact hfits.2
  · rename_i hp
    exact absurd hp (h.unorphaned _ _)
  · exact h

/-- A key that no handle serves has none that has not come to its end. -/
theorem closed_of_free (h : s.Calm) (placed : s.Placed k) (free : s.serving = none) (i : Nat) :
    s.phase i = .closed := by
  have hclosed : ¬ (s.phase i).isOpen = true := by
    intro hopen
    have := placed.serving_of_isOpen hopen
    rw [free] at this
    contradiction
  cases hp : s.phase i with
  | pending queue => simp [hp, Phase.isOpen] at hclosed
  | live link refs => simp [hp, Phase.isOpen] at hclosed
  | orphaned refs => exact absurd hp (h.unorphaned i refs)
  | closed => rfl

/-- A creation that was not delivered is that of the pending handle. -/
theorem pending_of_undelivered (h : s.Calm) (recorded : s.Recorded k) {i : Nat} {c : Creation}
    (found : s.creations[i]? = some c) (undelivered : c.delivered = false) :
    ∃ queue, s.phase i = .pending queue := by
  have hfits := recorded.fits i c found
  cases hp : s.phase i with
  | pending queue => exact ⟨queue, rfl⟩
  | live link refs =>
    rw [hp] at hfits
    exact absurd hfits.2 (by simp [undelivered])
  | orphaned refs => exact absurd hp (h.unorphaned i refs)
  | closed =>
    have := h.delivered i c found hp
    simp [undelivered] at this

end Calm

/-- A turn that is not that of a teardown keeps the shelf calm. -/
theorem Turn.calm (turn : Turn k s mark s') (calm : s.Calm) (h : s.Orderly k)
    (untorn : mark ≠ .torn) : s'.Calm := by
  cases turn with
  | rest => exact calm
  | hit | wait =>
    exact (calm.congr rfl rfl : (s.addTicket _).Calm).setPhase _ (fun _ => Phase.noConfusion)
      fun e => Phase.noConfusion e
  | enter =>
    exact (calm.congr rfl rfl : (s.addTicket _).Calm).openHandle (h.recorded.congr rfl rfl) _ _
  | touch => exact calm.congr rfl rfl
  | refund =>
    exact (calm.congr rfl rfl : (s.dropUnclaimed _ _ _).Calm).giveBack (h.recorded.congr rfl rfl) _
  | stray => exact calm.congr rfl rfl
  | releaseOrphan => exact calm.giveBack h.recorded _
  | releaseLive => exact calm.giveBack h.recorded _
  | answer owner link delivered =>
    exact calm.onCreation _ fun c hc => (delivered c).trans hc
  | orphan | dismiss | requeue => exact absurd rfl untorn

/-- A handle that an outcome reaches may come to its end. -/
theorem Arrival.calm {i : Nat} {woken : List (Nat × Nat)} (arrival : Arrival k i s woken s')
    (calm : s.Calm) : s'.Calm := by
  have hend : ((s.markDelivered i).setPhase i .closed).Calm := by
    refine (calm.markDelivered i).setPhase i (fun _ => Phase.noConfusion) fun _ c hc => ?_
    rw [markDelivered, getElem?_onCreation, if_pos rfl] at hc
    obtain ⟨c₀, -, rfl⟩ := Option.map_eq_some_iff.mp hc
    rfl
  cases arrival with
  | granted =>
    exact ((calm.markDelivered i).congr rfl rfl : ((s.markDelivered i).settle _ _).Calm).setPhase i
      (fun _ => Phase.noConfusion) fun e => Phase.noConfusion e
  | unwanted => exact hend.congr rfl rfl
  | failed => exact hend.congr rfl rfl
  | late => exact calm.markDelivered i

theorem Step.calm {woken : List (Nat × Nat)} (step : Step k s mark woken s') (calm : s.Calm)
    (h : s.Orderly k) (untorn : mark ≠ .torn) : s'.Calm := by
  obtain ⟨m, turn, ⟨rfl, -⟩ | ⟨i, arrival, -⟩⟩ := step
  · exact turn.calm calm h untorn
  · exact arrival.calm (turn.calm calm h untorn)

/-- A turn that is not that of a teardown makes a creation only if no handle serves the key, and then
only one. -/
theorem Turn.length_creations (turn : Turn k s mark s') (untorn : mark ≠ .torn) :
    s'.creations.length = s.creations.length ∨
      s.serving = none ∧ s'.creations.length = s.creations.length + 1 := by
  cases turn with
  | enter free => exact Or.inr ⟨free, List.length_append⟩
  | refund =>
    rw [creations_giveBack]
    exact Or.inl rfl
  | releaseOrphan => exact Or.inl (congrArg _ (creations_giveBack s _))
  | releaseLive => exact Or.inl (congrArg _ (creations_giveBack s _))
  | answer => exact Or.inl (List.length_modify _ _ _)
  | rest | hit | wait | touch | stray => exact Or.inl rfl
  | orphan | dismiss | requeue => exact absurd rfl untorn

theorem Arrival.length_creations {i : Nat} {woken : List (Nat × Nat)}
    (arrival : Arrival k i s woken s') : s'.creations.length = s.creations.length := by
  cases arrival <;> exact List.length_modify _ _ _

theorem Step.length_creations {woken : List (Nat × Nat)} (step : Step k s mark woken s')
    (untorn : mark ≠ .torn) : s'.creations.length = s.creations.length ∨
      s.serving = none ∧ s'.creations.length = s.creations.length + 1 := by
  obtain ⟨m, turn, ⟨rfl, -⟩ | ⟨i, arrival, -⟩⟩ := step
  · exact turn.length_creations untorn
  · rw [arrival.length_creations]
    exact turn.length_creations untorn

end Shelf

namespace Hub

variable {w w' w₀ : Hub} {ms : List Move} {m : Move} {k : Key}

/-! ## Runs -/

/-- What holds of the requests of a hub holds after every run. -/
theorem requested_play (h : w.outline.Requested) (tidy : w.outline.Tidy) (ms : List Move) :
    (w.play ms).outline.Requested := by
  induction ms generalizing w with
  | nil => exact h
  | cons m ms ih =>
    have hchain := chain_move tidy.nodup_jobs m
    exact ih (hchain.keeps (fun _ _ _ _ step => step.requested) h) (hchain.tidy tidy)

/-- Each handle has a creation of its own, and there are no others. -/
theorem creation_of_shadow (h : Shadow w w') {k : Key} {i : Nat} :
    (w.outline.HasMade ⟨k, i⟩ → ∃ c, w.creation? (.made k i) = some c ∧ c.owner = ⟨k, i⟩) ∧
      ∀ c, w.creation? (.made k i) = some c → w.outline.HasMade ⟨k, i⟩ := by
  have hrecorded := (h.sound.orderly k).recorded
  have hlength : (w.shelf k).creations.length = (w.shelf k).phases.length := by
    rw [← h.twin.creations, ← h.twin.phases, hrecorded.length]
  constructor
  · intro hm
    change i < (w.shelf k).phases.length at hm
    rw [← hlength] at hm
    have hc : (w.shelf k).creations[i]? = some (w.shelf k).creations[i] :=
      List.getElem?_eq_getElem hm
    refine ⟨_, hc, hrecorded.owner i _ ?_⟩
    rw [h.twin.creations]
    exact hc
  · intro c hc
    have hlt := (List.getElem?_eq_some_iff.mp hc).1
    rw [hlength] at hlt
    exact hlt

/-- A link was requested exactly if its handle was made. -/
theorem hasMade_iff_requests (h : Shadow w w') (requested : w.outline.Requested) {i : Nat} :
    w.outline.HasMade ⟨k, i⟩ ↔ w.outline.requests (.made k i) ≠ [] := by
  obtain ⟨hof, hto⟩ := creation_of_shadow h (k := k) (i := i)
  constructor
  · intro hm
    obtain ⟨c, hc, -⟩ := hof hm
    obtain ⟨-, -, r, -, hr, -⟩ := requested.once (.made k i) c hc
    simp [hr]
  · intro hr
    by_contra hm
    refine hr (requested.never _ ?_)
    exact Option.eq_none_iff_forall_ne_some.mpr fun c hc => hm (hto c hc)

/-- Of the handles of a key only one takes callers. -/
theorem eq_of_isOpen (h : Shadow w w') {i j : Nat} (hi : (w.phase ⟨k, i⟩).isOpen = true)
    (hj : (w.phase ⟨k, j⟩).isOpen = true) : i = j := by
  rw [← h.twin.phase] at hi hj
  exact (h.sound.orderly k).placed.eq_of_isOpen hi hj

/-- On a calm shelf the handle of a creation that was not delivered takes callers. -/
theorem isOpen_of_undelivered (h : Shadow w w') (calm : (w'.shelf k).Calm) {i : Nat} {c : Creation}
    (found : w.creation? (.made k i) = some c) (undelivered : c.delivered = false) :
    (w.phase ⟨k, i⟩).isOpen = true := by
  rw [← h.twin.creation?] at found
  obtain ⟨queue, hp⟩ :=
    calm.pending_of_undelivered (h.sound.orderly k).recorded found undelivered
  rw [← h.twin.phase, phase_eq, hp]
  rfl

/-- A mark is that of a teardown only if a teardown is polled. -/
theorem mark_ne_torn (h : ∀ i wish, m ≠ .pollTeardown i wish) (k : Key) : w.mark m k ≠ .torn := by
  intro e
  rcases w.mark_cases m k with h' | ⟨h', -⟩ | ⟨h', -⟩ | ⟨h', -⟩ | ⟨-, i, wish, hm, -⟩
  · simp [h'] at e
  · simp [h'] at e
  · simp [h'] at e
  · simp [h'] at e
  · exact h i wish hm

/-- Shelves are calm as long as no teardown is polled. -/
theorem calm_play (h : Shadow w w') (calm : ∀ k, (w'.shelf k).Calm)
    (untorn : ∀ i wish, .pollTeardown i wish ∉ ms) :
    ∃ w'', Shadow (w.play ms) w'' ∧ ∀ k, (w''.shelf k).Calm := by
  induction ms generalizing w w' with
  | nil => exact ⟨w', h, calm⟩
  | cons m ms ih =>
    obtain ⟨w'', hshadow, hmoves⟩ := h.move m
    refine ih hshadow (fun k => ?_) fun i wish hm => untorn i wish (List.mem_cons_of_mem m hm)
    obtain ⟨woken, step, -⟩ := hmoves.step k
    refine step.calm (calm k) (h.sound.orderly k) (mark_ne_torn (fun i wish e => ?_) k)
    exact untorn i wish (e ▸ List.mem_cons_self)

/-- A move makes a handle of a key only if all earlier ones have come to their end, and only one. -/
theorem closed_of_new (h : Shadow w w') (calm : (w'.shelf k).Calm)
    (untorn : ∀ i wish, m ≠ .pollTeardown i wish) {i : Nat} (old : ¬ w.outline.HasMade ⟨k, i⟩)
    (new : (w.move m).outline.HasMade ⟨k, i⟩) :
    w.outline.handles k = i ∧ (w.move m).outline.handles k = i + 1 ∧
      ∀ j, w.phase ⟨k, j⟩ = .closed := by
  obtain ⟨w'', hshadow, hmoves⟩ := h.move m
  obtain ⟨woken, step, -⟩ := hmoves.step k
  have horderly := h.sound.orderly k
  have hbefore : (w'.shelf k).creations.length = w.outline.handles k := by
    rw [horderly.recorded.length, h.twin.phases]
    rfl
  have hafter : (w''.shelf k).creations.length = (w.move m).outline.handles k := by
    rw [(hshadow.sound.orderly k).recorded.length, hshadow.twin.phases]
    rfl
  rw [Outline.HasMade] at old new
  dsimp only at old new
  rcases step.length_creations (mark_ne_torn untorn k) with hsame | ⟨hfree, hone⟩
  · omega
  · refine ⟨by omega, by omega, fun j => ?_⟩
    rw [← h.twin.phase]
    exact calm.closed_of_free horderly.placed hfree j

section Build

variable {settings : Settings} {seed : UInt64} {ambient : Option Dispatch}

theorem requested_build (built : settings.build seed ambient = .ok w) : w.outline.Requested := by
  have hnone := creation_build built
  refine ⟨fun id c hc => by simp [hnone] at hc, fun id _ => ?_⟩
  change w.events.reverse.filterMap _ = []
  rw [(build_empty built).2.2.1]
  rfl

theorem shadow_build (built : settings.build seed ambient = .ok w) : Shadow w w :=
  (sound_build built).shadow (isHeld_of_clones (by rw [clones_build built]; exact Nat.one_pos))

theorem calm_build (built : settings.build seed ambient = .ok w) (k : Key) : (w.shelf k).Calm := by
  rw [shelf_build built]
  refine ⟨fun i refs => Phase.noConfusion, fun i c hc => ?_⟩
  simp at hc

/-- Whatever happens to a hub, one link was requested for each handle, by the time the call that made
the handle is over, and for the handle's key; nothing else was requested; and at most one handle of a
key takes callers. If no teardown is polled, a link is requested for a key only when all earlier
handles of the key have come to their end and the answers to all its earlier creations have reached
them, and at most one creation of a key is under way. -/
theorem creations_play (built : settings.build seed ambient = .ok w₀) (ms : List Move) :
    (∀ h, (w₀.play ms).outline.HasMade h → ∃ r c,
      (w₀.play ms).outline.requests (.made h.key h.index) = [r] ∧ r.key = h.key ∧
        (w₀.play ms).creation? (.made h.key h.index) = some c ∧ c.owner = h) ∧
    (∀ id, (w₀.play ms).outline.requests id ≠ [] →
      ∃ h, (w₀.play ms).outline.HasMade h ∧ id = .made h.key h.index) ∧
    (∀ k i j, ((w₀.play ms).phase ⟨k, i⟩).isOpen = true → ((w₀.play ms).phase ⟨k, j⟩).isOpen = true →
      i = j) ∧
    ((∀ i wish, .pollTeardown i wish ∉ ms) →
      (∀ pre m post, ms = pre ++ m :: post → ∀ k i,
        (w₀.play pre).outline.requests (.made k i) = [] →
        (w₀.play (pre ++ [m])).outline.requests (.made k i) ≠ [] →
        (w₀.play pre).outline.handles k = i ∧ (w₀.play (pre ++ [m])).outline.handles k = i + 1 ∧
        (∀ j, (w₀.play pre).phase ⟨k, j⟩ = .closed) ∧
        ∀ j c, (w₀.play pre).creation? (.made k j) = some c →
          c.delivered = true ∧ c.making ≠ .shut) ∧
      ∀ k i j c c', (w₀.play ms).creation? (.made k i) = some c →
        (w₀.play ms).creation? (.made k j) = some c' → c.delivered = false → c'.delivered = false →
          i = j) := by
  have htidy := tidy_build built
  have hshadow₀ := shadow_build built
  have hrequested := requested_play (requested_build built) htidy
  obtain ⟨w', hshadow⟩ := hshadow₀.play ms
  refine ⟨fun h hm => ?_, fun id hr => ?_, fun k i j => eq_of_isOpen hshadow, fun untorn => ⟨?_, ?_⟩⟩
  · obtain ⟨c, hc, howner⟩ := (creation_of_shadow hshadow).1 hm
    obtain ⟨k, i, r, hid, hr, hkey⟩ := (hrequested ms).once (.made h.key h.index) c hc
    obtain ⟨rfl, rfl⟩ := LinkId.made.inj hid
    exact ⟨r, c, hr, hkey, hc, howner⟩
  · cases hc : (w₀.play ms).outline.creation? id with
    | none => exact absurd ((hrequested ms).never id hc) hr
    | some c =>
      obtain ⟨k, i, r, rfl, -, -⟩ := (hrequested ms).once id c hc
      exact ⟨⟨k, i⟩, (hasMade_iff_requests hshadow (hrequested ms)).mpr hr, rfl⟩
  · rintro pre m post rfl k i hold hnew
    have huntorn : ∀ j wish, .pollTeardown j wish ∉ pre := fun j wish hm =>
      untorn j wish (List.mem_append_left _ hm)
    obtain ⟨w'', hshadow', hcalm⟩ := calm_play hshadow₀ (calm_build built) huntorn
    obtain ⟨w₂, hshadow₂⟩ := hshadow₀.play (pre ++ [m])
    rw [← hasMade_iff_requests hshadow₂ (hrequested _), play_concat] at hnew
    obtain ⟨hbefore, hafter, hclosed⟩ := closed_of_new hshadow' (hcalm k)
      (fun j wish e => untorn j wish (by simp [e]))
      (fun h => (hasMade_iff_requests hshadow' (hrequested pre)).mp h hold) hnew
    rw [play_concat]
    refine ⟨hbefore, hafter, hclosed, fun j c hc => ?_⟩
    have hdelivered : c.delivered = true := by
      refine (hcalm k).delivered j c ?_ ((hshadow'.twin.phase ⟨k, j⟩).trans (hclosed j))
      rw [hshadow'.twin.creations]
      exact hc
    have hstands := (tidy_play htidy pre).stands (.made k j) c hc
    exact ⟨hdelivered, hstands.answered hdelivered⟩
  · intro k i j c c' hc hc' hnew hnew'
    obtain ⟨w'', hshadow', hcalm⟩ := calm_play hshadow₀ (calm_build built) untorn
    exact eq_of_isOpen hshadow' (isOpen_of_undelivered hshadow' (hcalm k) hc hnew)
      (isOpen_of_undelivered hshadow' (hcalm k) hc' hnew')

end Build

/-- Two callers ask for a link, one gives up, the other yields the link and releases it, and then
somebody asks again. -/
def askAfterwards : List Move :=
  [.acquire sampleKey, .acquire sampleKey, .runJob ⟨.made sampleKey 0, .create⟩, .drop sampleKey 1,
    .poll sampleKey 0, .release sampleKey, .acquire sampleKey]

/-- The second link was requested when the first handle had come to its end. -/
theorem creations_play_askAfterwards :
    sampleSettings.build 0 none = .ok sample ∧
      (sample.play (askAfterwards.take 6)).phase ⟨sampleKey, 0⟩ = .closed ∧
      ∃ r, (sample.play askAfterwards).outline.requests (.made sampleKey 1) = [r] ∧
        r.key = sampleKey := by
  obtain ⟨honce, -, -, hcalm⟩ := creations_play build_sample askAfterwards
  have huntorn : ∀ i wish, .pollTeardown i wish ∉ askAfterwards := by simp [askAfterwards]
  obtain ⟨-, -, hclosed, -⟩ := (hcalm huntorn).1 (askAfterwards.take 6) (.acquire sampleKey) [] rfl
    sampleKey 1 (by decide) (by decide)
  obtain ⟨r, c, hr, hkey, -⟩ := honce ⟨sampleKey, 1⟩ (by decide)
  exact ⟨build_sample, hclosed 0, r, hr, hkey⟩

end Hub

end SharedLinks
