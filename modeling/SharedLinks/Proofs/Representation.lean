import SharedLinks.Proofs.Books
import SharedLinks.Proofs.Runs

/-!
# Every handle is where its phase says

A hub keeps its handles in two places: in the service of their key and among the key's orphans.
`Hub.Represents` says that a handle is in exactly the place that its phase tells, and that this is its
own key's; `represents_play` that this holds in every state which a hub can reach while somebody holds
it, and that a handle which has left its service never enters it again.
-/

namespace SharedLinks

namespace Hub

/-- The hub has made this handle at some time. -/
def HasMade (w : Hub) (h : HandleId) : Prop := h.index < (w.shelf h.key).phases.length

/-- The handle serves its key and has no other place. -/
def InService (w : Hub) (h : HandleId) : Prop :=
  (∀ k, w.serving k = some h ↔ k = h.key) ∧ ∀ k, h ∉ (w.shelf k).orphans

/-- The handle is once among the orphans of its key and has no other place. -/
def IsOrphan (w : Hub) (h : HandleId) : Prop :=
  (∀ k, w.serving k ≠ some h) ∧ ∀ k, (w.shelf k).orphans.count h = if k = h.key then 1 else 0

/-- The handle has no place. -/
def IsGone (w : Hub) (h : HandleId) : Prop :=
  (∀ k, w.serving k ≠ some h) ∧ ∀ k, h ∉ (w.shelf k).orphans

/-- Every handle has the place that its phase tells. -/
structure Represents (w : Hub) : Prop where
  inService_iff : ∀ h, w.HasMade h → (w.InService h ↔
    (∃ queue, w.phase h = .pending queue) ∨ ∃ link refs, w.phase h = .live link refs ∧ 1 ≤ refs)
  isOrphan_iff : ∀ h, w.HasMade h → (w.IsOrphan h ↔ ∃ refs, w.phase h = .orphaned refs ∧ 1 ≤ refs)
  isGone_iff : ∀ h, w.HasMade h → (w.IsGone h ↔ w.phase h = .closed)
  /-- There is no fourth case. -/
  cases : ∀ h, w.HasMade h → w.InService h ∨ w.IsOrphan h ∨ w.IsGone h
  /-- No empty list of orphans is kept. -/
  entry : ∀ k, (w.shelf k).orphaned ≠ some []
  /-- A handle stands on the shelf of its own key only. -/
  stored : ∀ k h, w.serving k = some h ∨ h ∈ (w.shelf k).orphans → h.key = k ∧ w.HasMade h

variable {w : Hub} {h : HandleId}

/-- An open handle serves its key. -/
theorem inService_of_isOpen (placed : ∀ k, (w.shelf k).Placed k) (ho : (w.phase h).isOpen = true) :
    w.InService h := by
  refine ⟨fun k => ?_, fun k hm => ?_⟩
  · rw [serving_eq, (placed k).serving_iff]
    constructor
    · rintro ⟨rfl, -⟩
      rfl
    · rintro rfl
      exact ⟨rfl, ho⟩
  · obtain ⟨rfl, n, hn⟩ := ((placed k).mem_orphans_iff h).mp hm
    rw [phase_eq, hn] at ho
    contradiction

/-- An orphaned handle is among the orphans of its key. -/
theorem isOrphan_of_orphaned (placed : ∀ k, (w.shelf k).Placed k) {n : Nat}
    (hn : w.phase h = .orphaned n) : w.IsOrphan h := by
  refine ⟨fun k hs => ?_, fun k => ?_⟩
  · obtain ⟨rfl, ho⟩ := ((placed k).serving_iff h).mp hs
    rw [← phase_eq, hn] at ho
    contradiction
  · by_cases hk : k = h.key
    · subst hk
      rw [if_pos rfl]
      exact List.count_eq_one_of_mem (placed _).nodup (((placed _).mem_orphans_iff h).mpr ⟨rfl, n, hn⟩)
    · rw [if_neg hk, List.count_eq_zero]
      intro hm
      exact hk (((placed k).mem_orphans_iff h).mp hm).1.symm

/-- A closed handle has no place. -/
theorem isGone_of_closed (placed : ∀ k, (w.shelf k).Placed k) (hc : w.phase h = .closed) :
    w.IsGone h := by
  refine ⟨fun k hs => ?_, fun k hm => ?_⟩
  · obtain ⟨rfl, ho⟩ := ((placed k).serving_iff h).mp hs
    rw [← phase_eq, hc] at ho
    contradiction
  · obtain ⟨rfl, n, hn⟩ := ((placed k).mem_orphans_iff h).mp hm
    rw [← phase_eq, hc] at hn
    contradiction

theorem InService.not_isOrphan (hs : w.InService h) : ¬ w.IsOrphan h := fun ho =>
  ho.1 h.key ((hs.1 h.key).mpr rfl)

theorem InService.not_isGone (hs : w.InService h) : ¬ w.IsGone h := fun hg =>
  hg.1 h.key ((hs.1 h.key).mpr rfl)

theorem IsOrphan.not_isGone (ho : w.IsOrphan h) : ¬ w.IsGone h := by
  intro hg
  have hone := ho.2 h.key
  rw [if_pos rfl, List.count_eq_zero.mpr (hg.2 h.key)] at hone
  contradiction

/-- On shelves that are in order every handle is where its phase says. -/
theorem represents_of_placed (placed : ∀ k, (w.shelf k).Placed k) : w.Represents := by
  have hcounted : ∀ h, (w.phase h).IsCounted := fun h => (placed h.key).counted h.index
  have hplace : ∀ h, ((w.phase h).isOpen = true ∧ w.InService h) ∨
      ((∃ n, w.phase h = .orphaned n) ∧ w.IsOrphan h) ∨ (w.phase h = .closed ∧ w.IsGone h) := by
    intro h
    cases hp : w.phase h with
    | pending queue => exact Or.inl ⟨rfl, inService_of_isOpen placed (by rw [hp]; rfl)⟩
    | live link refs => exact Or.inl ⟨rfl, inService_of_isOpen placed (by rw [hp]; rfl)⟩
    | orphaned n => exact Or.inr (Or.inl ⟨⟨n, rfl⟩, isOrphan_of_orphaned placed hp⟩)
    | closed => exact Or.inr (Or.inr ⟨rfl, isGone_of_closed placed hp⟩)
  refine ⟨fun h _ => ?_, fun h _ => ?_, fun h _ => ?_, fun h _ => ?_, fun k => (placed k).entry, ?_⟩
  · have hc := hcounted h
    rcases hplace h with ⟨ho, hs⟩ | ⟨⟨n, hn⟩, ho⟩ | ⟨hcl, hg⟩
    · refine iff_of_true hs ?_
      cases hp : w.phase h with
      | pending queue => exact Or.inl ⟨queue, rfl⟩
      | live link refs =>
        rw [hp] at hc
        exact Or.inr ⟨link, refs, rfl, hc⟩
      | orphaned n => simp [hp, Phase.isOpen] at ho
      | closed => simp [hp, Phase.isOpen] at ho
    · exact iff_of_false (fun hs => hs.not_isOrphan ho) (by simp [hn])
    · exact iff_of_false (fun hs => hs.not_isGone hg) (by simp [hcl])
  · have hc := hcounted h
    rcases hplace h with ⟨hop, hs⟩ | ⟨⟨n, hn⟩, ho⟩ | ⟨hcl, hg⟩
    · refine iff_of_false (fun ho => hs.not_isOrphan ho) ?_
      rintro ⟨n, hn, -⟩
      simp [hn, Phase.isOpen] at hop
    · rw [hn] at hc
      exact iff_of_true ho ⟨n, hn, hc⟩
    · exact iff_of_false (fun ho => ho.not_isGone hg) (by simp [hcl])
  · rcases hplace h with ⟨hop, hs⟩ | ⟨⟨n, hn⟩, ho⟩ | ⟨hcl, hg⟩
    · refine iff_of_false hs.not_isGone ?_
      intro hcl
      simp [hcl, Phase.isOpen] at hop
    · exact iff_of_false ho.not_isGone (by simp [hn])
    · exact iff_of_true hg hcl
  · rcases hplace h with ⟨-, hs⟩ | ⟨-, ho⟩ | ⟨-, hg⟩
    · exact Or.inl hs
    · exact Or.inr (Or.inl ho)
    · exact Or.inr (Or.inr hg)
  · intro k h hm
    have hkept : h ∈ (w.shelf k).kept := by
      rw [Shelf.kept, List.mem_append, Option.mem_toList]
      exact hm
    obtain ⟨rfl, hne⟩ := ((placed k).mem_kept_iff h).mp hkept
    exact ⟨rfl, Shelf.lt_of_phase_ne hne⟩

/-! ## Runs -/

/-- Handles only go forward in their lives. -/
theorem Sound.later (hw : w.Sound) {ms : List Move} (held : (w.play ms).isHeld = true) (k : Key) :
    (w.shelf k).Later ((w.play ms).shelf k) := by
  induction ms using List.reverseRecOn with
  | nil => exact .refl _
  | append_singleton ms m ih =>
    rw [play_concat] at held ⊢
    have hbefore := isHeld_of_move held
    obtain ⟨woken, hstep, -⟩ := (move_moves (hw.play hbefore) hbefore m).step k
    exact (ih hbefore).trans hstep.later

/-- A handle that has left its service never enters it again. -/
theorem Sound.not_serving (hw : w.Sound) {ms ns : List Move} (held : (w.play (ms ++ ns)).isHeld = true)
    (hmade : (w.play ms).HasMade h) (hleft : ∀ k, (w.play ms).serving k ≠ some h) (k : Key) :
    (w.play (ms ++ ns)).serving k ≠ some h := by
  intro hs
  have hsound := hw.play held
  rw [play_append] at held hs hsound
  have hms := hw.play (isHeld_of_play held)
  obtain ⟨rfl, hopen⟩ := ((hsound.orderly k).placed.serving_iff h).mp hs
  have hclosed : (((w.play ms).shelf h.key).phase h.index).isOpen = false := by
    by_contra ho
    exact hleft h.key (((hms.orderly h.key).placed.serving_iff h).mpr ⟨rfl, by simpa using ho⟩)
  rw [(hms.later held h.key).retired h.index hmade hclosed] at hopen
  contradiction

/-- In every state that a hub can reach while somebody holds it, every handle is where its phase says;
and a handle that has left its service never enters it again. -/
theorem represents_play {settings : Settings} {seed : UInt64} {ambient : Option Dispatch} {w₀ : Hub}
    (built : settings.build seed ambient = .ok w₀) (ms : List Move)
    (held : (w₀.play ms).isHeld = true) :
    (w₀.play ms).Represents ∧
      ∀ (a b c : List Move) (h : HandleId), ms = a ++ b ++ c →
        (∃ k, (w₀.play a).serving k = some h) → (∀ k, (w₀.play (a ++ b)).serving k ≠ some h) →
        ∀ k, (w₀.play ms).serving k ≠ some h := by
  have hsound := sound_build built
  refine ⟨represents_of_placed fun k => ((hsound.play held).orderly k).placed, ?_⟩
  rintro a b c h rfl ⟨k, hs⟩ hleft
  have hab : (w₀.play (a ++ b)).isHeld = true := by
    rw [play_append] at held
    exact isHeld_of_play held
  have ha : (w₀.play a).isHeld = true := by
    rw [play_append] at hab
    exact isHeld_of_play hab
  have hmade : (w₀.play a).HasMade h :=
    ((represents_of_placed fun k => ((hsound.play ha).orderly k).placed).stored k h (Or.inl hs)).2
  refine hsound.not_serving held ?_ hleft
  have hlater := (hsound.play ha).later (by rwa [← play_append]) h.key
  rw [← play_append] at hlater
  exact Nat.lt_of_lt_of_le hmade hlater.length

/-- A link is yielded, a teardown takes its handle out of service, and the link is asked for again. -/
def askAgain : List Move :=
  [.acquire sampleKey, .runJob ⟨.made sampleKey 0, .create⟩, .poll sampleKey 0, .tearDown,
    .pollTeardown 0 [], .acquire sampleKey]

/-- The first handle is an orphan, and the second one is in service. -/
theorem represents_play_askAgain : (sample.play askAgain).isHeld = true ∧
    (sample.play askAgain).IsOrphan ⟨sampleKey, 0⟩ ∧
      (sample.play askAgain).InService ⟨sampleKey, 1⟩ := by
  have hheld : (sample.play askAgain).isHeld = true := by decide
  have hlength : ((sample.play askAgain).shelf sampleKey).phases.length = 2 := by decide
  have hfirst : (sample.play askAgain).HasMade ⟨sampleKey, 0⟩ := by
    rw [HasMade, hlength]
    exact Nat.zero_lt_two
  have hsecond : (sample.play askAgain).HasMade ⟨sampleKey, 1⟩ := by
    rw [HasMade, hlength]
    exact Nat.one_lt_two
  obtain ⟨represents, -⟩ := represents_play build_sample askAgain hheld
  exact ⟨hheld, (represents.isOrphan_iff _ hfirst).mpr ⟨1, rfl, Nat.le_refl 1⟩,
    (represents.inService_iff _ hsecond).mpr (Or.inl ⟨_, rfl⟩)⟩

end Hub

end SharedLinks
