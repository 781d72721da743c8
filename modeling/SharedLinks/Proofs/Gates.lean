import SharedLinks.Proofs.Effects

/-!
# Answers are not taken back

What the provider has said of the closing of a link stands on the creation of the link
(`Outline.gate`). Only an answer of the provider changes it, and only where there was none before, so
along any run of a hub answers come and stay (`advances_move`).
-/

namespace SharedLinks

/-- The provider has taken back no answer. -/
def Advances (gates gates' : LinkId → Gate) : Prop :=
  ∀ id failure, gates id = .opened failure → gates' id = .opened failure

namespace Advances

variable {gates gates' gates'' : LinkId → Gate}

theorem refl (gates : LinkId → Gate) : Advances gates gates := fun _ _ h => h

theorem trans (h : Advances gates gates') (h' : Advances gates' gates'') : Advances gates gates'' :=
  fun id failure hg => h' id failure (h id failure hg)

end Advances

namespace Outline

variable {o o' : Outline} {kind : Kind} {kinds : List Kind} {j : Job} {left : Option Stage}

/-- What the provider has said of the closing of a link. -/
def gate (o : Outline) (id : LinkId) : Gate := ((o.creation? id).map (·.closing)).getD .shut

/-- A creation changes, and its answer stands if there is one. -/
theorem advances_onCreation {id : LinkId} {f : Creation → Creation}
    (stands : ∀ c failure, o.creation? id = some c → c.closing = .opened failure →
      (f c).closing = .opened failure) : Advances o.gate (o.onCreation id f).gate := by
  intro id' failure hg
  change ((if id' = id then (o.creation? id').map f else o.creation? id').map (·.closing)).getD
    .shut = _
  unfold gate at hg
  split
  · rename_i e
    subst e
    cases hc : o.creation? id' with
    | none => rwa [hc] at hg
    | some c =>
      rw [hc] at hg
      exact stands c failure hc hg
  · exact hg

theorem gate_deliver (o : Outline) (id : LinkId) : (o.deliver id).gate = o.gate := by
  funext id'
  change ((if id' = id then (o.creation? id').map _ else o.creation? id').map (·.closing)).getD
    .shut = _
  unfold gate
  split
  · cases o.creation? id' <;> rfl
  · rfl

theorem Works.gate_eq (h : Works j o left o') : o'.gate = o.gate := by
  cases h with
  | wait | close | done => rfl
  | granted | unwanted | late | failed | failedLate => exact gate_deliver o _

/-- Steps other than an answer change no gate but that of a new creation. -/
theorem Step.advances (step : Step kind o o') (ne : kind ≠ .answer) : Advances o.gate o'.gate := by
  cases step with
  | answer => exact absurd rfl ne
  | work split works =>
    intro id failure hg
    rw [← works.gate_eq] at hg
    exact hg
  | @start _ k i c r owner link fresh =>
    intro id failure hg
    change ((if id = c.link.id then some c else o.creation? id).map (·.closing)).getD .shut = _
    split
    · rename_i e
      rw [gate, e, fresh] at hg
      contradiction
    · exact hg
  | tend | make | release | drain | force | dismiss | abort | discard => exact .refl _

theorem Chain.advances (h : Chain kinds o o') (no : .answer ∉ kinds) : Advances o.gate o'.gate :=
  h.keeps (P := fun o' => Advances o.gate o'.gate)
    (fun _ hm _ _ step before => before.trans (step.advances fun e => no (e ▸ hm))) (.refl _)

end Outline

namespace Hub

variable {w : Hub}

theorem closing_eq (w : Hub) : w.closing = w.outline.gate := rfl

/-- No move takes an answer back. -/
theorem advances_move (distinct : (w.jobs.map (·.id)).Nodup) (m : Move) :
    Advances w.closing (w.move m).closing := by
  have hanswer : ∀ (id : LinkId) (f : Creation → Creation) (stage : Stage),
      (∀ c failure, w.creation? id = some c → c.closing = .opened failure →
        (f c).closing = .opened failure) →
      Advances w.closing ((w.onCreation id f).rouse id stage).closing := by
    intro id f stage stands
    change Advances w.outline.gate (w.onCreation id f).outline.gate
    rw [outline_onCreation]
    exact Outline.advances_onCreation stands
  have hother : .answer ∉ m.kinds → Advances w.closing (w.move m).closing :=
    (chain_move distinct m).advances
  cases m with
  | answerMaking id failure =>
    change Advances w.closing (((w.answerMaking id failure).map Prod.fst).getD w).closing
    unfold answerMaking
    cases w.creation? id with
    | none => exact .refl _
    | some c =>
      simp only [Option.map_some, Option.getD_some]
      split
      · exact .refl _
      · exact hanswer id _ _ fun _ _ _ h => h
  | answerClosing id failure =>
    change Advances w.closing (((w.answerClosing id failure).map Prod.fst).getD w).closing
    unfold answerClosing
    cases hc : w.creation? id with
    | none => exact .refl _
    | some c =>
      simp only [Option.map_some, Option.getD_some]
      split
      · exact .refl _
      · rename_i hshut
        refine hanswer id _ _ fun c' failure hc' h => ?_
        obtain rfl := Option.some.inj (hc.symm.trans hc')
        rw [hshut] at h
        contradiction
  | acquire | release | poll | park | drop | tearDown | pollTeardown | dropTeardown | runJob | abortJob
    | clone | dropClone =>
    exact hother (by simp [Move.kinds, Outline.Kind.asking, Outline.Kind.giving, Outline.Kind.tearing])

end Hub

end SharedLinks
