import SharedLinks.Proofs.Accounts
import SharedLinks.Proofs.Deeds

/-!
# Nothing is left behind

An outline is `Manned` if every link that has not come to its end has a job: one that awaits it, or one
that closes it. Every step keeps it so, except for those that throw jobs away (`Step.manned`). A run is
`Careful` if it throws no job away and drops no ticket with a link that it has not yielded. When such a
run has come to rest, with no job to do and all links yielded and released, no reference is counted any
more, so that no handle has stayed behind and every link that was made was asked to close
(`rests_play`).
-/

namespace SharedLinks

namespace Outline

/-! ## Jobs for all links -/

/-- A link that no job works for was delivered, and was asked to close unless its owner keeps it. -/
def Manned (o : Outline) : Prop :=
  ∀ id c, o.creation? id = some c → Job.stages o.jobs id = [] →
    c.delivered = true ∧ (c.making = .opened none → ¬ o.Keeps c → o.closings id = 1)

variable {o o' : Outline} {j : Job} {pre post : List Job} {left : Option Stage} {c : Creation}

/-- The owner of a link keeps it if it does not move to a phase without it. -/
theorem keeps_setPhase {h : HandleId} {p : Phase} (keeps : o.Keeps c)
    (link : c.owner = h → (o.phase h).link? = some c.link → p.link? = some c.link) :
    (o.setPhase h p).Keeps c := by
  rw [Keeps, link?_setPhase]
  split
  · rename_i e
    rw [Keeps, e] at keeps
    exact link e keeps
  · exact keeps

/-- Only the link that has changed has to be looked at. -/
theorem Manned.of_change (h : o.Manned) (id : LinkId)
    (creation : ∀ i, i ≠ id → o'.creation? i = o.creation? i)
    (closings : ∀ i, i ≠ id → o'.closings i = o.closings i)
    (stages : ∀ i, i ≠ id → Job.stages o'.jobs i = Job.stages o.jobs i)
    (keeps : ∀ i c, i ≠ id → o.creation? i = some c → o.Keeps c → o'.Keeps c)
    (self : ∀ c, o'.creation? id = some c → Job.stages o'.jobs id = [] →
      c.delivered = true ∧ (c.making = .opened none → ¬ o'.Keeps c → o'.closings id = 1)) :
    o'.Manned := by
  intro i c hc hj
  by_cases hi : i = id
  · subst hi
    exact self c hc hj
  · rw [creation i hi] at hc
    rw [stages i hi] at hj
    obtain ⟨hdelivered, hasked⟩ := h i c hc hj
    refine ⟨hdelivered, fun hmade hfree => ?_⟩
    rw [closings i hi]
    exact hasked hmade fun hk => hfree (keeps i c hi hc hk)

/-- Where no link and no job has changed, jobs are still there for all. -/
theorem Manned.of_keeps (h : o.Manned) (creation : o'.creation? = o.creation?)
    (closings : o'.closings = o.closings) (jobs : o'.jobs = o.jobs)
    (keeps : ∀ id c, o.creation? id = some c → o.Keeps c → o'.Keeps c) : o'.Manned := by
  intro id c hc hj
  rw [creation] at hc
  rw [jobs] at hj
  obtain ⟨hdelivered, hasked⟩ := h id c hc hj
  refine ⟨hdelivered, fun hmade hfree => ?_⟩
  rw [closings]
  exact hasked hmade fun hk => hfree (keeps id c hc hk)

/-- A job changes the link it works for and no other. -/
theorem Works.others (h : Works j o left o') {id : LinkId} (hid : id ≠ j.link.id) :
    o'.creation? id = o.creation? id ∧ o'.closings id = o.closings id := by
  cases h <;> simp [deliver, onCreation, Outline.setPhase, Outline.close, hid]

/-- No job takes a link from its handle. -/
theorem Works.keeps (h : Works j o left o') (hk : o.Keeps c) : o'.Keeps c := by
  -- a handle that waits has no link to lose
  have hmoved : ∀ {p : Phase} {queue : List TicketId}, o.phase j.owner = .pending queue →
      ((o.deliver j.link.id).setPhase j.owner p).Keeps c := by
    intro p queue pending
    refine keeps_setPhase hk fun _ hl => ?_
    rw [show (o.deliver j.link.id).phase j.owner = _ from pending] at hl
    contradiction
  cases h with
  | wait | late | failedLate | close | done => exact hk
  | granted _ _ _ pending | failed _ _ _ pending => exact hmoved pending
  | unwanted _ _ _ pending => exact hmoved pending

/-- A job that has nothing left to do has brought its link where it has to be. -/
theorem Works.finishes (h : Works j o none o') (tidy : o.Tidy) (hj : j ∈ o.jobs)
    (hc : o'.creation? j.link.id = some c) :
    c.delivered = true ∧ (c.making = .opened none → ¬ o'.Keeps c → o'.closings j.link.id = 1) := by
  obtain ⟨-, c₀, hfound, howner, hlink⟩ := tidy.job j hj
  have hstands := tidy.stands _ c₀ hfound
  have hstage := Job.mem_stages hj
  have hdeliver : (o.deliver j.link.id).creation? j.link.id =
      some { c₀ with delivered := true } := by
    simp [deliver, onCreation, hfound]
  have hclose : ∀ {o₁ : Outline}, (o₁.close j.link.id).closings j.link.id =
      o₁.closings j.link.id + 1 := by
    simp [Outline.close]
  cases h with
  | granted awaits found made pending =>
    obtain rfl := Option.some.inj (hdeliver.symm.trans hc)
    refine ⟨rfl, fun _ hfree => absurd ?_ hfree⟩
    rw [Keeps, link?_setPhase, if_pos howner]
    exact congrArg some hlink.symm
  | unwanted awaits found made pending =>
    obtain rfl := Option.some.inj (hdeliver.symm.trans hc)
    refine ⟨rfl, fun _ _ => ?_⟩
    rw [hclose]
    exact congrArg (· + 1) (hstands.of_awaitLink (awaits ▸ hstage)).2.2
  | late awaits found made gone =>
    obtain rfl := Option.some.inj (hdeliver.symm.trans hc)
    refine ⟨rfl, fun _ _ => ?_⟩
    rw [hclose]
    exact congrArg (· + 1) (hstands.of_awaitLink (awaits ▸ hstage)).2.2
  | failed awaits found made pending =>
    obtain rfl := Option.some.inj (hdeliver.symm.trans hc)
    obtain rfl := Option.some.inj (hfound.symm.trans found)
    exact ⟨rfl, fun hok => by simp [made] at hok⟩
  | failedLate awaits found made gone =>
    obtain rfl := Option.some.inj (hdeliver.symm.trans hc)
    obtain rfl := Option.some.inj (hfound.symm.trans found)
    exact ⟨rfl, fun hok => by simp [made] at hok⟩
  | close closes =>
    obtain rfl := Option.some.inj (hfound.symm.trans hc)
    obtain ⟨hdelivered, -, -, hzero⟩ := hstands.of_close (closes ▸ hstage)
    refine ⟨hdelivered, fun _ _ => ?_⟩
    rw [hclose, hzero]
  | done awaits =>
    obtain rfl := Option.some.inj (hfound.symm.trans hc)
    obtain ⟨hdelivered, -, -, hone⟩ := hstands.of_awaitClose (awaits ▸ hstage)
    exact ⟨hdelivered, fun _ _ => hone⟩

/-- Whatever a job does, jobs are still there for all. -/
theorem Works.manned (h : Works j o left o') (manned : o.Manned) (tidy : o.Tidy)
    (split : o.jobs = pre ++ j :: post) : (o'.withJobs (pre ++ j.left left ++ post)).Manned := by
  have hmem : j ∈ o.jobs := by
    rw [split]
    simp
  refine manned.of_change j.link.id (fun i hi => (h.others hi).1) (fun i hi => (h.others hi).2) ?_
    (fun _ _ _ _ hk => h.keeps hk) fun c hc hnone => ?_
  · intro i hi
    change Job.stages (pre ++ j.left left ++ post) i = _
    rw [Job.stages_split split, Job.stages_append, Job.stages_append,
      Job.stages_left_ne (Ne.symm hi), Job.stages_ne (Ne.symm hi)]
  · change Job.stages (pre ++ j.left left ++ post) j.link.id = [] at hnone
    rw [Job.stages_append, Job.stages_append, Job.stages_left_self] at hnone
    obtain rfl : left = none := by
      cases left with
      | none => rfl
      | some stage => simp at hnone
    exact h.finishes tidy hmem hc

/-- A handle gives its link away, and whoever takes it has a job for it or asks it to close. -/
theorem Manned.giveAway (h : o.Manned) (tidy : o.Tidy) (hd : HandleId) (link : Link) (p : Phase)
    (offered : (o.phase hd).link? = some link) (phase : o'.phase = (o.setPhase hd p).phase)
    (creation : o'.creation? = o.creation?)
    (closings : ∀ i, i ≠ link.id → o'.closings i = o.closings i)
    (stages : ∀ i, i ≠ link.id → Job.stages o'.jobs i = Job.stages o.jobs i)
    (taken : Job.stages o'.jobs link.id = [] → o'.closings link.id = 1) : o'.Manned := by
  obtain ⟨c₀, hc₀, howner, hlink⟩ := tidy.offers hd link offered
  have hkept : o.Keeps c₀ := by rw [Keeps, howner, offered, hlink]
  refine h.of_change link.id (fun i _ => by rw [creation]) closings stages ?_ ?_
  · intro i c hi hc hk
    have hsame : o'.Keeps c ↔ (o.setPhase hd p).Keeps c := by rw [Keeps, phase, Keeps]
    rw [hsame]
    refine keeps_setPhase hk fun _ hl => absurd ?_ hi
    rw [offered] at hl
    rw [← tidy.link i c hc, ← Option.some.inj hl]
  · intro c hc hnone
    rw [creation] at hc
    obtain rfl := Option.some.inj (hc₀.symm.trans hc)
    exact ⟨((tidy.stands _ c₀ hc).of_kept hkept).1, fun _ _ => taken hnone⟩

/-- Every step that throws no job away leaves jobs for all. -/
theorem Step.manned {kind : Kind} (step : Step kind o o') (h : o.Manned) (tidy : o.Tidy)
    (abort : kind ≠ .abort) (rule : o.dispatch ≠ .discard) : o'.Manned := by
  cases step with
  | @tend _ hd p alike =>
    refine h.of_keeps rfl rfl rfl fun _ c _ hk => keeps_setPhase hk fun _ hl => ?_
    rwa [alike.link?_eq]
  | make _ k queue =>
    refine h.of_keeps rfl rfl rfl fun id c hc hk => ?_
    rw [Keeps]
    change (if c.owner = ⟨k, o.handles k⟩ then Phase.pending queue else o.phase c.owner).link? = _
    rw [if_neg, hk]
    intro e
    have hmade := tidy.owner id c hc
    rw [e] at hmade
    exact absurd hmade (Nat.lt_irrefl _)
  | @start _ k i c r owner link fresh undelivered key =>
    refine h.of_change c.link.id (fun i hi => if_neg hi) (fun _ _ => rfl) (fun i hi => ?_)
      (fun _ _ _ _ hk => hk) fun _ _ hnone => ?_
    · change Job.stages (o.jobs ++ [_]) i = _
      rw [Job.stages_append, Job.stages_ne (Ne.symm hi), List.append_nil]
    · change Job.stages (o.jobs ++ [_]) c.link.id = [] at hnone
      rw [Job.stages_append] at hnone
      simp [Job.stages] at hnone
  | @answer _ id f same answered =>
    refine h.of_change id (fun i hi => if_neg hi) (fun _ _ => rfl) (fun _ _ => rfl)
      (fun _ _ _ _ hk => hk) fun c hc hnone => ?_
    simp only [onCreation, if_pos, Option.map_eq_some_iff] at hc
    obtain ⟨c₀, hc₀, rfl⟩ := hc
    obtain ⟨howner, hlink, hdelivered⟩ := same c₀
    obtain ⟨hdone, hasked⟩ := h id c₀ hc₀ hnone
    rw [hdelivered, answered c₀ hc₀ ((tidy.stands id c₀ hc₀).answered hdone), Keeps, howner, hlink]
    exact ⟨hdone, hasked⟩
  | work split works => exact works.manned h tidy split
  | @release _ hd link last =>
    refine h.giveAway tidy hd link .closed (by rw [last]; rfl) rfl rfl
      (fun _ _ => rfl) (fun i hi => ?_) fun hnone => ?_
    · change Job.stages (o.jobs ++ [_]) i = _
      rw [Job.stages_append, Job.stages_ne (Ne.symm hi), List.append_nil]
    · change Job.stages (o.jobs ++ [_]) link.id = [] at hnone
      rw [Job.stages_append] at hnone
      simp [Job.stages] at hnone
  | drain last =>
    refine h.of_keeps rfl rfl rfl fun _ c _ hk => keeps_setPhase hk fun _ hl => ?_
    rw [last] at hl
    contradiction
  | @force _ hd link refs live =>
    refine h.giveAway tidy hd link (.orphaned refs) (by rw [live]; rfl) rfl rfl
      (fun _ => closings_close_ne o) (fun _ _ => rfl) fun _ => ?_
    have hheld : o.Holds hd link.id := ⟨link, by rw [live]; rfl, rfl⟩
    exact (closings_close_self o _).trans (congrArg (· + 1) (tidy.closings_of_holds hheld))
  | dismiss pending =>
    refine h.of_keeps rfl rfl rfl fun _ c _ hk => keeps_setPhase hk fun _ hl => ?_
    rw [pending] at hl
    contradiction
  | abort => exact absurd rfl abort
  | discard rule' => exact absurd rule' rule

/-- What becomes of new jobs never changes. -/
theorem Works.dispatch (h : Works j o left o') : o'.dispatch = o.dispatch := by
  cases h <;> rfl

theorem Step.dispatch {kind : Kind} (step : Step kind o o') : o'.dispatch = o.dispatch := by
  cases step with
  | work split works => exact works.dispatch
  | tend | make | start | answer | release | drain | force | dismiss | abort | discard => rfl

/-- An outline in which no job is missing and none will be thrown away by the rule. -/
structure Staffed (o : Outline) : Prop where
  tidy : o.Tidy
  manned : o.Manned
  rule : o.dispatch ≠ .discard

theorem Chain.staffed {kinds : List Kind} (chain : Chain kinds o o') (h : o.Staffed)
    (abort : .abort ∉ kinds) : o'.Staffed := by
  refine chain.keeps (P := Staffed) (fun kind hk o o' step ho => ?_) h
  refine ⟨step.tidy ho.tidy, step.manned ho.manned ho.tidy ?_ ho.rule, ?_⟩
  · rintro rfl
    exact abort hk
  · rw [step.dispatch]
    exact ho.rule

end Outline

/-- Where all handles have come to their end, none has a place. -/
theorem Shelf.Placed.empty {k : Key} {s : Shelf} (h : s.Placed k)
    (closed : ∀ i, s.phase i = .closed) : s.serving = none ∧ s.orphaned = none := by
  have hkept : s.kept = [] := by
    refine List.eq_nil_iff_forall_not_mem.mpr fun hd hm => ?_
    exact ((h.mem_kept_iff hd).mp hm).2 (closed hd.index)
  obtain ⟨hserving, horphans⟩ := List.append_eq_nil_iff.mp hkept
  refine ⟨by simpa using hserving, ?_⟩
  cases ho : s.orphaned with
  | none => rfl
  | some orphans =>
    rw [Shelf.orphans, ho, Option.getD_some] at horphans
    exact absurd (ho.trans (congrArg some horphans)) h.entry

/-- The ticket that the move gives up. -/
def Move.dropped? : Move → Option (Key × Nat)
  | .drop k n => some (k, n)
  | _ => none

theorem Move.dropped?_eq_some_iff {m : Move} {k : Key} {n : Nat} :
    m.dropped? = some (k, n) ↔ m = .drop k n := by
  cases m <;> simp [dropped?]

theorem Move.abort_mem_kinds {m : Move} :
    .abort ∈ m.kinds ↔ ∃ id, m = .abortJob id := by
  cases m <;> simp [kinds, Outline.Kind.asking, Outline.Kind.giving, Outline.Kind.tearing]

namespace Hub

/-- The run throws away nothing that is still needed: no job, and no ticket with a link that it has not
yielded. Whoever gives a reference back holds the hub. -/
structure Careful (w : Hub) (ms : List Move) : Prop where
  called : w.Called ms
  claims : ∀ pre k n post, ms = pre ++ .drop k n :: post →
    (((w.play pre).shelf k).tickets[n]?).any Ticket.isUnclaimed = false
  jobs : ∀ id, .abortJob id ∉ ms
  rule : w.dispatch ≠ .discard

/-- After the run there is nothing to do: all jobs are done, and all links that were granted were yielded
and released. -/
structure Rests (w : Hub) (ms : List Move) : Prop where
  jobs : (w.play ms).jobs = []
  yielded : ∀ k, ((w.play ms).shelf k).unclaimed = 0
  released : ∀ k, ((w.play ms).shelf k).yielded = ms.count (.release k)

variable {w w₀ : Hub} {ms : List Move} {k : Key}

/-! ## Careful runs -/

theorem careful_iff : w.Careful ms ↔ w.Called ms ∧
    (∀ i, ∀ h : i < ms.length, ∀ p ∈ ms[i].dropped?,
      (((w.play (ms.take i)).shelf p.1).tickets[p.2]?).any Ticket.isUnclaimed = false) ∧
    (∀ m ∈ ms, .abort ∉ m.kinds) ∧ w.dispatch ≠ .discard := by
  rw [← forall_split_iff (p := fun pre m => ∀ p ∈ m.dropped?,
    (((w.play pre).shelf p.1).tickets[p.2]?).any Ticket.isUnclaimed = false)]
  constructor
  · intro h
    refine ⟨h.called, ?_, fun m hm hk => ?_, h.rule⟩
    · rintro pre m post e ⟨k, n⟩ hp
      rw [Option.mem_def, Move.dropped?_eq_some_iff] at hp
      exact h.claims pre k n post (hp ▸ e)
    · obtain ⟨id, rfl⟩ := Move.abort_mem_kinds.mp hk
      exact h.jobs id hm
  · rintro ⟨hcalled, hclaims, hjobs, hrule⟩
    exact ⟨hcalled, fun pre k n post e => hclaims pre _ post e (k, n) rfl,
      fun id hm => hjobs _ hm (Move.abort_mem_kinds.mpr ⟨id, rfl⟩), hrule⟩

instance : Decidable (w.Careful ms) := decidable_of_iff _ careful_iff.symm

theorem Careful.of_append {post : List Move} (h : w.Careful (ms ++ post)) : w.Careful ms where
  called := h.called.of_append
  claims pre k n rest e := h.claims pre k n (rest ++ post) (by simp [e])
  jobs id hm := h.jobs id (List.mem_append_left post hm)
  rule := h.rule

/-- Nothing is dropped in vain where no unclaimed ticket is dropped. -/
theorem strays_eq_zero (h : w.Careful ms) (k : Key) : w.strays k ms = 0 := by
  induction ms using List.reverseRecOn with
  | nil => rfl
  | append_singleton ms m ih =>
    rw [strays_concat, ih h.of_append, Nat.zero_add]
    rcases (w.play ms).mark_cases m k with e | ⟨e, -⟩ | ⟨e, -⟩ | ⟨-, n, rfl, hvain⟩ | ⟨e, -⟩
    · rw [e, Mark.lost]
    · rw [e, Mark.lost]
    · rw [e, Mark.lost]
    · have hclaim := h.claims ms k n [] rfl
      rw [Shelf.isVain] at hvain
      cases ht : ((w.play ms).shelf k).tickets[n]? with
      | none => simp [ht] at hvain
      | some t =>
        rw [ht, Option.any_some] at hclaim
        unfold Ticket.isUnclaimed at hclaim
        rw [ht, Option.bind_some, Ticket.source?] at hvain
        split at hvain <;> simp_all
    · rw [e, Mark.lost]

/-- A careful run keeps jobs for all links. -/
theorem staffed_play (h : w.outline.Staffed) (careful : w.Careful ms) :
    (w.play ms).outline.Staffed := by
  induction ms using List.reverseRecOn with
  | nil => exact h
  | append_singleton ms m ih =>
    have hold := ih careful.of_append
    rw [play_concat]
    refine (chain_move hold.tidy.nodup_jobs m).staffed hold fun hk => ?_
    obtain ⟨id, rfl⟩ := Move.abort_mem_kinds.mp hk
    exact careful.jobs id (by simp)

/-- What becomes of new jobs never changes. -/
theorem dispatch_play (tidy : w.outline.Tidy) (ms : List Move) :
    (w.play ms).dispatch = w.dispatch := by
  induction ms generalizing w with
  | nil => rfl
  | cons m ms ih =>
    have hmove : (w.move m).outline.dispatch = w.outline.dispatch :=
      (chain_move tidy.nodup_jobs m).keeps (P := fun o => o.dispatch = w.outline.dispatch)
        (fun _ _ _ _ step h => step.dispatch.trans h) rfl
    exact (ih (tidy_play tidy [m])).trans hmove

section Build

variable {settings : Settings} {seed : UInt64} {ambient : Option Dispatch}

theorem staffed_build (built : settings.build seed ambient = .ok w) (rule : w.dispatch ≠ .discard) :
    w.outline.Staffed :=
  ⟨tidy_build built, fun id c hc => by simp [creation_build built] at hc, rule⟩

/-! ## Rest -/

/-- When a careful run has come to rest, all handles have come to their end. -/
theorem phase_of_rests (built : settings.build seed ambient = .ok w₀) (balanced : w₀.Balanced ms)
    (careful : w₀.Careful ms) (rests : w₀.Rests ms) (h : HandleId) :
    (w₀.play ms).phase h = .closed := by
  obtain ⟨k, i⟩ := h
  have hheld : w₀.isHeld = true := isHeld_of_clones (by rw [clones_build built]; exact Nat.one_pos)
  have hstaffed := staffed_play (staffed_build built careful.rule) careful
  obtain ⟨w', hshadow, haccount⟩ :=
    account_play (sound_build built) hheld (shelf_build built k) balanced careful.called
  have horderly := hshadow.sound.orderly k
  -- all tickets that hold a link have released it, so there are no references
  have htotal : (w'.shelf k).total = 0 := by
    have htaken : (w'.shelf k).taken = ((w₀.play ms).shelf k).taken :=
      Shelf.holding_congr (hshadow.twin.tickets k) _
    rw [strays_eq_zero careful, htaken, Shelf.taken_eq, rests.yielded k, rests.released k] at haccount
    omega
  have hrefs := (total_eq_zero_iff hshadow.sound).mp htotal i
  rw [hshadow.twin.phase] at hrefs
  by_contra hopen
  have hphase : (w'.shelf k).phase i = (w₀.play ms).phase ⟨k, i⟩ := hshadow.twin.phase ⟨k, i⟩
  by_cases hpending : ∃ queue, (w₀.play ms).phase ⟨k, i⟩ = .pending queue
  · -- the handle would wait for a link that nobody is going to bring
    obtain ⟨queue, hp⟩ := hpending
    rw [← hphase] at hopen hp
    obtain ⟨c, hc⟩ := horderly.recorded.exists_creation hopen
    have hnew := horderly.recorded.undelivered_of_pending hp hc
    have hfound : (w₀.play ms).outline.creation? (.made k i) = some c := by
      rw [← hc]
      exact (hshadow.twin.creation? (.made k i)).symm
    have hdelivered := (hstaffed.manned _ c hfound (by
      change Job.stages (w₀.play ms).jobs _ = []
      rw [rests.jobs]
      rfl)).1
    simp [hnew] at hdelivered
  · rw [not_exists] at hpending
    rw [← hphase] at hopen hrefs hpending
    have := horderly.placed.refs_pos_of_ne hopen hpending
    omega

/-- Nothing is left behind. When a balanced and careful run has come to rest, every creation was answered
and its answer has reached its handle; each link that was made was asked to close exactly once, and
nothing else was. If somebody still holds the hub, no handle serves a key and there are no orphans. -/
theorem rests_play (built : settings.build seed ambient = .ok w₀) (ms : List Move)
    (balanced : w₀.Balanced ms) (careful : w₀.Careful ms) (rests : w₀.Rests ms) :
    ((w₀.play ms).isHeld = true → ∀ k, (w₀.play ms).serving k = none ∧
      ((w₀.play ms).shelf k).orphaned = none) ∧
    (∀ id c, (w₀.play ms).creation? id = some c → c.delivered = true ∧
      (c.making = .opened none ∧ (w₀.play ms).events.count (.close id) = 1 ∨
        (∃ failure, c.making = .opened (some failure)) ∧
          (w₀.play ms).events.count (.close id) = 0)) ∧
    ∀ id, (w₀.play ms).creation? id = none → (w₀.play ms).events.count (.close id) = 0 := by
  have hclosed := phase_of_rests built balanced careful rests
  have hstaffed := staffed_play (staffed_build built careful.rule) careful
  refine ⟨fun held k => ?_, fun id c hc => ?_, hstaffed.tidy.unasked⟩
  · exact (((sound_build built).play held).orderly k).placed.empty fun i => hclosed ⟨k, i⟩
  · have hnone : Job.stages (w₀.play ms).outline.jobs id = [] := by
      change Job.stages (w₀.play ms).jobs id = []
      rw [rests.jobs]
      rfl
    have hfree : ¬ (w₀.play ms).outline.Keeps c := by
      rw [Outline.Keeps]
      change ((w₀.play ms).phase c.owner).link? ≠ _
      rw [hclosed, Phase.link?]
      simp
    obtain ⟨hdelivered, hasked⟩ := hstaffed.manned id c hc hnone
    refine ⟨hdelivered, ?_⟩
    cases hmaking : c.making with
    | shut => exact absurd hmaking ((hstaffed.tidy.stands id c hc).answered hdelivered)
    | opened answer =>
      cases answer with
      | none => exact Or.inl ⟨rfl, hasked hmaking hfree⟩
      | some failure =>
        exact Or.inr ⟨⟨failure, rfl⟩, (hstaffed.tidy.stands id c hc).eq_zero (by simp [hmaking])⟩

end Build

/-- A link is yielded and torn down, and another caller gives up waiting. Somebody asks again, yields
the next link, and both are released, the second after everybody has let go of the teardown. -/
def askBetween : List Move :=
  [.acquire sampleKey, .acquire sampleKey, .drop sampleKey 1, .runJob ⟨.made sampleKey 0, .create⟩,
    .poll sampleKey 0, .tearDown, .pollTeardown 0 [], .acquire sampleKey,
    .runJob ⟨.made sampleKey 1, .create⟩, .poll sampleKey 2, .release sampleKey, .release sampleKey,
    .runJob ⟨.made sampleKey 1, .close⟩]

/-- Both links have been asked to close once, and the hub is empty. -/
theorem rests_play_askBetween :
    (sample.Balanced askBetween ∧ sample.Careful askBetween ∧ sample.Rests askBetween) ∧
      (∀ k, (sample.play askBetween).serving k = none ∧
        ((sample.play askBetween).shelf k).orphaned = none) ∧
      ∀ i < 2, (sample.play askBetween).events.count (.close (.made sampleKey i)) = 1 := by
  have hbalanced : sample.Balanced askBetween := by decide
  have hcareful : sample.Careful askBetween := by decide
  have hother : ∀ k, k ≠ sampleKey → (sample.play askBetween).shelf k = {} ∧
      askBetween.count (.release k) = 0 := by
    intro k hk
    refine ⟨shelf_of_not_mem ?_, List.count_eq_zero.mpr ?_⟩
    · rw [show (sample.play askBetween).shelves.keys = [sampleKey] by decide]
      simpa using hk
    · simp [askBetween, hk]
  have hrests : sample.Rests askBetween := by
    refine ⟨by decide, fun k => ?_, fun k => ?_⟩
    · by_cases hk : k = sampleKey
      · rw [hk]
        decide
      · rw [(hother k hk).1]
        rfl
    · by_cases hk : k = sampleKey
      · rw [hk]
        decide
      · rw [(hother k hk).1, (hother k hk).2]
        rfl
  obtain ⟨hempty, hmade, -⟩ := rests_play build_sample askBetween hbalanced hcareful hrests
  refine ⟨⟨hbalanced, hcareful, hrests⟩, hempty (by decide), fun i hi => ?_⟩
  have hsome : ((sample.play askBetween).creation? (.made sampleKey i)).any
      (fun c => c.making = .opened none) = true := by
    revert i
    decide
  obtain ⟨c, hc, hmaking⟩ := (Option.any_eq_true _ _).mp hsome
  rcases (hmade _ c hc).2 with ⟨-, hone⟩ | ⟨⟨failure, hfailed⟩, -⟩
  · exact hone
  · simp [hfailed] at hmaking

end Hub

end SharedLinks
