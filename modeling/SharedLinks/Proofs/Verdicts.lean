import Mathlib.Data.List.ReduceOption
import SharedLinks.Proofs.Drained
import SharedLinks.Proofs.Gates
import SharedLinks.Proofs.LettingGo

/-!
# What a teardown answers

The first poll of a teardown asks the links of all live handles in service to close; they are its batch
(`Hub.batch`). Every poll of the teardown is then answered by what the provider has said of the links
of the batch and by nothing else (`Verdict`): it goes on while one of them has not answered, and in the
end it tells each failure once. `awaits_play` says so for all runs, whatever else goes on between polls.

A teardown keeps one part for each handle that it has taken. Its parts are those of its last poll, and
the provider takes back no answer, so a look at the parts that still wait brings all of them up to date
(`awaitParts_now`).
-/

namespace SharedLinks

/-- A handle, and the link that it had when a teardown took it. -/
abbrev Item := HandleId × Link

/-- The failure of a link that could not be closed, if the provider has said so. -/
def closeError (gates : LinkId → Gate) (item : Item) : Option LinkError :=
  match gates item.2.id with
  | .opened (some failure) => some (.close item.1.key item.2.identity (.message failure))
  | .opened none | .shut => none

/-- What a teardown has to answer, by what the provider has said of the closing of its links. -/
inductive Verdict (gates : LinkId → Gate) (items : List Item) :
    Poll (Except LinkError Unit) → Prop where
  /-- Some link has not answered. -/
  | pending {item : Item} (hm : item ∈ items) (shut : gates item.2.id = .shut) :
    Verdict gates items .pending
  /-- All links were closed. -/
  | ok (closed : ∀ item ∈ items, gates item.2.id = .opened none) :
    Verdict gates items (.ready (.ok ()))
  /-- All have answered, and the failures are those of the links that could not be closed. -/
  | failed (answered : ∀ item ∈ items, gates item.2.id ≠ .shut)
    (some : items.filterMap (closeError gates) ≠ []) :
    Verdict gates items (.ready (.error (.closeAll (items.filterMap (closeError gates)))))

/-! ## Parts -/

section Parts

variable {gates gates' : LinkId → Gate}

/-- The part of a handle in a teardown, by what the provider has said. One that had no link is done. -/
def Part.now (gates : LinkId → Gate) : Option Item → Part
  | none => .done (.ok ())
  | some item =>
    match gates item.2.id with
    | .shut => .closing item.1 item.2
    | .opened none => .done (.ok ())
    | .opened (some failure) => .done (.error (.close item.1.key item.2.identity (.message failure)))

/-! The parts of a link, by what the provider has said. -/

theorem Part.now_of_shut {item : Item} (h : gates item.2.id = .shut) :
    Part.now gates (some item) = .closing item.1 item.2 := by
  simp only [Part.now, h]

theorem Part.now_of_closed {item : Item} (h : gates item.2.id = .opened none) :
    Part.now gates (some item) = .done (.ok ()) := by
  simp only [Part.now, h]

theorem Part.now_of_failed {item : Item} {failure : String}
    (h : gates item.2.id = .opened (some failure)) : Part.now gates (some item) =
      .done (.error (.close item.1.key item.2.identity (.message failure))) := by
  simp only [Part.now, h]

theorem Part.isPending_now (gates : LinkId → Gate) (slot : Option Item) :
    (Part.now gates slot).isPending = true ↔ ∃ item, slot = some item ∧ gates item.2.id = .shut := by
  cases slot with
  | none => simp [Part.now, Part.isPending]
  | some item =>
    cases hg : gates item.2.id with
    | shut => simp [Part.now_of_shut hg, Part.isPending, hg]
    | opened answer =>
      cases answer with
      | none => simp [Part.now_of_closed hg, Part.isPending, hg]
      | some failure => simp [Part.now_of_failed hg, Part.isPending, hg]

theorem Part.failure?_now (gates : LinkId → Gate) (slot : Option Item) :
    (Part.now gates slot).failure? = slot.bind (closeError gates) := by
  cases slot with
  | none => rfl
  | some item =>
    rw [Option.bind_some, closeError]
    cases hg : gates item.2.id with
    | shut => rw [Part.now_of_shut hg]; rfl
    | opened answer =>
      cases answer with
      | none => rw [Part.now_of_closed hg]; rfl
      | some failure => rw [Part.now_of_failed hg]; rfl

variable {slots : List (Option Item)}

/-- Some part waits just if the link of some handle has not answered. -/
theorem any_isPending_now : (slots.map (Part.now gates)).any Part.isPending = true ↔
    ∃ item ∈ slots.reduceOption, gates item.2.id = .shut := by
  simp only [List.any_map, List.any_eq_true, Function.comp_apply, Part.isPending_now,
    List.reduceOption_mem_iff]
  constructor
  · rintro ⟨slot, hm, item, rfl, hshut⟩
    exact ⟨item, hm, hshut⟩
  · rintro ⟨item, hm, hshut⟩
    exact ⟨some item, hm, item, rfl, hshut⟩

theorem filterMap_failure?_now (gates : LinkId → Gate) (slots : List (Option Item)) :
    (slots.map (Part.now gates)).filterMap Part.failure? =
      slots.reduceOption.filterMap (closeError gates) := by
  have hfailure : Part.failure? ∘ Part.now gates = fun slot => slot.bind (closeError gates) :=
    funext (Part.failure?_now gates)
  rw [List.filterMap_map, hfailure, List.reduceOption, List.filterMap_filterMap]
  rfl

end Parts

/-- The move is a poll of this teardown. -/
def Move.polls (i : Nat) : Move → Bool
  | .pollTeardown j _ => j = i
  | _ => false

namespace Hub

variable {w w' : Hub} {i : Nat} {h : HandleId} {hs : List HandleId} {gates : LinkId → Gate}
  {slots : List (Option Item)} {ns : List Move}

/-! ## Looks at links -/

theorem awaitPart_now (w : Hub) (h : HandleId) (link : Link) :
    (w.awaitPart h link).2 = Part.now w.closing (some (h, link)) := by
  unfold awaitPart awaitClose
  cases hg : w.closing link.id with
  | shut => rw [Part.now_of_shut hg]
  | opened answer =>
    cases answer with
    | none => rw [Part.now_of_closed hg]
    | some failure => rw [Part.now_of_failed hg]

/-- A look at the parts that wait brings all of them up to date. -/
theorem awaitParts_now (advances : Advances gates w.closing) (slots : List (Option Item)) :
    (w.awaitParts (slots.map (Part.now gates))).2 = slots.map (Part.now w.closing) := by
  induction slots generalizing w with
  | nil => rfl
  | cons slot slots ih =>
    -- one that is done was told an answer that still stands
    have hdone : ∀ result, Part.now gates slot = .done result →
        Part.now w.closing slot = .done result →
        (w.awaitParts ((slot :: slots).map (Part.now gates))).2 =
          (slot :: slots).map (Part.now w.closing) := by
      intro result he he'
      rw [List.map_cons, he, List.map_cons, he']
      exact congrArg (_ :: ·) (ih advances)
    cases slot with
    | none => exact hdone _ rfl rfl
    | some item =>
      cases hg : gates item.2.id with
      | shut =>
        have hsame : (w.awaitPart item.1 item.2).1.closing = w.closing :=
          congrArg Outline.gate (outline_awaitPart w item.1 item.2)
        have hrest := ih (w := (w.awaitPart item.1 item.2).1) (by rwa [hsame])
        rw [hsame] at hrest
        rw [List.map_cons, Part.now_of_shut hg, List.map_cons, ← awaitPart_now]
        exact congrArg (_ :: ·) hrest
      | opened answer =>
        have hg' := advances _ _ hg
        cases answer with
        | none => exact hdone _ (Part.now_of_closed hg) (Part.now_of_closed hg')
        | some failure => exact hdone _ (Part.now_of_failed hg) (Part.now_of_failed hg')

/-! ## The end of a poll -/

/-- The teardown waits for the links of some handles. -/
def Watches (w : Hub) (i : Nat) (slots : List (Option Item)) : Prop :=
  ∃ gates, Advances gates w.closing ∧
    w.teardowns[i]? = some ⟨.all, .running (slots.map (Part.now gates))⟩

/-- A poll of a teardown gives its answer, and the teardown goes on or has finished. -/
structure Polled (gates : LinkId → Gate) (i : Nat) (slots : List (Option Item))
    (r : Hub × Poll (Except LinkError Unit)) : Prop where
  verdict : Verdict gates slots.reduceOption r.2
  goes : r.2 = .pending → r.1.Watches i slots
  ends : r.2 ≠ .pending → r.1.teardowns[i]? = some ⟨.all, .finished⟩

theorem polled_concludeTeardown (made : i < w.teardowns.length) (advances : Advances gates w.closing)
    (slots : List (Option Item)) :
    Polled gates i slots (w.concludeTeardown i .all (slots.map (Part.now gates))) := by
  obtain ⟨journal, e⟩ := concludeTeardown_eq w i .all (slots.map (Part.now gates))
  have hstate : (w.concludeTeardown i .all (slots.map (Part.now gates))).1.teardowns[i]? =
      some ⟨.all, stateAfter (slots.map (Part.now gates))⟩ := by
    rw [e]
    exact List.getElem?_set_self made
  have hgates : (w.concludeTeardown i .all (slots.map (Part.now gates))).1.closing = w.closing := by
    rw [e]
    rfl
  by_cases hp : (slots.map (Part.now gates)).any Part.isPending = true
  · have hanswer : (w.concludeTeardown i .all (slots.map (Part.now gates))).2 = .pending := by
      unfold concludeTeardown
      rw [if_pos hp]
    obtain ⟨item, hm, hshut⟩ := any_isPending_now.mp hp
    refine ⟨hanswer ▸ .pending hm hshut, fun _ => ⟨gates, hgates ▸ advances, ?_⟩,
      fun hne => absurd hanswer hne⟩
    rw [hstate, stateAfter, if_pos hp]
  · have hanswered : ∀ item ∈ slots.reduceOption, gates item.2.id ≠ .shut :=
      fun item hm hshut => hp (any_isPending_now.mpr ⟨item, hm, hshut⟩)
    have hanswer : Verdict gates slots.reduceOption
        (w.concludeTeardown i .all (slots.map (Part.now gates))).2 := by
      unfold concludeTeardown
      rw [if_neg hp]
      unfold teardownResult
      have hfailures := filterMap_failure?_now gates slots
      cases hf : (slots.map (Part.now gates)).filterMap Part.failure? with
      | nil =>
        refine .ok fun item hm => ?_
        have hnone := List.filterMap_eq_nil_iff.mp (hfailures.symm.trans hf) item hm
        rw [closeError] at hnone
        cases hg : gates item.2.id with
        | shut => exact absurd hg (hanswered item hm)
        | opened answer =>
          cases answer with
          | none => rfl
          | some failure =>
            rw [hg] at hnone
            contradiction
      | cons failure failures =>
        rw [hfailures] at hf
        dsimp only
        rw [← hf]
        exact .failed hanswered (hf ▸ List.cons_ne_nil _ _)
    refine ⟨hanswer, fun he => ?_, fun _ => by rw [hstate, stateAfter, if_neg hp]⟩
    rw [he] at hanswer
    cases hanswer with
    | pending hm hshut => exact absurd hshut (hanswered _ hm)

/-- A poll of a teardown that waits. -/
theorem Watches.poll (h : w.Watches i slots) (wish : List Key) :
    Polled w.closing i slots (w.pollTeardown i wish) := by
  obtain ⟨gates, advances, found⟩ := h
  have hpoll : w.pollTeardown i wish = (w.awaitParts (slots.map (Part.now gates))).1.concludeTeardown
      i .all (slots.map (Part.now w.closing)) := by
    rw [← awaitParts_now advances]
    unfold pollTeardown
    rw [found]
  have hsame : (w.awaitParts (slots.map (Part.now gates))).1.closing = w.closing :=
    congrArg Outline.gate (outline_awaitParts w _)
  have hmade : i < (w.awaitParts (slots.map (Part.now gates))).1.teardowns.length := by
    rw [(Prod.mk.inj (keepers_awaitParts w _)).2]
    exact (List.getElem?_eq_some_iff.mp found).1
  rw [hpoll]
  exact polled_concludeTeardown hmade (hsame ▸ .refl _) slots

/-! ## The first poll -/

/-- A handle with its link, if it has one to offer. -/
def slot (w : Hub) (h : HandleId) : Option Item := (w.phase h).link?.map fun link => (h, link)

/-- The links that a teardown is about to close, with their handles, in the order in which it takes
them. -/
def batch (w : Hub) (wish : List Key) : List Item :=
  ((w.servedInOrder wish).filterMap w.serving).filterMap w.slot

theorem slot_eq_some_iff {item : Item} :
    w.slot h = some item ↔ item.1 = h ∧ ∃ refs, w.phase h = .live item.2 refs := by
  obtain ⟨h', link⟩ := item
  unfold slot
  cases w.phase h with
  | live link' refs => simp [Phase.link?, eq_comm]
  | pending | orphaned | closed => simp [Phase.link?]

/-- What a handle comes to in a teardown depends on its key alone. -/
theorem now_congr (fits : w.Fits h) (same : w'.shelf h.key = w.shelf h.key) :
    Part.now w'.closing (w'.slot h) = Part.now w.closing (w.slot h) := by
  have hslot : w'.slot h = w.slot h := by rw [slot, phase_eq, same, ← phase_eq, slot]
  rw [hslot]
  cases hs : w.slot h with
  | none => rfl
  | some item =>
    obtain ⟨-, refs, hp⟩ := slot_eq_some_iff.mp hs
    have hgate : w'.closing item.2.id = w.closing item.2.id :=
      closing_congr (fits.link _ _ hp) (congrArg Shelf.creations same)
    simp only [Part.now, hgate]

theorem forceClose_now (w : Hub) (h : HandleId) :
    (w.forceClose h).2 = Part.now w.closing (w.slot h) := by
  unfold forceClose slot
  cases hp : w.phase h with
  | live link refs =>
    have hopen : w.outline.phase h ≠ .closed := by
      rw [show w.outline.phase h = _ from hp]
      exact Phase.noConfusion
    have hgates : (((((w.note (.orphaning h.key refs)).setPhase h (.orphaned refs)).count
        .forceCloses).note (.forceClosing h.key link.identity)).beginClose h link).closing =
          w.closing := by
      rw [closing_eq, outline_beginClose, outline_note, outline_count,
        outline_setPhase_of_eq (outline_note w _) hopen]
      rfl
    exact (awaitPart_now _ h link).trans (by rw [hgates]; rfl)
  | pending queue => cases queue <;> rfl
  | orphaned | closed => rfl

/-- The parts of handles that are force closed are those of before. -/
theorem forceCloseEach_now (lined : Lined w hs) :
    (w.forceCloseEach hs).2 = (hs.map w.slot).map (Part.now w.closing) := by
  induction hs generalizing w with
  | nil => rfl
  | cons hd hs ih =>
    obtain ⟨g, hg⟩ := exists_grows_forceClose (lined.fits hd (List.mem_cons_self ..))
    obtain ⟨hne, -⟩ := List.nodup_cons.mp (List.map_cons ▸ lined.nodup)
    have hrest : (hs.map (w.forceClose hd).1.slot).map (Part.now (w.forceClose hd).1.closing) =
        (hs.map w.slot).map (Part.now w.closing) := by
      rw [List.map_map, List.map_map]
      refine List.map_congr_left fun h' hm => now_congr (lined.fits h' (List.mem_cons_of_mem _ hm)) ?_
      exact hg.shelf _ fun e => hne (List.mem_map.mpr ⟨h', hm, e⟩)
    rw [Hub.forceCloseEach, List.map_cons, List.map_cons, ← forceClose_now, ← hrest,
      ← ih lined.forceClose]

/-- Every live handle that is force closed has its link asked to close. -/
theorem one_le_closings_forceCloseEach (lined : Lined w hs) (hm : h ∈ hs) {link : Link} {refs : Nat}
    (hp : w.phase h = .live link refs) : 1 ≤ (w.forceCloseEach hs).1.outline.closings link.id := by
  induction hs generalizing w with
  | nil => contradiction
  | cons hd hs ih =>
    have hfits := lined.fits hd (List.mem_cons_self ..)
    rcases List.mem_cons.mp hm with rfl | hm
    · obtain ⟨-, hevents, -⟩ := forceClose_live hp (hfits.link _ _ hp)
      have hone : 1 ≤ (w.forceClose h).1.outline.closings link.id := by
        change 1 ≤ (w.forceClose h).1.events.count _
        rw [hevents, List.count_cons_self]
        exact Nat.le_add_left 1 _
      exact (tearsDown_forceCloseEach _ hs).chain.keeps (P := fun o => 1 ≤ o.closings link.id)
        (fun _ _ _ _ step before => Nat.le_trans before (step.closings_le _)) hone
    · obtain ⟨g, hg⟩ := exists_grows_forceClose hfits
      obtain ⟨hne, -⟩ := List.nodup_cons.mp (List.map_cons ▸ lined.nodup)
      have hsame : (w.forceClose hd).1.phase h = w.phase h := by
        rw [phase_eq, hg.shelf _ fun e => hne (List.mem_map.mpr ⟨h, hm, e⟩), ← phase_eq]
      exact ih lined.forceClose hm (hsame.trans hp)

section First

variable (orderly : ∀ k, (w.shelf k).Orderly k) (wish : List Key)

include orderly

/-- The first poll of a teardown. -/
theorem polled_first (found : w.teardowns[i]? = some ⟨.all, .idle⟩) :
    Polled w.closing i ((w.unlinkAll wish).2.map w.slot) (w.pollTeardown i wish) := by
  let v := (w.unlinkAll wish).1.note (.tearingDown (w.unlinkAll wish).2.length)
  have houtline : v.outline = w.outline := outline_unlinkAll w wish
  have hparts : (w.beginTeardown .all wish).2 =
      ((w.unlinkAll wish).2.map w.slot).map (Part.now w.closing) := by
    have hslot : v.slot = w.slot := by
      funext h
      rw [slot, show v.phase = w.phase from congrArg Outline.phase houtline, slot]
    have hgates : v.closing = w.closing := congrArg Outline.gate houtline
    rw [← hslot, ← hgates]
    exact forceCloseEach_now (lined_unlinkAll orderly wish _)
  obtain ⟨hs, htears⟩ := tearsDown_beginTeardown w .all wish
  rw [pollTeardown_of_idle found, hparts]
  exact polled_concludeTeardown (made_beginTeardown found .all wish)
    (htears.chain.advances (by decide)) _

/-- A link is in the batch just if a handle in service is live with it. -/
theorem mem_batch {link : Link} : (h, link) ∈ w.batch wish ↔
    w.serving h.key = some h ∧ ∃ refs, w.phase h = .live link refs := by
  rw [batch, List.mem_filterMap]
  constructor
  · rintro ⟨h', hm, hslot⟩
    obtain ⟨rfl, hlive⟩ := slot_eq_some_iff.mp hslot
    obtain ⟨k, -, hs⟩ := List.mem_filterMap.mp hm
    obtain ⟨rfl, -⟩ := ((orderly k).placed.serving_iff h).mp hs
    exact ⟨hs, hlive⟩
  · rintro ⟨hs, hlive⟩
    refine ⟨h, List.mem_filterMap.mpr ⟨h.key, ?_, hs⟩, slot_eq_some_iff.mpr ⟨rfl, hlive⟩⟩
    rw [mem_servedInOrder, hs]
    rfl

/-- The first poll asks every link of the batch to close. -/
theorem one_le_closings_pollTeardown (found : w.teardowns[i]? = some ⟨.all, .idle⟩) {item : Item}
    (hm : item ∈ w.batch wish) : 1 ≤ (w.pollTeardown i wish).1.outline.closings item.2.id := by
  obtain ⟨h, hh, hslot⟩ := List.mem_filterMap.mp hm
  obtain ⟨-, refs, hp⟩ := slot_eq_some_iff.mp hslot
  rw [pollTeardown_of_idle found, outline_concludeTeardown]
  have hphase : ((w.unlinkAll wish).1.note (.tearingDown (w.unlinkAll wish).2.length)).phase h =
      .live item.2 refs :=
    (congrFun (congrArg Outline.phase (outline_unlinkAll w wish)) h).trans hp
  exact one_le_closings_forceCloseEach (lined_unlinkAll orderly wish _) hh hphase

/-- No link is in a batch twice. -/
theorem nodup_batch : ((w.batch wish).map (·.2.id)).Nodup := by
  have hlined := lined_unlinkAll orderly wish (.tearingDown (w.unlinkAll wish).2.length)
  rw [batch, List.map_filterMap]
  refine List.Nodup.filterMap (fun h h' id hid hid' => ?_) (List.Nodup.of_map _ hlined.nodup)
  have hlink : ∀ {h : HandleId}, id ∈ (w.slot h).map (·.2.id) → id = .made h.key h.index := by
    intro h hid
    obtain ⟨item, hslot, rfl⟩ := Option.map_eq_some_iff.mp hid
    obtain ⟨-, refs, hp⟩ := slot_eq_some_iff.mp hslot
    exact (orderly h.key).recorded.id_of_live hp
  obtain ⟨hk, hi⟩ := LinkId.made.inj ((hlink hid).symm.trans (hlink hid'))
  cases h
  cases h'
  simp_all

end First

/-! ## Runs -/

/-- The replies to the polls of a teardown in a run. -/
def answers (w : Hub) (i : Nat) : List Move → List Reply
  | [] => []
  | m :: ms =>
    if m.polls i then w.reply m :: (w.move m).answers i ms else (w.move m).answers i ms

theorem Watches.move (h : w.Watches i slots) (tidy : w.outline.Tidy) {m : Move}
    (polls : m.polls i = false) (drops : m ≠ .dropTeardown i) : (w.move m).Watches i slots := by
  obtain ⟨gates, advances, found⟩ := h
  have hmade := (List.getElem?_eq_some_iff.mp found).1
  have hpolls : ∀ wish, m ≠ .pollTeardown i wish := by
    rintro wish rfl
    simp [Move.polls] at polls
  exact ⟨gates, advances.trans (advances_move tidy.nodup_jobs m),
    (teardown_move hmade hpolls drops).trans found⟩

/-- A teardown that has finished stays so, and does not answer any more. -/
theorem finished_play (h : w.teardowns[i]? = some ⟨.all, .finished⟩)
    (stays : .dropTeardown i ∉ ns) : (w.play ns).teardowns[i]? = some ⟨.all, .finished⟩ := by
  induction ns generalizing w with
  | nil => exact h
  | cons m ns ih =>
    have hm := List.ne_of_not_mem_cons stays
    have hns := List.not_mem_of_not_mem_cons stays
    refine ih ?_ hns
    by_cases hpolls : ∃ wish, m = .pollTeardown i wish
    · obtain ⟨wish, rfl⟩ := hpolls
      change (w.pollTeardown i wish).1.teardowns[i]? = _
      unfold pollTeardown
      rw [h]
      exact h
    · exact (teardown_move (List.getElem?_eq_some_iff.mp h).1 (fun wish e => hpolls ⟨wish, e⟩)
        (Ne.symm hm)).trans h

/-- Where a teardown is after a run: while every poll is told to come back it waits, and after that it
has finished. -/
structure Goes (w : Hub) (i : Nat) (slots : List (Option Item)) (ns : List Move) : Prop where
  waits : (∀ reply ∈ w.answers i ns, reply = .torn .pending) → (w.play ns).Watches i slots
  ends : (∃ reply ∈ w.answers i ns, reply ≠ .torn .pending) →
    (w.play ns).teardowns[i]? = some ⟨.all, .finished⟩

/-- A run goes on from a poll. -/
theorem Polled.goes_play {wish : List Key} (h : Polled gates i slots (w.pollTeardown i wish))
    (rest : (w.pollTeardown i wish).1.Watches i slots → Goes (w.pollTeardown i wish).1 i slots ns)
    (stays : .dropTeardown i ∉ ns) : Goes w i slots (.pollTeardown i wish :: ns) := by
  have hanswers : w.answers i (.pollTeardown i wish :: ns) =
      .torn (w.pollTeardown i wish).2 :: (w.pollTeardown i wish).1.answers i ns :=
    if_pos (decide_eq_true rfl)
  by_cases hpending : (w.pollTeardown i wish).2 = .pending
  · obtain ⟨hwaits, hends⟩ := rest (h.goes hpending)
    rw [hpending] at hanswers
    refine ⟨fun hall => hwaits fun reply hm => hall reply ?_, fun ⟨reply, hm, hne⟩ =>
      hends ⟨reply, ?_, hne⟩⟩
    · rw [hanswers]
      exact List.mem_cons_of_mem _ hm
    · rw [hanswers] at hm
      exact (List.mem_cons.mp hm).resolve_left hne
  · have hfinished := finished_play (h.ends hpending) stays
    refine ⟨fun hall => absurd ?_ hpending, fun _ => hfinished⟩
    rw [hanswers] at hall
    exact Reply.torn.inj (hall _ (List.mem_cons_self ..))

theorem Watches.play (h : w.Watches i slots) (tidy : w.outline.Tidy) (stays : .dropTeardown i ∉ ns) :
    Goes w i slots ns := by
  induction ns generalizing w with
  | nil => exact ⟨fun _ => h, fun ⟨_, hm, _⟩ => absurd hm List.not_mem_nil⟩
  | cons m ns ih =>
    have hm := List.ne_of_not_mem_cons stays
    have hns := List.not_mem_of_not_mem_cons stays
    have htidy : (w.move m).outline.Tidy := tidy_play tidy [m]
    cases hpolls : m.polls i with
    | false =>
      obtain ⟨hwaits, hends⟩ := ih (h.move tidy hpolls (Ne.symm hm)) htidy hns
      have hanswers : w.answers i (m :: ns) = (w.move m).answers i ns :=
        if_neg (by rw [hpolls]; exact Bool.false_ne_true)
      exact ⟨fun hall => hwaits (hanswers ▸ hall), fun hsome => hends (hanswers ▸ hsome)⟩
    | true =>
      obtain ⟨wish, rfl⟩ : ∃ wish, m = .pollTeardown i wish := by
        cases m with
        | pollTeardown j wish => exact ⟨wish, by rw [of_decide_eq_true hpolls]⟩
        | _ => contradiction
      exact (h.poll wish).goes_play (fun hwatches => ih hwatches htidy hns) hns

/-- What holds of a teardown that begins with a wish. -/
structure Awaits (w : Hub) (i : Nat) (wish : List Key) : Prop where
  /-- The batch is of the links that handles in service are live with. -/
  batch : ∀ h link, (h, link) ∈ w.batch wish ↔
    w.serving h.key = some h ∧ ∃ refs, w.phase h = .live link refs
  distinct : ((w.batch wish).map (·.2.id)).Nodup
  /-- All of them are asked to close by the first poll, which was not done before. -/
  asked : ∀ item ∈ w.batch wish, w.outline.closings item.2.id = 0 ∧
    ∀ ns, (w.play (.pollTeardown i wish :: ns)).outline.closings item.2.id = 1
  first : ∃ answer, w.reply (.pollTeardown i wish) = .torn answer ∧
    Verdict w.closing (w.batch wish) answer
  /-- As long as polls were told to come back, the next one is answered by what the provider has
  said until then. -/
  later : ∀ ns, .dropTeardown i ∉ ns →
    (∀ reply ∈ w.answers i (.pollTeardown i wish :: ns), reply = .torn .pending) →
      ∀ wish', ∃ answer,
        (w.play (.pollTeardown i wish :: ns)).reply (.pollTeardown i wish') = .torn answer ∧
          Verdict (w.play (.pollTeardown i wish :: ns)).closing (w.batch wish) answer
  /-- The answer is given once. -/
  once : ∀ ns, .dropTeardown i ∉ ns →
    (∃ reply ∈ w.answers i (.pollTeardown i wish :: ns), reply ≠ .torn .pending) →
      ∀ wish', (w.play (.pollTeardown i wish :: ns)).reply (.pollTeardown i wish') = .torn .over

/-- A teardown waits for all links that it has asked to close and for nothing else, and tells each of
their failures once. Its polls may come at any times of any run, and jobs, answers of the provider and
other teardowns in between. -/
theorem awaits_play {settings : Settings} {seed : UInt64} {ambient : Option Dispatch} {w₀ : Hub}
    (built : settings.build seed ambient = .ok w₀) (ms : List Move) {i : Nat}
    (idle : (w₀.play ms).begins i = true) (wish : List Key) : (w₀.play ms).Awaits i wish := by
  have htidy := tidy_play (tidy_build built) ms
  obtain ⟨-, sound, found⟩ := sound_of_begins (sound_build built).play idle
  generalize w₀.play ms = w at *
  have orderly := sound.orderly
  have hpolled := polled_first orderly wish found
  have hbatch : ((w.unlinkAll wish).2.map w.slot).reduceOption = w.batch wish := by
    rw [List.reduceOption, List.filterMap_map]
    rfl
  have hgoes : ∀ ns, .dropTeardown i ∉ ns → Goes w i ((w.unlinkAll wish).2.map w.slot)
      (.pollTeardown i wish :: ns) := fun ns stays =>
    hpolled.goes_play (fun hwatches => hwatches.play (tidy_play htidy [.pollTeardown i wish]) stays)
      stays
  refine ⟨fun h link => mem_batch orderly wish, nodup_batch orderly wish, fun item hm => ?_,
    ⟨_, rfl, hbatch ▸ hpolled.verdict⟩, fun ns stays hall wish' => ?_, fun ns stays hsome wish' => ?_⟩
  · obtain ⟨-, refs, hp⟩ := (mem_batch orderly wish).mp hm
    have hholds : w.outline.Holds item.1 item.2.id :=
      ⟨item.2, by rw [show w.outline.phase item.1 = _ from hp]; rfl, rfl⟩
    refine ⟨htidy.closings_of_holds hholds, fun ns => ?_⟩
    have hmost := (tidy_play htidy (.pollTeardown i wish :: ns)).closings_le item.2.id
    have hpoll := closings_le_play (tidy_play htidy [.pollTeardown i wish]) ns item.2.id
    have hone := one_le_closings_pollTeardown orderly wish found hm
    exact Nat.le_antisymm hmost (Nat.le_trans hone hpoll)
  · have hnext := ((hgoes ns stays).waits hall).poll wish'
    exact ⟨_, rfl, hbatch ▸ hnext.verdict⟩
  · have hfinished := (hgoes ns stays).ends hsome
    change Reply.torn ((w.play (.pollTeardown i wish :: ns)).pollTeardown i wish').2 = _
    unfold pollTeardown
    rw [hfinished]

/-- The link of one key closes when the provider is told to say so, and no other can be closed. -/
def uneven : Settings :=
  { provider := some fun k _ =>
      if k = sampleKey then { closing := .shut } else { closing := .opened (some "busy") }
    dispatch := some .inline }

/-- The hub with these settings. -/
def unevenHub : Hub :=
  { provider := fun k _ =>
      if k = sampleKey then { closing := .shut } else { closing := .opened (some "busy") }
    dispatch := .inline
    node := uneven.managementNode
    namer := .ofSeed 0 uneven.linkNameSuffix }

theorem build_uneven : uneven.build 0 none = .ok unevenHub := rfl

/-- The teardown waits for the link that has not closed, and then tells the failure of the other. -/
theorem awaits_play_serveTwo : (unevenHub.play serveTwo).begins 0 = true ∧
    (unevenHub.play serveTwo).reply (.pollTeardown 0 []) = .torn .pending ∧
    ∃ answer, ((unevenHub.play serveTwo).play [.pollTeardown 0 [],
        .answerClosing (.made sampleKey 0) none]).reply (.pollTeardown 0 []) = .torn answer ∧
      Verdict ((unevenHub.play serveTwo).play [.pollTeardown 0 [],
        .answerClosing (.made sampleKey 0) none]).closing ((unevenHub.play serveTwo).batch []) answer ∧
      answer = .ready (.error (.closeAll [.close ⟨"b", none⟩ "b#0" (.message "busy")])) := by
  have hbegins : (unevenHub.play serveTwo).begins 0 = true := by decide
  have hpending : (unevenHub.play serveTwo).reply (.pollTeardown 0 []) = .torn .pending := rfl
  obtain ⟨answer, hreply, hverdict⟩ := (awaits_play build_uneven serveTwo hbegins []).later
    [.answerClosing (.made sampleKey 0) none] (by decide) (by
      intro reply hm
      exact (List.mem_singleton.mp hm).trans hpending) []
  have htold : ((unevenHub.play serveTwo).play [.pollTeardown 0 [],
      .answerClosing (.made sampleKey 0) none]).reply (.pollTeardown 0 []) =
        .torn (.ready (.error (.closeAll [.close ⟨"b", none⟩ "b#0" (.message "busy")]))) := rfl
  exact ⟨hbegins, hpending, answer, hreply, hverdict, Reply.torn.inj (hreply.symm.trans htold)⟩

end Hub

end SharedLinks
