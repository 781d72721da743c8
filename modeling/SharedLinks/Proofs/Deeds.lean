import Mathlib.Data.List.Induction
import SharedLinks.Proofs.Handings
import SharedLinks.Proofs.Runs

/-!
# Runs that handle single handles

A `Deed` is a move, or something that a hub does not ask of its handles by itself: handles may be made
that serve no key, started any number of times, joined, released and closed one by one, and given
tickets of any kind. `Hub.perform` carries out deeds in order, and a run of moves is one of deeds.

Whatever the deeds are, every link that was made is kept by exactly one handle and was never asked to
close, or it was handed over to be closed exactly once, for one cause, by a deed that asked it to close
or took up a job that does, and it was asked to close at most once (`closings_perform`).
-/

namespace SharedLinks

/-- A move, or something that is done to a single handle. -/
inductive Deed where
  /-- Anything that can happen to a hub. -/
  | move (m : Move)
  /-- Makes a handle of a key that serves nobody. -/
  | make (key : Key)
  /-- Puts a handle into a key's service. -/
  | attach (handle : HandleId) (key : Key)
  /-- Requests a link for a key from the provider, on behalf of a handle. -/
  | start (handle : HandleId) (key : Key)
  /-- Asks a handle for its link. -/
  | join (handle : HandleId)
  /-- Makes a ticket by itself. -/
  | issue
  /-- Hands tickets to a handle. -/
  | adopt (handle : HandleId) (tickets : List TicketId)
  /-- Gives one reference back to a handle. -/
  | giveBack (handle : HandleId) (report : Bool)
  /-- Gives a ticket up. -/
  | drop (ticket : TicketId)
  /-- Makes a teardown of a handle, which is polled by a move. -/
  | forceClose (handle : HandleId)
  /-- Moves tickets to the handle that serves a key. -/
  | requeue (key : Key) (tickets : List TicketId)
  /-- Takes a handle out of a key's shelf. -/
  | forget (handle : HandleId) (key : Key)

namespace Hub

/-- Does something to a handle, if there is such a handle. -/
def onMade (w : Hub) (h : HandleId) (f : Hub → Hub) : Hub :=
  if h.index < (w.shelf h.key).phases.length then f w else w

/-- The hub after a deed. -/
def deed (w : Hub) : Deed → Hub
  | .move m => w.move m
  | .make k => w.addHandle k (.pending [])
  | .attach h k => w.onMade h fun w => w.setServing k (some h)
  | .start h k => w.onMade h fun w => w.startCreation h k
  | .join h => w.onMade h fun w => (w.join h).1
  | .issue => (w.addLoose .fresh).1
  | .adopt h ids => w.onMade h fun w => (w.adopt h ids).toOption.getD w
  | .giveBack h report => w.onMade h fun w => (w.giveBack h report).1
  | .drop id => w.dropTicket id
  | .forceClose h => w.onMade h fun w => w.addTeardown (.one h)
  | .requeue k ids => w.requeue k ids
  | .forget h k => w.onMade h fun w => w.forget k h

/-- The hub after some deeds in order. -/
def perform (w : Hub) (ds : List Deed) : Hub := ds.foldl deed w

theorem perform_append (w : Hub) (ds es : List Deed) :
    w.perform (ds ++ es) = (w.perform ds).perform es :=
  List.foldl_append

theorem perform_concat (w : Hub) (ds : List Deed) (d : Deed) :
    w.perform (ds ++ [d]) = (w.perform ds).deed d := by
  rw [perform_append]
  rfl

/-- Moves are deeds. -/
theorem perform_map_move (w : Hub) (ms : List Move) : w.perform (ms.map .move) = w.play ms :=
  List.foldl_map

/-- What each deed does to the outline. -/
theorem does_deed {w : Hub} (distinct : (w.jobs.map (·.id)).Nodup) (d : Deed) :
    ∃ kinds, Outline.Does kinds w.outline (w.deed d).outline := by
  have hmade : ∀ (h : HandleId) (f : Hub → Hub),
      (w.outline.HasMade h → ∃ kinds, Outline.Does kinds w.outline (f w).outline) →
        ∃ kinds, Outline.Does kinds w.outline (w.onMade h f).outline := by
    intro h f hf
    unfold onMade
    split
    · rename_i hm
      exact hf hm
    · exact ⟨[], .rest _ _⟩
  have hsame : ∀ {w' : Hub}, w'.outline = w.outline →
      ∃ kinds, Outline.Does kinds w.outline w'.outline := by
    intro w' he
    rw [he]
    exact ⟨[], .rest _ _⟩
  cases d with
  | move m => exact ⟨_, does_move distinct m⟩
  | make k =>
    refine ⟨[.make], ?_⟩
    change Outline.Does _ _ (w.addHandle k (.pending [])).outline
    rw [outline_addHandle]
    exact .makes _ k []
  | attach h k => exact hmade h _ fun _ => hsame (outline_setServing w k _)
  | start h k => exact hmade h _ fun hm => ⟨_, .starts hm (starts_startCreation w h k)⟩
  | join h => exact hmade h _ fun _ => ⟨_, .asks (asks_join w h)⟩
  | issue => exact hsame rfl
  | adopt h ids =>
    refine hmade h _ fun _ => ?_
    cases hadopt : w.adopt h ids with
    | ok w' => exact ⟨_, .asks (asks_adopt hadopt)⟩
    | error refused => exact hsame rfl
  | giveBack h report => exact hmade h _ fun _ => ⟨_, .gives (givesBack_giveBack w h report)⟩
  | drop id => exact ⟨_, does_dropTicket w id⟩
  | forceClose h => exact hmade h _ fun _ => hsame rfl
  | requeue k ids => exact ⟨_, .asks (asks_requeue w k ids)⟩
  | forget h k => exact hmade h _ fun _ => hsame (outline_forget w k h)

variable {w w₀ : Hub} {ds : List Deed} {d : Deed} {id : LinkId} {n : Nat}

theorem tidy_deed (h : w.outline.Tidy) (d : Deed) : (w.deed d).outline.Tidy := by
  obtain ⟨kinds, hdoes⟩ := does_deed h.nodup_jobs d
  exact hdoes.chain.tidy h

/-- Whatever is done to a hub, its outline stays tidy. -/
theorem tidy_perform (h : w.outline.Tidy) (ds : List Deed) : (w.perform ds).outline.Tidy := by
  induction ds generalizing w with
  | nil => exact h
  | cons d ds ih => exact ih (tidy_deed h d)

theorem tidy_play (h : w.outline.Tidy) (ms : List Move) : (w.play ms).outline.Tidy := by
  rw [← perform_map_move]
  exact tidy_perform h _

/-- A job that is there is found by its name. -/
theorem job?_of_mem (distinct : (w.jobs.map (·.id)).Nodup) {j : Job} (hj : j ∈ w.jobs) :
    w.job? j.id = some j := by
  obtain ⟨j', hfound⟩ : ∃ j', w.job? j.id = some j' :=
    Option.isSome_iff_exists.mp (List.find?_isSome.mpr ⟨j, hj, by simp⟩)
  have hid : j'.id = j.id := by simpa using List.find?_some hfound
  rw [hfound, List.inj_on_of_nodup_map distinct (List.mem_of_find?_eq_some hfound) hj hid]

/-- Whatever is done to a hub, its outline goes forward. -/
theorem later_perform (h : w.outline.Tidy) (ds : List Deed) :
    Outline.Later w.outline (w.perform ds).outline := by
  induction ds generalizing w with
  | nil => exact .refl _
  | cons d ds ih =>
    obtain ⟨kinds, hdoes⟩ := does_deed h.nodup_jobs d
    exact (hdoes.chain.later h).trans (ih (tidy_deed h d)) h

section Build

variable {settings : Settings} {seed : UInt64} {ambient : Option Dispatch}

theorem creation_build (built : settings.build seed ambient = .ok w) (id : LinkId) :
    w.outline.creation? id = none := by
  change w.creation? id = none
  cases id with
  | made k i =>
    rw [creation?, shelf_build built]
    rfl
  | brought name => rfl

/-- A hub that was just made has an empty outline. -/
theorem tidy_build (built : settings.build seed ambient = .ok w) : w.outline.Tidy := by
  obtain ⟨hshelf, hjobs, hevents, -⟩ := build_empty built
  have hnone := creation_build built
  have hphase : ∀ h, w.outline.phase h = .closed := by
    intro h
    change w.phase h = _
    rw [phase, hshelf]
    rfl
  constructor
  · exact fun id c hc => by simp [hnone] at hc
  · exact fun id c hc => by simp [hnone] at hc
  · exact fun id c hc => by simp [hnone] at hc
  · exact fun id c hc => by simp [hnone] at hc
  · exact fun h link hl => by simp [hphase, Phase.link?] at hl
  · exact fun j hj => by simp [outline, hjobs] at hj
  · exact fun h _ => hphase h
  · exact fun id _ => by simp [outline, hevents]

end Build

/-! ## Handing over -/

/-- The deed with this number hands the link over to be closed, for this cause. -/
def HandsAt (w : Hub) (ds : List Deed) (id : LinkId) (n : Nat) (cause : Outline.Cause) : Prop :=
  ∃ pre d post, ds = pre ++ d :: post ∧ pre.length = n ∧
    Outline.Hands (w.perform pre).outline ((w.perform pre).deed d).outline id cause

theorem handsAt_concat {cause : Outline.Cause} : w.HandsAt (ds ++ [d]) id n cause ↔
    w.HandsAt ds id n cause ∨ n = ds.length ∧
      Outline.Hands (w.perform ds).outline ((w.perform ds).deed d).outline id cause := by
  constructor
  · rintro ⟨pre, d', post, hsplit, rfl, hh⟩
    induction post using List.reverseRecOn with
    | nil =>
      obtain ⟨rfl, e⟩ := List.append_inj' hsplit rfl
      obtain rfl := List.singleton_inj.mp e
      exact Or.inr ⟨rfl, hh⟩
    | append_singleton post last _ =>
      rw [← List.cons_append, ← List.append_assoc] at hsplit
      obtain ⟨rfl, -⟩ := List.append_inj' hsplit rfl
      exact Or.inl ⟨pre, d', post, rfl, rfl, hh⟩
  · rintro (⟨pre, d', post, rfl, rfl, hh⟩ | ⟨rfl, hh⟩)
    · exact ⟨pre, d', post ++ [d], by simp, rfl, hh⟩
    · exact ⟨ds, d, [], rfl, rfl, hh⟩

/-- A link that a run has left to nobody was handed over once, and any other was not. -/
theorem handsAt_perform (tidy : w₀.outline.Tidy) (new : ∀ id, ¬ w₀.outline.Succeeded id)
    (ds : List Deed) (id : LinkId) :
    ((w₀.perform ds).outline.Spent id →
      ∃! p : Nat × Outline.Cause, w₀.HandsAt ds id p.1 p.2) ∧
    (¬ (w₀.perform ds).outline.Spent id → ∀ n cause, ¬ w₀.HandsAt ds id n cause) := by
  induction ds using List.reverseRecOn with
  | nil =>
    refine ⟨fun hs => absurd hs.1 (new id), fun _ n cause => ?_⟩
    rintro ⟨pre, d, post, hsplit, -⟩
    simp at hsplit
  | append_singleton ds d ih =>
    have htidy := tidy_perform tidy ds
    obtain ⟨kinds, hdoes⟩ := does_deed htidy.nodup_jobs d
    have hiff := hdoes.hands_iff htidy id
    rw [perform_concat]
    by_cases hspent : (w₀.perform ds).outline.Spent id
    · -- the link was handed over before, and this deed does not do so again
      have hlast : ∀ cause, ¬ Outline.Hands _ _ id cause := fun cause hh =>
        (hiff.mp ⟨cause, hh⟩).2 hspent
      obtain ⟨p, hp, huniq⟩ := ih.1 hspent
      refine ⟨fun _ => ⟨p, handsAt_concat.mpr (Or.inl hp), fun q hq => ?_⟩, fun hn => ?_⟩
      · rcases handsAt_concat.mp hq with hq | ⟨-, hh⟩
        · exact huniq q hq
        · exact absurd hh (hlast _)
      · exact absurd ((hdoes.chain.later htidy).spent htidy (hdoes.chain.tidy htidy) hspent) hn
    · have hbefore := ih.2 hspent
      refine ⟨fun hs => ?_, fun hs n cause hh => ?_⟩
      · obtain ⟨cause, hh⟩ := hiff.mpr ⟨hs, hspent⟩
        refine ⟨(ds.length, cause), handsAt_concat.mpr (Or.inr ⟨rfl, hh⟩), ?_⟩
        rintro ⟨n, cause'⟩ hq
        rcases handsAt_concat.mp hq with hq | ⟨hn, hh'⟩
        · exact absurd hq (hbefore _ _)
        · exact Prod.ext hn (hh.unique htidy hh')
      · rcases handsAt_concat.mp hh with hh | ⟨-, hh⟩
        · exact hbefore _ _ hh
        · exact hs (hiff.mp ⟨cause, hh⟩).1

/-- A link is asked to close once at most, and never while a handle keeps it. Whatever is done to a
hub and its handles, every link that was made is either kept by exactly one live handle, was never
handed over and never asked to close, or it is kept by none, was handed over exactly once and for one
cause, and was asked to close once at most; links that were not made are not asked to close. The deed
that hands a link over asks it to close, or takes up the job that will, if it was the last release. No
handle goes back in its life. -/
theorem closings_perform {settings : Settings} {seed : UInt64} {ambient : Option Dispatch}
    (built : settings.build seed ambient = .ok w₀) (ds : List Deed) :
    (∀ id, (w₀.perform ds).outline.Succeeded id →
      ((∃! h, (w₀.perform ds).outline.Holds h id) ∧ (w₀.perform ds).outline.closings id = 0 ∧
        ∀ n cause, ¬ w₀.HandsAt ds id n cause) ∨
      ((∀ h, ¬ (w₀.perform ds).outline.Holds h id) ∧ (w₀.perform ds).outline.closings id ≤ 1 ∧
        ∃! p : Nat × Outline.Cause, w₀.HandsAt ds id p.1 p.2)) ∧
    (∀ id, ¬ (w₀.perform ds).outline.Succeeded id →
      (∀ h, ¬ (w₀.perform ds).outline.Holds h id) ∧ (w₀.perform ds).outline.closings id = 0 ∧
        ∀ n cause, ¬ w₀.HandsAt ds id n cause) ∧
    ∀ pre post, ds = pre ++ post → ∀ h, (w₀.perform pre).outline.HasMade h →
      ((w₀.perform pre).phase h).age ≤ ((w₀.perform ds).phase h).age := by
  have htidy₀ := tidy_build built
  have hnew : ∀ id, ¬ w₀.outline.Succeeded id := by
    rintro id ⟨c, hc, -⟩
    rw [creation_build built] at hc
    contradiction
  have htidy := tidy_perform htidy₀ ds
  have hhands := handsAt_perform htidy₀ hnew ds
  refine ⟨fun id hs => ?_, fun id hs => ?_, ?_⟩
  · by_cases hold : ∃ h, (w₀.perform ds).outline.Holds h id
    · obtain ⟨h, hh⟩ := hold
      exact Or.inl ⟨⟨h, hh, fun h' hh' => htidy.eq_of_holds hh hh'⟩, htidy.closings_of_holds hh,
        (hhands id).2 fun hspent => hspent.2 h hh⟩
    · rw [not_exists] at hold
      exact Or.inr ⟨hold, htidy.closings_le id, (hhands id).1 ⟨hs, hold⟩⟩
  · exact ⟨fun h hh => hs (htidy.succeeded_of_holds hh), htidy.closings_of_not hs,
      (hhands id).2 fun hspent => hs hspent.1⟩
  · rintro pre post rfl h hm
    have hlater := later_perform (tidy_perform htidy₀ pre) post
    rw [← perform_append] at hlater
    exact hlater.age h hm

/-- Four links come to their end, each for another cause. The first handle is started twice and keeps the
first of its links until its one reference is given back. Nobody has asked the second one, and the third
is closed while it is held. -/
def closeEachWay : List Deed :=
  [.make sampleKey, .start ⟨sampleKey, 0⟩ sampleKey, .start ⟨sampleKey, 0⟩ sampleKey,
    .join ⟨sampleKey, 0⟩, .move (.runJob ⟨.made sampleKey 0, .create⟩),
    .move (.runJob ⟨.made sampleKey 1, .create⟩), .giveBack ⟨sampleKey, 0⟩ true,
    .move (.runJob ⟨.made sampleKey 0, .close⟩), .make sampleKey, .start ⟨sampleKey, 1⟩ sampleKey,
    .move (.runJob ⟨.made sampleKey 2, .create⟩), .make sampleKey, .start ⟨sampleKey, 2⟩ sampleKey,
    .join ⟨sampleKey, 2⟩, .move (.runJob ⟨.made sampleKey 3, .create⟩), .forceClose ⟨sampleKey, 2⟩,
    .move (.pollTeardown 0 [])]

/-- The deeds that hand these links over, by the number of the link, and their causes. -/
def closeEachWayCauses : List (Nat × Outline.Cause) :=
  [(6, .lastRelease), (5, .late), (10, .unwanted), (16, .forced)]

theorem handsAt_closeEachWay {i : Nat} {p : Nat × Outline.Cause}
    (cause : closeEachWayCauses[i]? = some p) :
    sample.HandsAt closeEachWay (.made sampleKey i) p.1 p.2 := by
  -- a link whose creation was not delivered has not arrived
  have hnew : ∀ {o : Outline} {id : LinkId}, ((o.creation? id).any fun c => c.delivered) = false →
      ¬ o.Succeeded id := by
    rintro o id hnone ⟨c, hc, hd, -⟩
    simp [hc, hd] at hnone
  obtain _ | _ | _ | _ | i := i
  · obtain rfl := Option.some.inj cause
    exact ⟨closeEachWay.take 6, _, closeEachWay.drop 7, rfl, rfl,
      .lastRelease (h := ⟨sampleKey, 0⟩) rfl rfl rfl ⟨rfl, rfl⟩⟩
  · obtain rfl := Option.some.inj cause
    refine ⟨closeEachWay.take 5, _, closeEachWay.drop 6, rfl, rfl,
      .late (c := _) ⟨hnew (by decide), rfl, rfl, rfl⟩ (fun awaits => ?_) ⟨rfl, rfl⟩⟩
    obtain ⟨queue, hqueue⟩ := awaits (by decide)
    cases hqueue
  · obtain rfl := Option.some.inj cause
    exact ⟨closeEachWay.take 10, _, closeEachWay.drop 11, rfl, rfl,
      .unwanted (c := _) ⟨hnew (by decide), rfl, rfl, rfl⟩ (fun _ => ⟨_, rfl⟩) rfl ⟨rfl, rfl⟩⟩
  · obtain rfl := Option.some.inj cause
    exact ⟨closeEachWay.take 16, _, closeEachWay.drop 17, rfl, rfl,
      .forced (h := ⟨sampleKey, 2⟩) (Or.inl ⟨_, rfl, rfl⟩) rfl ⟨rfl, rfl⟩⟩
  · contradiction

/-- Each of the links is handed over by that deed and no other, and has been asked to close once. -/
theorem closings_perform_closeEachWay :
    sampleSettings.build 0 none = .ok sample ∧ ∀ i p, closeEachWayCauses[i]? = some p →
      (sample.perform closeEachWay).outline.Succeeded (.made sampleKey i) ∧
      (sample.perform closeEachWay).outline.closings (.made sampleKey i) = 1 ∧
      ∀ q, sample.HandsAt closeEachWay (.made sampleKey i) q.1 q.2 ↔ q = p := by
  have hone : ∀ i < 4, (sample.perform closeEachWay).outline.closings (.made sampleKey i) = 1 := by
    decide
  obtain ⟨hmade, hnot, -⟩ := closings_perform build_sample closeEachWay
  refine ⟨build_sample, fun i p hp => ?_⟩
  have hhands := handsAt_closeEachWay hp
  have hs : (sample.perform closeEachWay).outline.Succeeded (.made sampleKey i) := by
    by_contra hs
    exact (hnot _ hs).2.2 _ _ hhands
  refine ⟨hs, hone i (List.getElem?_eq_some_iff.mp hp).1, fun q => ⟨fun hq => ?_, ?_⟩⟩
  · rcases hmade _ hs with ⟨-, -, hnever⟩ | ⟨-, -, honce⟩
    · exact absurd hhands (hnever _ _)
    · exact honce.unique hq hhands
  · rintro rfl
    exact hhands

end Hub

end SharedLinks
