import Mathlib.Data.List.Induction
import SharedLinks.Proofs.Keepers
import SharedLinks.Proofs.Teardowns

/-!
# Sound hubs and their runs

A hub is `Sound` if the shelf of every key is in order, its jobs have their reasons and its teardowns
are about everything. A new hub is sound, and every move of a sound hub that somebody holds is one
step on the shelf of each key (`move_moves`), with a mark that `Hub.mark` computes; so the hub stays
sound (`Sound.play`). Once nobody holds the hub, nobody ever does again (`isHeld_of_move`).
-/

namespace SharedLinks

/-- The handle that an unclaimed reference goes back to. -/
def Ticket.source? (t : Ticket) : Option HandleId :=
  match t.state with
  | .settled (.ok _) (some (.handle h)) => some h
  | _ => none

/-- The ticket is unclaimed, and the handle that granted its link has come to its end. -/
def Shelf.isVain (s : Shelf) (n : Nat) : Bool :=
  ((s.tickets[n]?).bind Ticket.source?).any fun h => (s.phase h.index).isClosed

namespace Hub

/-- A poll of the teardown would be its first. -/
def begins (w : Hub) (i : Nat) : Bool :=
  match w.teardowns[i]? with
  | some ⟨_, .idle⟩ => true
  | _ => false

/-- What a move does to the books of a key. -/
def mark (w : Hub) : Move → Key → Mark
  | .acquire j, k => if j = k ∧ 0 < w.clones then .asked else .even
  | .release j, k => if j = k ∧ 0 < w.clones ∧ 0 < (w.shelf k).total then .released else .even
  | .drop j n, k => if j = k ∧ (w.shelf k).isVain n = true then .stray else .even
  | .pollTeardown i _, k => if w.begins i then w.tornMark k else .even
  | _, _ => .even

/-- Where a mark comes from. -/
theorem mark_cases (w : Hub) (m : Move) (k : Key) : w.mark m k = .even ∨
    (w.mark m k = .asked ∧ m = .acquire k) ∨
    (w.mark m k = .released ∧ m = .release k) ∨
    (w.mark m k = .stray ∧ ∃ n, m = .drop k n ∧ (w.shelf k).isVain n = true) ∨
    (w.mark m k = .torn ∧ ∃ i wish, m = .pollTeardown i wish ∧ w.begins i = true) := by
  cases m with
  | acquire j =>
    rw [mark]
    split <;> simp_all
  | release j =>
    rw [mark]
    split <;> simp_all
  | drop j n =>
    rw [mark]
    split <;> simp_all
  | pollTeardown i wish =>
    rw [mark, tornMark]
    by_cases hb : w.begins i = true
    · rw [if_pos hb]
      split <;> simp [hb]
    · simp [hb]
  | poll | park | tearDown | dropTeardown | runJob | abortJob | answerMaking | answerClosing
  | clone | dropClone => exact Or.inl rfl

theorem mark_acquire {w : Hub} (hc : 0 < w.clones) (k : Key) : w.mark (.acquire k) k = .asked :=
  if_pos ⟨rfl, hc⟩

theorem mark_release {w : Hub} {k : Key} (hc : 0 < w.clones) (hpos : 0 < (w.shelf k).total) :
    w.mark (.release k) k = .released :=
  if_pos ⟨rfl, hc, hpos⟩

/-- Every shelf is in order, every job has its reason, and every teardown is about everything. -/
structure Sound (w : Hub) : Prop where
  orderly : ∀ k, (w.shelf k).Orderly k
  backed : w.Backed
  scope : ∀ t ∈ w.teardowns, t.scope = .all

/-! ## Moves that concern one key or none -/

/-- Shelves and events are as before, and no job is new. -/
structure Still (w w' : Hub) : Prop where
  shelves : w'.shelves = w.shelves
  events : w'.events = w.events
  jobs : ∀ j ∈ w'.jobs, j ∈ w.jobs

variable {w w' : Hub} {k : Key} {marks : Key → Mark}

theorem Silent.still (h : Silent w w') : Still w w' :=
  ⟨h.shelves, h.events, fun _ hj => h.jobs ▸ hj⟩

theorem Still.trans {w'' : Hub} (h : Still w w') (h' : Still w' w'') : Still w w'' :=
  ⟨h'.shelves.trans h.shelves, h'.events.trans h.events, fun j hj => h.jobs j (h'.jobs j hj)⟩

theorem Still.shelf (h : Still w w') (k : Key) : w'.shelf k = w.shelf k := by
  rw [Hub.shelf, h.shelves, Hub.shelf]

theorem Still.backed (h : Still w w') (hb : w.Backed) : w'.Backed := by
  refine hb.of_shelf h.shelf h.jobs fun id hid => ?_
  rwa [HasClosed, ← h.events]

theorem Still.noteIfAbandoned (h : Still w w') : Still w w'.noteIfAbandoned := by
  unfold Hub.noteIfAbandoned
  split
  · exact h
  · exact h.trans ⟨rfl, rfl, fun _ => id⟩

/-- A move after which the hub is as it was. -/
theorem Still.moves (h : Still w w') (heven : ∀ k, marks k = .even) : Moves marks w w' := by
  refine ⟨fun k => ⟨[], ?_, ?_⟩, h.backed⟩
  · rw [heven, h.shelf]
    exact (Shelf.Turn.rest _).step
  · rw [List.append_nil, Hub.wakes, h.events, Hub.wakes]

/-- Changes that do not show after a move. -/
theorem Moves.still {w'' : Hub} (h : Moves marks w w') (hs : Still w' w'') : Moves marks w w'' := by
  refine ⟨fun k => ?_, fun hb => hs.backed (h.backed hb)⟩
  obtain ⟨woken, hstep, hwakes⟩ := h.step k
  refine ⟨woken, ?_, ?_⟩
  · rw [hs.shelf]
    exact hstep
  · rw [Hub.wakes, hs.events]
    exact hwakes

/-- A call that concerns one key is a move. -/
theorem Does.moves {mark : Mark} {woken : List (Nat × Nat)} (h : Does k mark woken w w')
    (hk : marks k = mark) (hne : ∀ j, j ≠ k → marks j = .even) : Moves marks w w' := by
  refine ⟨fun j => ?_, h.backed⟩
  by_cases hj : j = k
  · subst hj
    rw [hk]
    exact ⟨woken, h.step, h.wakes⟩
  · refine ⟨[], ?_, ?_⟩
    · rw [hne j hj, h.frame.shelf j hj]
      exact (Shelf.Turn.rest _).step
    · rw [h.frame.wakes j hj, List.append_nil]

/-! ## All moves -/

theorem silent_awaitParts (w : Hub) (parts : List Part) : Silent w (w.awaitParts parts).1 := by
  induction parts generalizing w with
  | nil => exact Silent.refl w
  | cons part parts ih =>
    cases part with
    | closing h link => exact (silent_awaitPart w h link).trans (ih _)
    | done result => exact ih w

theorem still_concludeTeardown (w : Hub) (i : Nat) (scope : Scope) (parts : List Part) :
    Still w (w.concludeTeardown i scope parts).1 := by
  unfold concludeTeardown
  split
  · exact ⟨rfl, rfl, fun _ => id⟩
  · have hresult : Still w ((w.teardownResult scope parts).1.setTeardown i scope .finished) := by
      unfold teardownResult
      split <;> exact ⟨rfl, rfl, fun _ => id⟩
    exact hresult.noteIfAbandoned

/-- The first poll of a teardown takes the handles of all keys out of service, any other does
nothing on the shelves. -/
theorem pollTeardown_moves (h : w.Sound) (i : Nat) (wish : List Key) :
    Moves (w.mark (.pollTeardown i wish)) w (w.pollTeardown i wish).1 := by
  unfold pollTeardown
  have hmark : ∀ k, w.mark (.pollTeardown i wish) k = if w.begins i then w.tornMark k else .even :=
    fun _ => rfl
  split
  · rename_i scope ht
    have hscope : scope = .all := h.scope _ (List.mem_of_getElem? ht)
    subst hscope
    have hheld : w.isHeld = true := by
      rw [isHeld, Bool.or_eq_true, List.any_eq_true]
      exact Or.inr ⟨_, List.mem_of_getElem? ht, rfl⟩
    have hmarks : w.mark (.pollTeardown i wish) = w.tornMark := by
      funext k
      rw [hmark, if_pos (by rw [begins, ht])]
    rw [hmarks]
    exact (beginTeardown_moves hheld h.orderly wish).1.still (still_concludeTeardown _ _ _ _)
  · rename_i scope parts ht
    refine Still.moves ((silent_awaitParts w parts).still.trans (still_concludeTeardown _ _ _ _)) ?_
    intro k
    rw [hmark, if_neg (by simp [begins, ht])]
  all_goals
    rename_i ht
    refine Still.moves ⟨rfl, rfl, fun _ => id⟩ fun k => ?_
    rw [hmark, if_neg (by simp [begins, ht])]

/-- Dropping a ticket gives its reference back, unless there is none or it is dropped in vain. -/
theorem dropTicket_moves (h : w.Sound) (held : w.isHeld = true) (j : Key) (n : Nat) :
    Moves (w.mark (.drop j n)) w (w.dropTicket (.forKey j n)) := by
  have hmark : ∀ k, w.mark (.drop j n) k =
      if j = k ∧ (w.shelf k).isVain n = true then .stray else .even := fun _ => rfl
  have hother : ∀ k, k ≠ j → w.mark (.drop j n) k = .even := by
    intro k hk
    rw [hmark, if_neg fun e => hk e.1.symm]
  by_cases hunclaimed : ∃ t : Ticket, (w.shelf j).tickets[n]? = some t ∧ t.isUnclaimed = true
  · obtain ⟨t, ht, hu⟩ := hunclaimed
    obtain ⟨link, r, hstate⟩ := Ticket.isUnclaimed_iff.mp hu
    obtain ⟨i, -, rfl⟩ := (h.orderly j).refund_of_unclaimed ht hstate
    have hvain : (w.shelf j).isVain n = ((w.shelf j).phase i).isClosed := by
      rw [Shelf.isVain, ht, Option.bind_some, Ticket.source?, hstate]
      rfl
    by_cases hc : (w.shelf j).phase i = .closed
    · refine (dropTicket_stray ht hstate hc).1.does.moves ?_ hother
      rw [hmark, if_pos ⟨rfl, by rw [hvain, hc]; rfl⟩]
    · obtain ⟨woken, hdoes, -⟩ := dropTicket_refund held (h.orderly j) ht hstate hc
      refine hdoes.moves ?_ hother
      rw [hmark, if_neg]
      rintro ⟨-, e⟩
      rw [hvain] at e
      cases hp : (w.shelf j).phase i <;> simp_all [Phase.isClosed]
  · have hclaim : ∀ t : Ticket, (w.shelf j).tickets[n]? = some t → t.isUnclaimed = false := by
      intro t ht
      by_contra hu
      exact hunclaimed ⟨t, ht, by simpa using hu⟩
    refine (dropTicket_turned hclaim).does.moves ?_ hother
    rw [hmark, if_neg]
    rintro ⟨-, e⟩
    rw [Shelf.isVain] at e
    cases ht : (w.shelf j).tickets[n]? with
    | none => simp [ht] at e
    | some t =>
      have hu := hclaim t ht
      unfold Ticket.isUnclaimed at hu
      rw [ht, Option.bind_some, Ticket.source?] at e
      split at e <;> simp_all

theorem release_moves (h : w.Sound) (hc : 0 < w.clones) (j : Key) :
    Moves (w.mark (.release j)) w (w.release j).1 := by
  have hmark : ∀ k, w.mark (.release j) k =
      if j = k ∧ 0 < w.clones ∧ 0 < (w.shelf k).total then .released else .even := fun _ => rfl
  have hheld : w.isHeld = true := by
    rw [isHeld, Bool.or_eq_true]
    exact Or.inl (by simpa using hc)
  by_cases hpos : 0 < (w.shelf j).total
  · obtain ⟨woken, hdoes, -⟩ := release_does hheld (h.orderly j) hpos
    refine hdoes.moves (by rw [hmark, if_pos ⟨rfl, hc, hpos⟩]) fun k hk => ?_
    rw [hmark, if_neg fun e => hk e.1.symm]
  · refine (release_silent (h.orderly j) (by omega)).still.moves fun k => ?_
    rw [hmark, if_neg]
    rintro ⟨rfl, -, e⟩
    exact hpos e

/-- Every move of a sound hub that somebody holds is one step on the shelf of each key. -/
theorem move_moves (h : w.Sound) (held : w.isHeld = true) (m : Move) :
    Moves (w.mark m) w (w.move m) := by
  have hasked : ∀ (f : Hub → Hub) (marks : Key → Mark), (w.clones = 0 → ∀ k, marks k = .even) →
      (0 < w.clones → Moves marks w (f w)) → Moves marks w (w.asked f) := by
    intro f marks hzero hpos
    exact asked_induction (fun hc => Still.moves ⟨rfl, rfl, fun _ => id⟩ (hzero hc)) hpos
  cases m with
  | acquire k =>
    refine hasked (fun w => (w.acquire k).1) _ (fun hc j => ?_) fun hc => ?_
    · exact if_neg fun e => absurd e.2 (by omega)
    · obtain ⟨woken, hdoes⟩ := acquire_does held (h.orderly k)
      exact hdoes.moves (if_pos ⟨rfl, hc⟩) fun j hj => if_neg fun e => hj e.1.symm
  | release k =>
    refine hasked (fun w => (w.release k).1) _ (fun hc j => ?_) fun hc => release_moves h hc k
    exact if_neg fun e => absurd e.2.1 (by omega)
  | poll k n => exact (pollTicket_turned w k n).does.moves rfl fun _ _ => rfl
  | park k n => exact (parkTicket_turned w k n).does.moves rfl fun _ _ => rfl
  | drop k n => exact dropTicket_moves h held k n
  | tearDown =>
    exact hasked (fun w => w.addTeardown .all) _ (fun _ _ => rfl) fun _ =>
      Still.moves ⟨rfl, rfl, fun _ => id⟩ fun _ => rfl
  | pollTeardown i wish => exact pollTeardown_moves h i wish
  | dropTeardown i =>
    refine Still.moves ?_ fun _ => rfl
    change Still w (w.dropTeardown i)
    unfold dropTeardown
    split
    · exact ⟨rfl, rfl, fun _ => id⟩
    · dsimp only
      split
      · exact Still.noteIfAbandoned ⟨rfl, rfl, fun _ => id⟩
      · exact ⟨rfl, rfl, fun _ => id⟩
  | runJob id =>
    rcases runJob_does h.backed h.orderly held id with e | ⟨k, woken, hdoes⟩
    · refine Still.moves ?_ fun _ => rfl
      change Still w (w.runJob id).1
      rw [e]
      exact ⟨rfl, rfl, fun _ h => h⟩
    · exact hdoes.moves rfl fun _ _ => rfl
  | abortJob id =>
    exact Still.moves ⟨rfl, rfl, fun _ hj => (List.mem_filter.mp hj).1⟩ fun _ => rfl
  | answerMaking id failure =>
    rcases answerMaking_turned w id failure with e | ⟨k, hturned⟩
    · refine Still.moves ?_ fun _ => rfl
      change Still w (((w.answerMaking id failure).map Prod.fst).getD w)
      rw [e]
      exact ⟨rfl, rfl, fun _ h => h⟩
    · exact hturned.does.moves rfl fun _ _ => rfl
  | answerClosing id failure =>
    rcases answerClosing_turned w id failure with e | ⟨k, hturned⟩
    · refine Still.moves ?_ fun _ => rfl
      change Still w (((w.answerClosing id failure).map Prod.fst).getD w)
      rw [e]
      exact ⟨rfl, rfl, fun _ h => h⟩
    · exact hturned.does.moves rfl fun _ _ => rfl
  | clone =>
    exact hasked addClone _ (fun _ _ => rfl) fun _ =>
      Still.moves ⟨rfl, rfl, fun _ => id⟩ fun _ => rfl
  | dropClone =>
    refine Still.moves ?_ fun _ => rfl
    change Still w w.dropClone
    unfold dropClone
    split
    · exact ⟨rfl, rfl, fun _ => id⟩
    · exact Still.noteIfAbandoned ⟨rfl, rfl, fun _ => id⟩

/-! ## Runs -/

/-- A move keeps a hub sound. -/
theorem Sound.move (h : w.Sound) (held : w.isHeld = true) (m : Move) : (w.move m).Sound := by
  have hmoves := move_moves h held m
  refine ⟨fun k => ?_, hmoves.backed h.backed, scope_of_move h.scope⟩
  obtain ⟨woken, hstep, -⟩ := hmoves.step k
  exact hstep.orderly (h.orderly k)

/-- A hub that somebody holds after a run was held all the time. -/
theorem isHeld_of_play {ms : List Move} (h : (w.play ms).isHeld = true) : w.isHeld = true := by
  induction ms using List.reverseRecOn with
  | nil => exact h
  | append_singleton ms m ih =>
    rw [play_concat] at h
    exact ih (isHeld_of_move h)

theorem clones_of_play {ms : List Move} (h : 0 < (w.play ms).clones) : 0 < w.clones := by
  induction ms using List.reverseRecOn with
  | nil => exact h
  | append_singleton ms m ih =>
    rw [play_concat] at h
    exact ih (clones_of_move h)

theorem isHeld_of_clones (h : 0 < w.clones) : w.isHeld = true := by
  rw [isHeld, Bool.or_eq_true]
  exact Or.inl (by simpa using h)

/-- Whatever happens to a sound hub, it is sound as long as somebody holds it. -/
theorem Sound.play (h : w.Sound) {ms : List Move} (held : (w.play ms).isHeld = true) :
    (w.play ms).Sound := by
  induction ms using List.reverseRecOn with
  | nil => exact h
  | append_singleton ms m ih =>
    rw [play_concat] at held ⊢
    exact (ih (isHeld_of_move held)).move (isHeld_of_move held) m

section Build

variable {settings : Settings} {seed : UInt64} {ambient : Option Dispatch}

/-- A hub that was just made has nothing on its shelves and nothing to do. -/
theorem build_empty (h : settings.build seed ambient = .ok w) :
    (∀ k, w.shelf k = {}) ∧ w.jobs = [] ∧ w.events = [] ∧ w.teardowns = [] := by
  unfold Settings.build at h
  split at h
  · contradiction
  · contradiction
  · contradiction
  · obtain rfl := Except.ok.inj h
    exact ⟨fun _ => rfl, rfl, rfl, rfl⟩

theorem shelf_build (h : settings.build seed ambient = .ok w) (k : Key) : w.shelf k = {} :=
  (build_empty h).1 k

/-- Whoever has made a hub holds it. -/
theorem clones_build (h : settings.build seed ambient = .ok w) : w.clones = 1 := by
  unfold Settings.build at h
  split at h
  · contradiction
  · contradiction
  · contradiction
  · obtain rfl := Except.ok.inj h
    rfl

/-- A provider that answers at once, and jobs that wait until they are run. -/
def sampleSettings : Settings := { provider := some fun _ _ => {}, dispatch := some .queue }

/-- The hub with these settings. -/
def sample : Hub :=
  { provider := fun _ _ => {}
    dispatch := .queue
    node := sampleSettings.managementNode
    namer := .ofSeed 0 sampleSettings.linkNameSuffix }

/-- A key to ask it for. -/
def sampleKey : Key := ⟨"a", none⟩

/-- Two keys are served when a teardown is made. -/
def serveTwo : List Move := [.acquire sampleKey, .acquire ⟨"b", none⟩, .tearDown]

theorem build_sample : sampleSettings.build 0 none = .ok sample := rfl

/-- A hub that was just made is sound. -/
theorem sound_build (h : settings.build seed ambient = .ok w) : w.Sound := by
  obtain ⟨hshelf, hjobs, hevents, hteardowns⟩ := build_empty h
  refine ⟨fun k => ?_, ⟨?_, ?_⟩, ?_⟩
  · rw [hshelf]
    exact Shelf.orderly_empty k
  · rw [hjobs]
    simp
  · intro k i hid
    rw [HasClosed, hevents] at hid
    contradiction
  · rw [hteardowns]
    simp

end Build

end Hub

end SharedLinks
