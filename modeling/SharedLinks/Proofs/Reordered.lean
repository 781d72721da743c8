import SharedLinks.Proofs.Commuting
import SharedLinks.Proofs.Drained

/-!
# The order in which a teardown takes handles

The first poll of a teardown may take the handles in service in any order. Nobody can tell which one it
was but by the names of new links, the order of jobs and events, and the order in which failures are
told (`reordered_play`); whether jobs wait, are run at once or are thrown away makes no difference.

What a handle comes to depends on its key alone, so the force closings of two handles may change places
(`commute_forceClose`). From there any two orders are reached by exchanges of neighbours
(`Shuffled.forceCloseEach`).
-/

namespace SharedLinks

/-- A teardown is at the same point, with the same parts in some order. -/
inductive TeardownState.Alike : TeardownState → TeardownState → Prop
  | running {parts parts' : List Part} (h : parts'.Perm parts) :
    Alike (.running parts) (.running parts')
  | finished : Alike .finished .finished

/-- It holds the hub alike, then. -/
theorem TeardownState.Alike.holds {state state' : TeardownState} (h : state.Alike state')
    (scope : Scope) : Teardown.holds ⟨scope, state'⟩ = Teardown.holds ⟨scope, state⟩ := by
  cases h <;> rfl

/-- A teardown gives the same answer, with the same failures in some order. -/
inductive SameEnd : Poll (Except LinkError Unit) → Poll (Except LinkError Unit) → Prop
  | pending : SameEnd .pending .pending
  | ok : SameEnd (.ready (.ok ())) (.ready (.ok ()))
  | failed {failures failures' : List LinkError} (h : failures'.Perm failures) :
    SameEnd (.ready (.error (.closeAll failures))) (.ready (.error (.closeAll failures')))

namespace Hub

variable {w w' w'' : Hub} {hd hd' : HandleId} {hs hs' : List HandleId}

/-! ## Hubs that agree but for order -/

/-- The hubs agree on all keys, tickets and counters, and in some order on jobs and events. The names
that new links get may differ. -/
structure Shuffled (w w' : Hub) : Prop extends Matches False w w' where
  jobs : w'.jobs.Perm w.jobs
  ready : w'.ready.Perm w.ready
  dispatch : w'.dispatch = w.dispatch

namespace Shuffled

theorem refl (w : Hub) : Shuffled w w := ⟨.refl False w, .refl _, .refl _, rfl⟩

theorem trans (h : Shuffled w w') (h' : Shuffled w' w'') : Shuffled w w'' :=
  ⟨h.toMatches.trans h'.toMatches, h'.jobs.trans h.jobs, h'.ready.trans h.ready,
    h'.dispatch.trans h.dispatch⟩

/-- Journals do not matter. -/
theorem note (h : Shuffled w w') (n n' : Notice) : Shuffled (w.note n) (w'.note n') :=
  ⟨⟨h.shelf, h.table, h.provider, h.node, h.held, h.loose, h.counters, h.events, h.namer, h.exact⟩,
    h.jobs, h.ready, h.dispatch⟩

/-- Two hubs go alongside under all keys, the names of new links aside. -/
def nameless : Accord :=
  { keys := fun _ => True, places := True, asks := True, takes := True, names := False }

/-- A handle that is out of service is force closed alike. -/
theorem forceClose (h : Shuffled w w') (fits : w.Fits hd) :
    Shuffled (w.forceClose hd).1 (w'.forceClose hd).1 ∧ (w'.forceClose hd).2 = (w.forceClose hd).2 := by
  have hstart : Alongside nameless w w' w w' :=
    .start (fun k _ => h.shelf k ▸ .refl _ _) (fun k _ => congrFun h.provider k) h.node
      (fun _ => h.held) False.elim
  obtain ⟨along, hpart⟩ := (Alongside.tail (a := nameless) trivial h.dispatch).forceClose_fits hstart
    trivial trivial trivial fits
  have hmatches := h.toMatches.of_alongside along (fun _ => trivial) trivial False.elim
  obtain ⟨g, g', hg, hg', like⟩ := along.growth
  refine ⟨⟨hmatches, ?_, ?_, by rw [hg'.dispatch, h.dispatch, hg.dispatch]⟩, hpart⟩
  · rw [hg'.jobs, hg.jobs, like.jobs]
    exact h.jobs.append_right _
  · rw [hg'.ready, hg.ready, like.ready]
    exact h.ready.append_right _

end Shuffled

/-! ## Exchanges -/

/-- Two hubs go alongside under one key, whose handle is force closed, the names of new links aside. -/
def closeNameless (k : Key) : Accord := { closeAlone k with names := False }

/-- A handle is force closed alike before and after one of another key is. -/
theorem alongside_forceClose (ne : hd.key ≠ hd'.key) (fits : w.Fits hd) (fits' : w.Fits hd') :
    Alongside (closeNameless hd.key) w (w.forceClose hd').1 (w.forceClose hd).1
        ((w.forceClose hd').1.forceClose hd).1 ∧
      ((w.forceClose hd').1.forceClose hd).2 = (w.forceClose hd).2 := by
  obtain ⟨g, hg⟩ := exists_grows_forceClose fits'
  have hstart : Alongside (closeNameless hd.key) w (w.forceClose hd').1 w (w.forceClose hd').1 := by
    refine .start (fun k hk => ?_) (fun k _ => congrFun hg.provider k) hg.node (fun _ => hg.isHeld)
      False.elim
    obtain rfl : k = hd.key := hk
    rw [hg.shelf _ ne]
    exact .refl _ _
  have htail := Alongside.tail (a := closeNameless hd.key) trivial hg.dispatch
  exact htail.forceClose_fits hstart trivial trivial rfl fits

/-- Two handles of different keys may be force closed in either order. -/
theorem commute_forceClose (ne : hd.key ≠ hd'.key) (fits : w.Fits hd) (fits' : w.Fits hd')
    (known : hd.key ∈ w.shelves.keys) (known' : hd'.key ∈ w.shelves.keys) :
    Shuffled ((w.forceClose hd).1.forceClose hd').1 ((w.forceClose hd').1.forceClose hd).1 := by
  obtain ⟨hmine, -⟩ := alongside_forceClose ne fits fits'
  obtain ⟨hyours, -⟩ := alongside_forceClose ne.symm fits' fits
  obtain ⟨f, f', hf, hf', like⟩ := hmine.growth
  obtain ⟨g, g', hg, hg', like'⟩ := hyours.growth
  refine ⟨.square False hf hg hg' hf' ?_ (fun k hk => (hmine.shelf k hk).eq trivial)
    (fun k hk => (hyours.shelf k hk).eq trivial) ?_ ⟨like.events, like'.events⟩ False.elim
    ⟨like.counts, like'.counts⟩, ?_, ?_, ?_⟩
  · rintro k rfl
    exact ne
  · rintro k (rfl | rfl)
    · exact known
    · exact known'
  · rw [hf'.jobs, hg.jobs, hg'.jobs, hf.jobs, like.jobs, like'.jobs, List.append_assoc,
      List.append_assoc]
    exact List.perm_append_comm.append_left _
  · rw [hf'.ready, hg.ready, hg'.ready, hf.ready, like.ready, like'.ready, List.append_assoc,
      List.append_assoc]
    exact List.perm_append_comm.append_left _
  · rw [hf'.dispatch, hg.dispatch, hg'.dispatch, hf.dispatch]

theorem Lined.perm (h : Lined w hs) (order : hs'.Perm hs) : Lined w hs' :=
  ⟨(order.map _).nodup_iff.mpr h.nodup, fun hd hm => h.fits hd (order.subset hm),
    fun hd hm => h.known hd (order.subset hm)⟩

/-- Handles of different keys may be force closed in any order. -/
theorem Shuffled.forceCloseEach (h : Shuffled w w') (order : hs.Perm hs') (lined : Lined w hs) :
    Shuffled (w.forceCloseEach hs).1 (w'.forceCloseEach hs').1 ∧
      (w'.forceCloseEach hs').2.Perm (w.forceCloseEach hs).2 := by
  induction order using List.Perm.recOnSwap' generalizing w w' with
  | nil => exact ⟨h, .refl _⟩
  | cons hd _ ih =>
    obtain ⟨hone, hpart⟩ := h.forceClose (lined.fits hd (List.mem_cons_self ..))
    obtain ⟨hrest, hparts⟩ := ih hone lined.forceClose
    refine ⟨hrest, ?_⟩
    simp only [Hub.forceCloseEach, hpart]
    exact hparts.cons _
  | swap' hd hd' _ ih =>
    -- the two change places in the first hub, and then both hubs take them alike
    obtain ⟨hne, -⟩ := List.nodup_cons.mp (List.map_cons ▸ lined.nodup)
    have ne : hd'.key ≠ hd.key := fun e => hne (e ▸ List.mem_cons_self ..)
    have lined' := lined.perm (.swap ..)
    have fits' := lined.fits hd' (List.mem_cons_self ..)
    have fits := lined'.fits hd (List.mem_cons_self ..)
    have hswap := commute_forceClose ne fits' fits (lined.known hd' (List.mem_cons_self ..))
      (lined'.known hd (List.mem_cons_self ..))
    obtain ⟨-, hsame'⟩ := alongside_forceClose ne fits' fits
    obtain ⟨-, hsame⟩ := alongside_forceClose ne.symm fits fits'
    obtain ⟨hone, hpart⟩ := h.forceClose fits
    obtain ⟨htwo, hpart'⟩ := hone.forceClose (lined'.forceClose.fits hd' (List.mem_cons_self ..))
    obtain ⟨hrest, hparts⟩ := ih (hswap.trans htwo) lined.forceClose.forceClose
    refine ⟨hrest, ?_⟩
    simp only [Hub.forceCloseEach, hpart, hpart', hsame, hsame']
    exact (hparts.cons _ |>.cons _).trans (.swap ..)
  | trans order _ ih ih' =>
    obtain ⟨hone, hparts⟩ := ih (.refl w) lined
    obtain ⟨htwo, hparts'⟩ := ih' h (lined.perm order.symm)
    exact ⟨hone.trans htwo, hparts'.trans hparts⟩

/-! ## The first poll -/

variable {i : Nat} {parts parts' : List Part}

/-- Handles are taken out of service alike in any order. -/
theorem shuffled_unlinkAll (w : Hub) (wish wish' : List Key) :
    Shuffled (w.unlinkAll wish).1 (w.unlinkAll wish').1 ∧
      (w.unlinkAll wish).2.Perm (w.unlinkAll wish').2 := by
  have horder : (w.servedInOrder wish).Perm (w.servedInOrder wish') :=
    (perm_servedInOrder w wish).trans (perm_servedInOrder w wish').symm
  have hshelf : ∀ k, (w.unlinkAll wish').1.shelf k = (w.unlinkAll wish).1.shelf k := by
    intro k
    refine (shelf_foldl_unlink w _ (nodup_servedInOrder w wish') k).trans ?_
    refine Eq.trans ?_ (shelf_foldl_unlink w _ (nodup_servedInOrder w wish) k).symm
    simp only [horder.mem_iff]
  have htable : (w.unlinkAll wish').1.shelves.keys = (w.unlinkAll wish).1.shelves.keys :=
    (keys_foldl_unlink w _).trans (keys_foldl_unlink w _).symm
  refine ⟨?_, horder.filterMap _⟩
  obtain ⟨shelves, e⟩ := exists_shelves_unlink w (w.servedInOrder wish)
  obtain ⟨shelves', e'⟩ := exists_shelves_unlink w (w.servedInOrder wish')
  rw [show (w.unlinkAll wish).1 = _ from e] at hshelf htable ⊢
  rw [show (w.unlinkAll wish').1 = _ from e'] at hshelf htable ⊢
  exact ⟨⟨hshelf, htable, rfl, rfl, rfl, rfl, rfl, .refl _, False.elim, False.elim⟩, .refl _, .refl _,
    rfl⟩

/-- A teardown begins alike in any order. -/
theorem shuffled_beginTeardown (orderly : ∀ k, (w.shelf k).Orderly k) (wish wish' : List Key) :
    Shuffled (w.beginTeardown .all wish).1 (w.beginTeardown .all wish').1 ∧
      (w.beginTeardown .all wish').2.Perm (w.beginTeardown .all wish).2 := by
  obtain ⟨hout, horder⟩ := shuffled_unlinkAll w wish wish'
  have hnoted := hout.note (.tearingDown (w.unlinkAll wish).2.length)
    (.tearingDown (w.unlinkAll wish').2.length)
  exact hnoted.forceCloseEach horder (lined_unlinkAll orderly wish _)

/-- What others have seen before is not taken back. -/
theorem exists_events_forceCloseEach (lined : Lined w hs) :
    ∃ es, (w.forceCloseEach hs).1.events = es ++ w.events := by
  induction hs generalizing w with
  | nil => exact ⟨[], rfl⟩
  | cons hd hs ih =>
    obtain ⟨g, hg⟩ := exists_grows_forceClose (lined.fits hd (List.mem_cons_self ..))
    obtain ⟨es, hrest⟩ := ih lined.forceClose
    refine ⟨es ++ g.events, hrest.trans ?_⟩
    rw [hg.events, List.append_assoc]

theorem exists_events_pollTeardown (orderly : ∀ k, (w.shelf k).Orderly k)
    (found : w.teardowns[i]? = some ⟨.all, .idle⟩) (wish : List Key) :
    ∃ es, (w.pollTeardown i wish).1.events = es ++ w.events := by
  obtain ⟨es, hforced⟩ := exists_events_forceCloseEach (lined_unlinkAll orderly wish
    (.tearingDown (w.unlinkAll wish).2.length))
  obtain ⟨hunlinked, -⟩ := foldl_unlink w (w.servedInOrder wish)
  obtain ⟨journal, e⟩ := concludeTeardown_eq (w.beginTeardown .all wish).1 i .all
    (w.beginTeardown .all wish).2
  rw [pollTeardown_of_idle found, e]
  exact ⟨es, hforced.trans (congrArg (es ++ ·) hunlinked)⟩

/-- The hubs have come to the same by a poll of a teardown, but for order and the names of new links. -/
structure Reordered (i : Nat) (w w' : Hub) : Prop extends Shuffled w w' where
  clones : w'.clones = w.clones
  others : ∀ j, j ≠ i → w'.teardowns[j]? = w.teardowns[j]?
  teardown : ∃ state state', w.teardowns[i]? = some ⟨.all, state⟩ ∧
    w'.teardowns[i]? = some ⟨.all, state'⟩ ∧ state.Alike state'

theorem any_set_congr {α : Type} {p : α → Bool} {t t' : α} (h : p t' = p t) (ts : List α) (i : Nat) :
    (ts.set i t').any p = (ts.set i t).any p := by
  have hmap : ∀ t, (ts.set i t).any p = ((ts.map p).set i (p t)).any id := by
    intro t
    rw [← List.map_set, List.any_map]
    rfl
  rw [hmap, hmap, h]

theorem alike_stateAfter (h : parts'.Perm parts) :
    (stateAfter parts).Alike (stateAfter parts') := by
  unfold stateAfter
  rw [h.any_eq]
  split
  · exact .running h
  · exact .finished

/-- The poll of a teardown ends alike, whatever the order of its parts. -/
theorem Shuffled.concludeTeardown (h : Shuffled w w') (parted : parts'.Perm parts)
    (keepers : w'.keepers = w.keepers) (hi : i < w.teardowns.length) :
    Reordered i (w.concludeTeardown i .all parts).1 (w'.concludeTeardown i .all parts').1 := by
  obtain ⟨hclones, hteardowns⟩ := Prod.mk.inj keepers
  obtain ⟨journal, e⟩ := concludeTeardown_eq w i .all parts
  obtain ⟨journal', e'⟩ := concludeTeardown_eq w' i .all parts'
  have halike := alike_stateAfter parted
  have hheld : (w'.teardowns.set i ⟨.all, stateAfter parts'⟩).any Teardown.holds =
      (w.teardowns.set i ⟨.all, stateAfter parts⟩).any Teardown.holds := by
    rw [hteardowns]
    exact any_set_congr (halike.holds _) _ _
  rw [e, e']
  refine ⟨⟨⟨h.shelf, h.table, h.provider, h.node, ?_, h.loose, h.counters, h.events, h.namer,
    h.exact⟩, h.jobs, h.ready, h.dispatch⟩, hclones, fun j hj => ?_, _, _,
    List.getElem?_set_self hi, List.getElem?_set_self (hteardowns ▸ hi), halike⟩
  · change (decide (0 < w'.clones) || _) = (decide (0 < w.clones) || _)
    rw [hheld, hclones]
  · change (w'.teardowns.set i _)[j]? = (w.teardowns.set i _)[j]?
    rw [hteardowns, List.getElem?_set_ne hj.symm, List.getElem?_set_ne hj.symm]

/-- The answer of a teardown is the same, whatever the order of its parts. -/
theorem sameEnd_concludeTeardown (w w' : Hub) (i : Nat) (parted : parts'.Perm parts) :
    SameEnd (w.concludeTeardown i .all parts).2 (w'.concludeTeardown i .all parts').2 := by
  have hfailures := parted.filterMap Part.failure?
  unfold Hub.concludeTeardown
  rw [parted.any_eq]
  split
  · exact .pending
  · unfold teardownResult
    cases hf : parts.filterMap Part.failure? with
    | nil =>
      rw [hf] at hfailures
      rw [hfailures.eq_nil]
      exact .ok
    | cons failure failures =>
      rw [hf] at hfailures
      cases hf' : parts'.filterMap Part.failure? with
      | nil =>
        rw [hf'] at hfailures
        exact absurd hfailures.symm.eq_nil (List.cons_ne_nil _ _)
      | cons failure' failures' =>
        rw [hf'] at hfailures
        exact .failed hfailures

/-- The order in which the first poll of a teardown takes the handles in service makes no difference. -/
structure InAnyOrder (i : Nat) (w : Hub) : Prop where
  /-- A wish may be any order of the keys that are served. -/
  order : ∀ order, order.Perm w.servedKeys → w.servedInOrder order = order
  hubs : ∀ wish wish', Reordered i (w.move (.pollTeardown i wish)) (w.move (.pollTeardown i wish'))
  /-- Others see the same things happen. -/
  events : ∀ wish wish', ∃ es es', (w.move (.pollTeardown i wish)).events = es ++ w.events ∧
    (w.move (.pollTeardown i wish')).events = es' ++ w.events ∧
    (es'.map Event.nameless).Perm (es.map Event.nameless)
  answers : ∀ wish wish', ∃ answer answer', w.reply (.pollTeardown i wish) = .torn answer ∧
    w.reply (.pollTeardown i wish') = .torn answer' ∧ SameEnd answer answer'

/-- A teardown that begins may take the handles in service in any order. Any two orders come to hubs that
agree but for the names of new links and the order of jobs and of events, and the teardown gives the same
answer, the order of its failures aside. -/
theorem reordered_play {settings : Settings} {seed : UInt64} {ambient : Option Dispatch} {w₀ : Hub}
    (built : settings.build seed ambient = .ok w₀) (ms : List Move) {i : Nat}
    (idle : (w₀.play ms).begins i = true) : (w₀.play ms).InAnyOrder i := by
  obtain ⟨-, sound, found⟩ := sound_of_begins (sound_build built).play idle
  generalize w₀.play ms = w at *
  have orderly := sound.orderly
  have hkeepers := fun wish => keepers_beginTeardown w .all wish
  have hhubs : ∀ wish wish',
      Reordered i (w.move (.pollTeardown i wish)) (w.move (.pollTeardown i wish')) := by
    intro wish wish'
    obtain ⟨hbegun, hparts⟩ := shuffled_beginTeardown orderly wish wish'
    change Reordered i (w.pollTeardown i wish).1 (w.pollTeardown i wish').1
    rw [pollTeardown_of_idle found, pollTeardown_of_idle found]
    exact hbegun.concludeTeardown hparts ((hkeepers wish').trans (hkeepers wish).symm)
      (made_beginTeardown found .all wish)
  refine ⟨fun order => servedInOrder_of_perm, hhubs, fun wish wish' => ?_, fun wish wish' => ?_⟩
  · obtain ⟨es, he⟩ := exists_events_pollTeardown orderly found wish
    obtain ⟨es', he'⟩ := exists_events_pollTeardown orderly found wish'
    have hperm := (hhubs wish wish').events
    change ((w.pollTeardown i wish').1.events.map _).Perm ((w.pollTeardown i wish).1.events.map _)
      at hperm
    rw [he, he', List.map_append, List.map_append] at hperm
    exact ⟨es, es', he, he', (List.perm_append_right_iff _).mp hperm⟩
  · refine ⟨_, _, rfl, rfl, ?_⟩
    rw [pollTeardown_of_idle found, pollTeardown_of_idle found]
    exact sameEnd_concludeTeardown _ _ i (shuffled_beginTeardown orderly wish wish').2

/-- Links are made at once, and cannot be closed. -/
def stubborn : Settings :=
  { provider := some fun _ _ => { closing := .opened (some "busy") }, dispatch := some .inline }

/-- The hub with these settings. -/
def stubbornHub : Hub :=
  { provider := fun _ _ => { closing := .opened (some "busy") }
    dispatch := .inline
    node := stubborn.managementNode
    namer := .ofSeed 0 stubborn.linkNameSuffix }

theorem build_stubborn : stubborn.build 0 none = .ok stubbornHub := rfl

/-- Either key may come first, and neither link can be closed. -/
theorem reordered_play_serveTwo : (stubbornHub.play serveTwo).begins 0 = true ∧
    (stubbornHub.play serveTwo).servedInOrder [⟨"b", none⟩, sampleKey] =
      [⟨"b", none⟩, sampleKey] ∧
    Reordered 0 ((stubbornHub.play serveTwo).move (.pollTeardown 0 [sampleKey]))
      ((stubbornHub.play serveTwo).move (.pollTeardown 0 [⟨"b", none⟩, sampleKey])) ∧
    ∃ answer answer',
      (stubbornHub.play serveTwo).reply (.pollTeardown 0 [sampleKey]) = .torn answer ∧
      (stubbornHub.play serveTwo).reply (.pollTeardown 0 [⟨"b", none⟩, sampleKey]) =
        .torn answer' ∧ SameEnd answer answer' := by
  have hbegins : (stubbornHub.play serveTwo).begins 0 = true := by decide
  obtain ⟨horder, hhubs, -, hanswers⟩ := reordered_play build_stubborn serveTwo hbegins
  exact ⟨hbegins, horder _ (by decide), hhubs _ _, hanswers _ _⟩

end Hub

end SharedLinks
