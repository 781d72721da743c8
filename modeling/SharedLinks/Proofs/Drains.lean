import SharedLinks.Proofs.Replies

/-!
# Teardowns that go alongside

The first poll of a teardown takes all handles out of service and then force closes one after the
other. Hubs that agree on all keys take the same handles out (`Alongside.unlinkAll`), and what the force
closing of each comes to depends on its key alone, since a handle that is out of service refers to
nothing else (`Withdrawn.fits`). Later polls look at links only (`Alongside.awaitParts`).
-/

namespace SharedLinks

namespace Hub

variable {a : Accord} {v v' w w' w₀ : Hub} {k : Key} {hd : HandleId}

/-! ## Out of service -/

theorem Alongside.servedKeys (h : Alongside a v v' w w') (places : a.places) (all : ∀ k, a.keys k)
    (table : v'.shelves.keys = v.shelves.keys) : w'.servedKeys = w.servedKeys := by
  unfold Hub.servedKeys
  rw [h.table places table]
  exact List.filter_congr fun k _ => by rw [h.serving places (all k)]

theorem Alongside.unlink (h : Alongside a v v' w w') (places : a.places) (hk : a.keys k) :
    Alongside a v v' (w.unlink k) (w'.unlink k) := by
  unfold Hub.unlink
  rw [h.serving places hk]
  split
  · exact h
  · exact h.onShelf hk fun hs => by
      rw [hs.eq places]
      exact .refl _ _

/-- Hubs that agree on all keys take the same handles out of service, in the same order. -/
theorem Alongside.unlinkAll (h : Alongside a v v' w w') (places : a.places) (all : ∀ k, a.keys k)
    (table : v'.shelves.keys = v.shelves.keys) (wish : List Key) :
    Alongside a v v' (w.unlinkAll wish).1 (w'.unlinkAll wish).1 ∧
      (w'.unlinkAll wish).2 = (w.unlinkAll wish).2 := by
  have hkeys : w'.servedInOrder wish = w.servedInOrder wish := by
    rw [servedInOrder, h.servedKeys places all table, servedInOrder]
  have hserving : w'.serving = w.serving := funext fun k => h.serving places (all k)
  unfold Hub.unlinkAll
  rw [hkeys, hserving]
  refine ⟨?_, rfl⟩
  clear hkeys hserving
  generalize w.servedInOrder wish = ks
  induction ks generalizing w w' with
  | nil => exact h
  | cons k ks ih => exact ih (h.unlink places (all k))

/-! ## Force closing -/

/-- What a handle refers to once it is out of service. -/
structure Fits (w : Hub) (hd : HandleId) : Prop where
  link : ∀ link refs, w.phase hd = .live link refs → link.id = .made hd.key hd.index
  queue : ∀ queue, w.phase hd = .pending queue → ∀ id ∈ queue, ∃ n, id = .forKey hd.key n
  free : w.serving hd.key = none

theorem Withdrawn.fits {hd : HandleId} {hs : List HandleId} (out : Withdrawn w₀ w (hd :: hs))
    (orderly : ∀ k, (w₀.shelf k).Orderly k) : w.Fits hd := by
  have hshelf := out.shelf hd (List.mem_cons_self ..)
  have hphase : w.phase hd = (w₀.shelf hd.key).phase hd.index := by
    rw [phase_eq, hshelf, Shelf.phase_unlink]
  refine ⟨fun link refs hp => ?_, fun queue hp id hm => ?_, ?_⟩
  · rw [hphase] at hp
    exact (orderly hd.key).recorded.id_of_live hp
  · rw [hphase] at hp
    obtain ⟨ns, rfl, -⟩ := (orderly hd.key).queued.queue hd.index queue hp
    obtain ⟨n, -, rfl⟩ := List.mem_map.mp hm
    exact ⟨n, rfl⟩
  · rw [serving_eq, hshelf]
    rfl

/-- Some handles, each of another key, are out of service and will be force closed. -/
structure Lined (w : Hub) (hs : List HandleId) : Prop where
  nodup : (hs.map (·.key)).Nodup
  fits : ∀ hd ∈ hs, w.Fits hd
  known : ∀ hd ∈ hs, hd.key ∈ w.shelves.keys

/-- A handle that is out of service is force closed alike in hubs that agree on its key. -/
theorem Tail.forceClose_fits {R : Hub → Hub → Prop} (t : Tail a v v' R) (h : Alongside a v v' w w')
    (places : a.places) (asks : a.asks) {hd : HandleId} (hk : a.keys hd.key) (fits : w.Fits hd) :
    R (w.forceClose hd).1 (w'.forceClose hd).1 ∧ (w'.forceClose hd).2 = (w.forceClose hd).2 := by
  refine t.forceClose h places asks hk (fun link refs hp => ?_) (fun queue hp id hm => ?_) fits.free
  · rw [fits.link link refs hp]
    exact hk
  · obtain ⟨n, rfl⟩ := fits.queue queue hp id hm
    exact hk

/-- Two hubs go alongside under one key, whose handle is force closed. -/
def closeAlone (k : Key) : Accord :=
  { keys := (· = k), places := True, asks := True, takes := True, names := True }

/-- A handle is force closed under its key alone. -/
theorem exists_grows_forceClose {hd : HandleId} (fits : w.Fits hd) :
    ∃ g, Grows (closeAlone hd.key) g w (w.forceClose hd).1 := by
  have hstart : Alongside (closeAlone hd.key) w w w w :=
    .start (fun _ _ => .refl _ _) (fun _ _ => rfl) rfl (fun _ => rfl) fun _ => rfl
  obtain ⟨g, -, hg, -, -⟩ := ((Alongside.tail (a := closeAlone hd.key) trivial rfl).forceClose_fits
    hstart trivial trivial rfl fits).1.growth
  exact ⟨g, hg⟩

theorem Fits.of_shelf (h : w.Fits hd) (hs : w'.shelf hd.key = w.shelf hd.key) : w'.Fits hd := by
  have hphase : w'.phase hd = w.phase hd := by rw [phase_eq, hs, phase_eq]
  refine ⟨fun link refs hp => h.link link refs (hphase ▸ hp), fun queue hp =>
    h.queue queue (hphase ▸ hp), ?_⟩
  rw [serving_eq, hs]
  exact h.free

/-- The others stay as they are when the first one is force closed. -/
theorem Lined.forceClose {hs : List HandleId} (h : Lined w (hd :: hs)) :
    Lined (w.forceClose hd).1 hs := by
  obtain ⟨g, hg⟩ := exists_grows_forceClose (h.fits hd (List.mem_cons_self ..))
  have hkeys : (w.forceClose hd).1.shelves.keys = w.shelves.keys := hg.table (by
    rintro k rfl
    exact h.known hd (List.mem_cons_self ..))
  obtain ⟨hnot, hnodup⟩ := List.nodup_cons.mp (List.map_cons ▸ h.nodup)
  refine ⟨hnodup, fun hd' hm => ?_, fun hd' hm => hkeys ▸ h.known hd' (List.mem_cons_of_mem _ hm)⟩
  refine (h.fits hd' (List.mem_cons_of_mem _ hm)).of_shelf (hg.shelf _ fun e => hnot ?_)
  exact List.mem_map.mpr ⟨hd', hm, e⟩

/-- The handles that a teardown takes out of service are about to be force closed. -/
theorem lined_unlinkAll (orderly : ∀ k, (w.shelf k).Orderly k) (wish : List Key) (n : Notice) :
    Lined ((w.unlinkAll wish).1.note n) (w.unlinkAll wish).2 := by
  obtain ⟨hout, -⟩ := withdrawn_unlinkAll orderly wish n
  refine ⟨hout.nodup, fun hd hm => ?_, fun hd hm => ?_⟩
  · have hone : Withdrawn w ((w.unlinkAll wish).1.note n) [hd] := by
      refine ⟨List.nodup_singleton _, fun h hm' => ?_, hout.clones, hout.teardowns, fun h hm' => ?_⟩
      · exact hout.serving h (List.mem_singleton.mp hm' ▸ hm)
      · exact hout.shelf h (List.mem_singleton.mp hm' ▸ hm)
    exact hone.fits orderly
  · -- a shelf with an orphan was written
    by_contra hnot
    have hempty := hout.shelf hd hm
    rw [shelf_of_not_mem hnot] at hempty
    have horphans := congrArg Shelf.orphaned hempty
    contradiction

/-- Handles that are out of service are force closed alike, in hubs of one dispatch. -/
theorem Alongside.forceCloseEach (h : Alongside a v v' w w') (dispatch : v'.dispatch = v.dispatch)
    (places : a.places) (asks : a.asks) (takes : a.takes) {hs : List HandleId}
    (hks : ∀ hd ∈ hs, a.keys hd.key) (held : w₀.isHeld = true)
    (orderly : ∀ k, (w₀.shelf k).Orderly k) (out : Withdrawn w₀ w hs) :
    Alongside a v v' (w.forceCloseEach hs).1 (w'.forceCloseEach hs).1 ∧
      (w'.forceCloseEach hs).2 = (w.forceCloseEach hs).2 := by
  induction hs generalizing w w' with
  | nil => exact ⟨h, rfl⟩
  | cons hd hs ih =>
    obtain ⟨hone, hpart⟩ := (Alongside.tail takes dispatch).forceClose_fits h places asks
      (hks hd (List.mem_cons_self ..)) (out.fits orderly)
    obtain ⟨hrest, hparts⟩ := ih hone (fun hd' hm => hks hd' (List.mem_cons_of_mem _ hm))
      (out.forceClose held orderly).2.2.2
    refine ⟨hrest, ?_⟩
    simp only [Hub.forceCloseEach, hpart, hparts]

/-! ## Later polls -/

/-- The links that a teardown waits for are looked at alike. -/
theorem Alongside.awaitParts (h : Alongside a v v' w w') {parts : List Part}
    (hlinks : ∀ hd link, .closing hd link ∈ parts → link.id.Within a.keys) :
    Alongside a v v' (w.awaitParts parts).1 (w'.awaitParts parts).1 ∧
      (w'.awaitParts parts).2 = (w.awaitParts parts).2 := by
  induction parts generalizing w w' with
  | nil => exact ⟨h, rfl⟩
  | cons part parts ih =>
    have hrest := fun {u u' : Hub} (hu : Alongside a v v' u u') =>
      ih hu fun hd link hm => hlinks hd link (List.mem_cons_of_mem _ hm)
    cases part with
    | closing hd link =>
      obtain ⟨hone, hpart⟩ := h.awaitPart hd (hlinks hd link (List.mem_cons_self ..))
      obtain ⟨hr, hparts⟩ := hrest hone
      refine ⟨hr, ?_⟩
      simp only [Hub.awaitParts, hpart, hparts]
    | done result =>
      obtain ⟨hr, hparts⟩ := hrest h
      refine ⟨hr, ?_⟩
      simp only [Hub.awaitParts, hparts]

/-! ## The end of a poll -/

/-- Where a teardown is once its parts were looked at. -/
def stateAfter (parts : List Part) : TeardownState :=
  if parts.any Part.isPending then .running parts else .finished

/-- The end of a teardown's poll shows in nothing but the teardown and the journal. -/
theorem concludeTeardown_eq (w : Hub) (i : Nat) (scope : Scope) (parts : List Part) :
    ∃ journal, (w.concludeTeardown i scope parts).1 =
      { w with teardowns := w.teardowns.set i ⟨scope, stateAfter parts⟩, journal := journal } := by
  have hnote : ∀ u : Hub, ∃ journal, u.noteIfAbandoned = { u with journal := journal } := by
    intro u
    unfold noteIfAbandoned
    split
    · exact ⟨u.journal, rfl⟩
    · exact ⟨_, rfl⟩
  have hresult : ∃ journal, (w.teardownResult scope parts).1 = { w with journal := journal } := by
    unfold teardownResult
    split
    · exact ⟨w.journal, rfl⟩
    · exact ⟨w.journal, rfl⟩
    · exact ⟨_, rfl⟩
  unfold concludeTeardown stateAfter
  split
  · exact ⟨w.journal, rfl⟩
  · obtain ⟨journal, e⟩ := hresult
    obtain ⟨journal', e'⟩ := hnote ((w.teardownResult scope parts).1.setTeardown i scope .finished)
    refine ⟨journal', ?_⟩
    dsimp only
    rw [e', e]
    rfl

/-- What a teardown comes to depends on its parts alone. -/
theorem concludeTeardown_reply (w w' : Hub) (i : Nat) (scope : Scope) (parts : List Part) :
    (w'.concludeTeardown i scope parts).2 = (w.concludeTeardown i scope parts).2 := by
  unfold concludeTeardown
  split
  · rfl
  · unfold teardownResult
    cases parts.filterMap Part.failure? with
    | nil => rfl
    | cons failure failures => cases scope <;> rfl

/-- A teardown that begins is still there. -/
theorem made_beginTeardown {i : Nat} {t : Teardown} (found : w.teardowns[i]? = some t) (scope : Scope)
    (wish : List Key) : i < (w.beginTeardown scope wish).1.teardowns.length := by
  rw [(Prod.mk.inj (keepers_beginTeardown w scope wish)).2]
  exact (List.getElem?_eq_some_iff.mp found).1

/-- The first poll of a teardown begins it, and then looks at its parts. -/
theorem pollTeardown_of_idle {i : Nat} {scope : Scope}
    (found : w.teardowns[i]? = some ⟨scope, .idle⟩) (wish : List Key) : w.pollTeardown i wish =
      (w.beginTeardown scope wish).1.concludeTeardown i scope (w.beginTeardown scope wish).2 := by
  unfold pollTeardown
  rw [found]

end Hub

end SharedLinks
