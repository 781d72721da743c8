import SharedLinks.Proofs.Alongside
import SharedLinks.Proofs.Runs

/-!
# What a release does

A release names a key and no handle. `Hub.Releases` lists what it may come to: the oldest orphan gives
a reference up, or the handle in service does if there are no orphans, or the release is refused, or
there is nothing to release. Each case says in full what the hub is like afterwards; `Hub.Confined` says
that whatever it does not name is as before.

`releases_play` shows that in every state of a run a release is one of these, and that it is refused
only while the link of the key is being created and the key has no orphans.
-/

namespace SharedLinks

namespace Shelf

/-- Replaces the orphans; no list is kept for none. -/
def withOrphans (s : Shelf) (hs : List HandleId) : Shelf :=
  { s with orphaned := if hs = [] then none else some hs }

/-- The oldest orphan is taken out of the list, and the others stay in their order. -/
theorem dropOrphan_oldest {s : Shelf} {h : HandleId} {rest : List HandleId} (nodup : s.orphans.Nodup)
    (oldest : s.orphans = h :: rest) : s.dropOrphan h = s.withOrphans rest := by
  have hkept : s.orphaned = some (h :: rest) := by
    unfold orphans at oldest
    cases ho : s.orphaned with
    | none => simp [ho] at oldest
    | some hs => simpa [ho] using oldest
  have hfilter : (h :: rest).filter (· ≠ h) = rest := by
    rw [oldest, List.nodup_cons] at nodup
    rw [List.filter_cons_of_neg (by simp), List.filter_eq_self]
    intro h' hm
    rw [decide_eq_true_iff]
    rintro rfl
    exact nodup.1 hm
  unfold dropOrphan withOrphans
  rw [hkept]
  dsimp only
  rw [hfilter]
  cases rest with
  | nil => rfl
  | cons h' rest => rfl

end Shelf

namespace Hub

variable {w w' : Hub} {k : Key} {i : Nat} {rest : List HandleId} {link : Link} {n : Nat}

/-! ## What is left alone -/

/-- The hubs differ on the shelf of one key, in the counters and in the journal, at most. -/
structure Confined (k : Key) (w w' : Hub) : Prop where
  shelf : ∀ j, j ≠ k → w'.shelf j = w.shelf j
  fixtures : w'.fixtures = w.fixtures
  namer : w'.namer = w.namer
  jobs : w'.jobs = w.jobs
  ready : w'.ready = w.ready
  events : w'.events = w.events

namespace Confined

theorem refl (k : Key) (w : Hub) : Confined k w w := ⟨fun _ _ => rfl, rfl, rfl, rfl, rfl, rfl⟩

theorem onShelf (h : Confined k w w') (f : Shelf → Shelf) : Confined k w (w'.onShelf k f) :=
  ⟨fun j hj => (shelf_onShelf_ne w' hj f).trans (h.shelf j hj), h.fixtures, h.namer, h.jobs, h.ready,
    h.events⟩

theorem note (h : Confined k w w') (m : Notice) : Confined k w (w'.note m) :=
  ⟨h.shelf, h.fixtures, h.namer, h.jobs, h.ready, h.events⟩

theorem count (h : Confined k w w') (c : Counter) : Confined k w (w'.count c) :=
  ⟨h.shelf, h.fixtures, h.namer, h.jobs, h.ready, h.events⟩

theorem forget (h : Confined k w w') (hd : HandleId) : Confined k w (w'.forget k hd) := by
  unfold Hub.forget
  split
  · split
    · exact (h.onShelf _).note _
    · exact h.onShelf _
  · exact h

end Confined

/-! ## What a release may come to -/

/-- The job that closes a link which nobody holds any more. -/
def closingJob (h : HandleId) (link : Link) : Job := ⟨⟨link.id, .close⟩, h, link, .close⟩

/-- What a release of a key comes to: the hub afterwards and what the caller is told. -/
inductive Releases (k : Key) (w : Hub) : Hub → Except LinkError Unit → Prop where
  /-- The oldest orphan has more references than one, and counts one less. -/
  | orphan {i n : Nat} {rest : List HandleId} {w' : Hub}
      (oldest : (w.shelf k).orphans = ⟨k, i⟩ :: rest) (held : w.phase ⟨k, i⟩ = .orphaned (n + 2))
      (shelf : w'.shelf k = (w.shelf k).setPhase i (.orphaned (n + 1)))
      (counters : w'.counters = w.counters.add .releases 1) (same : Confined k w w') :
      Releases k w w' (.ok ())
  /-- The oldest orphan gives its last reference up and is an orphan no more. Its link is not asked to
  close. -/
  | lastOrphan {i : Nat} {rest : List HandleId} {w' : Hub}
      (oldest : (w.shelf k).orphans = ⟨k, i⟩ :: rest) (held : w.phase ⟨k, i⟩ = .orphaned 1)
      (shelf : w'.shelf k = ((w.shelf k).setPhase i .closed).withOrphans rest)
      (counters : w'.counters = w.counters.add .releases 1) (same : Confined k w w') :
      Releases k w w' (.ok ())
  /-- The handle in service has more references than one, and counts one less. -/
  | live {i n : Nat} {link : Link} {w' : Hub} (clear : (w.shelf k).orphans = [])
      (serving : w.serving k = some ⟨k, i⟩) (held : w.phase ⟨k, i⟩ = .live link (n + 2))
      (shelf : w'.shelf k = (w.shelf k).setPhase i (.live link (n + 1)))
      (counters : w'.counters = w.counters.add .releases 1) (same : Confined k w w') :
      Releases k w w' (.ok ())
  /-- The handle in service gives its last reference up. It ends and serves the key no more, and one job
  is taken up, which closes the link. -/
  | lastLive {i : Nat} {link : Link} {u : Hub} (clear : (w.shelf k).orphans = [])
      (serving : w.serving k = some ⟨k, i⟩) (held : w.phase ⟨k, i⟩ = .live link 1)
      (shelf : u.shelf k = ((w.shelf k).setPhase i .closed).serve none)
      (counters : u.counters = (w.counters.add .releases 1).add .closes 1) (same : Confined k w u)
      (kept : ∀ j, (u.spawn (closingJob ⟨k, i⟩ link)).shelf j = u.shelf j) :
      Releases k w (u.spawn (closingJob ⟨k, i⟩ link)) (.ok ())
  /-- The link is still being created. Nothing happens, but the release is counted as unbalanced. -/
  | refused {i : Nat} {queue : List TicketId} (clear : (w.shelf k).orphans = [])
      (serving : w.serving k = some ⟨k, i⟩) (waiting : w.phase ⟨k, i⟩ = .pending queue) :
      Releases k w ((w.count .unbalancedReleases).note (.unbalanced k))
        (.error (.unbalancedRelease k))
  /-- The key has no handle. Nothing happens. -/
  | ignored (clear : (w.shelf k).orphans = []) (free : w.serving k = none) :
      Releases k w (w.note (.releaseIgnored k)) (.ok ())

/-- A release is refused exactly if it finds a handle that still waits for its link and no orphans. -/
theorem Releases.error_iff {result : Except LinkError Unit} (h : Releases k w w' result) :
    (∃ e, result = .error e) ↔ (w.shelf k).orphans = [] ∧
      ∃ hd queue, w.serving k = some hd ∧ w.phase hd = .pending queue := by
  cases h with
  | orphan oldest | lastOrphan oldest => simp [oldest]
  | live clear serving held | lastLive clear serving held => simp [serving, held]
  | refused clear serving waiting =>
    exact iff_of_true ⟨_, rfl⟩ ⟨clear, _, _, serving, waiting⟩
  | ignored clear free => simp [free]

/-! ## The handle that the release reaches -/

/-- A job that closes a link leaves all shelves alone, whatever becomes of it. -/
theorem shelf_spawn_closingJob (w : Hub) (h : HandleId) (link : Link) (j : Key) :
    (w.spawn (closingJob h link)).shelf j = w.shelf j := by
  have hwork : (w.work (closingJob h link)).1.shelf j = w.shelf j := shelf_workClose w _ j
  unfold spawn
  split
  · rfl
  · split
    · rename_i heq
      rwa [heq] at hwork
    · rename_i heq
      rwa [heq] at hwork
  · rfl

/-- A release that reaches the oldest orphan takes one of its references. -/
theorem releases_orphan (held : w.isHeld = true) (placed : (w.shelf k).Placed k)
    (oldest : (w.shelf k).orphans = ⟨k, i⟩ :: rest) :
    Releases k w (w.giveBack ⟨k, i⟩ false).1 (w.giveBack ⟨k, i⟩ false).2 := by
  obtain ⟨-, refs, hrefs⟩ := (placed.mem_orphans_iff ⟨k, i⟩).mp (by simp [oldest])
  have hcounted := placed.counted i
  rw [show (w.shelf k).phase i = .orphaned refs from hrefs] at hcounted
  have hphase : w.phase ⟨k, i⟩ = .orphaned refs := hrefs
  have hset : ∀ p, (w.setPhase ⟨k, i⟩ p).shelf k = (w.shelf k).setPhase i p := fun p =>
    shelf_onShelf_self w k (·.setPhase i p)
  unfold giveBack
  rw [hphase]
  obtain _ | _ | n := refs
  · exact absurd hcounted (Nat.lt_irrefl 0)
  · refine .lastOrphan oldest hphase ?_ ?_ ((((Confined.refl k w).onShelf _).forget _).count _ |>.note _)
    · have hserving : ((w.shelf k).setPhase i .closed).serving ≠ some ⟨k, i⟩ := by
        intro hs
        have hopen := placed.isOpen_of_serving hs
        rw [show (w.shelf k).phase i = .orphaned 1 from hrefs] at hopen
        contradiction
      have hheld : (w.setPhase ⟨k, i⟩ .closed).isHeld = true := held
      change ((w.setPhase ⟨k, i⟩ .closed).forget k ⟨k, i⟩).shelf k = _
      rw [shelf_forget hheld, hset, Shelf.forget_of_not_serving hserving]
      exact Shelf.dropOrphan_oldest (s := (w.shelf k).setPhase i .closed) placed.nodup oldest
    · exact congrArg (Counters.add · .releases 1) (forget_rest (w.setPhase ⟨k, i⟩ .closed) k ⟨k, i⟩).2.1
  · exact .orphan oldest hphase (hset _) rfl (((Confined.refl k w).onShelf _).count _)

/-- A release that reaches the handle in service takes one of its references, or is refused. -/
theorem releases_serving (held : w.isHeld = true) (placed : (w.shelf k).Placed k)
    (clear : (w.shelf k).orphans = []) (serving : w.serving k = some ⟨k, i⟩) :
    Releases k w (w.giveBack ⟨k, i⟩ true).1 (w.giveBack ⟨k, i⟩ true).2 := by
  have hopen : (w.phase ⟨k, i⟩).isOpen = true := placed.isOpen_of_serving serving
  have hcounted : (w.phase ⟨k, i⟩).IsCounted := placed.counted i
  have hset : ∀ p, (w.setPhase ⟨k, i⟩ p).shelf k = (w.shelf k).setPhase i p := fun p =>
    shelf_onShelf_self w k (·.setPhase i p)
  unfold giveBack
  cases hp : w.phase ⟨k, i⟩ with
  | pending queue => exact .refused clear serving hp
  | orphaned refs => simp [hp, Phase.isOpen] at hopen
  | closed => simp [hp, Phase.isOpen] at hopen
  | live link refs =>
    rw [hp] at hcounted
    obtain _ | _ | n := refs
    · exact absurd hcounted (Nat.lt_irrefl 0)
    · refine .lastLive clear serving hp ?_ ?_ ((((Confined.refl k w).onShelf _).forget _).count _ |>.count _)
        fun j => shelf_spawn_closingJob _ _ _ j
      · have hheld : (w.setPhase ⟨k, i⟩ .closed).isHeld = true := held
        have hserving : ((w.shelf k).setPhase i .closed).serving = some ⟨k, i⟩ := serving
        change ((w.setPhase ⟨k, i⟩ .closed).forget k ⟨k, i⟩).shelf k = _
        rw [shelf_forget hheld, hset, Shelf.forget_of_serving hserving]
      · exact congrArg (fun m => (Counters.add m .releases 1).add .closes 1)
          (forget_rest (w.setPhase ⟨k, i⟩ .closed) k ⟨k, i⟩).2.1
    · exact .live clear serving hp (hset _) rfl (((Confined.refl k w).onShelf _).count _)

/-- Where every handle of the key is where its phase says, a release is one of `Releases`. The oldest
orphan never fails to take the reference back, and the handle in service is never closed. -/
theorem releases_release (held : w.isHeld = true) (placed : (w.shelf k).Placed k) :
    Releases k w (w.release k).1 (w.release k).2 := by
  unfold release
  cases horphans : (w.shelf k).orphans with
  | cons hd rest =>
    obtain ⟨rfl, -⟩ := (placed.mem_orphans_iff hd).mp (by simp [horphans])
    have hreleases := releases_orphan held placed horphans
    have hok : (w.giveBack hd false).2 = .ok () := by
      by_contra hne
      have herror : ∃ e, (w.giveBack hd false).2 = .error e := by
        cases hr : (w.giveBack hd false).2 with
        | ok u => exact absurd hr hne
        | error e => exact ⟨e, rfl⟩
      have hclear := (hreleases.error_iff.mp herror).1
      rw [horphans] at hclear
      contradiction
    rw [giveBackFirst_cons rest hok]
    exact hok ▸ hreleases
  | nil =>
    rw [giveBackFirst]
    cases hserving : w.serving k with
    | none => exact .ignored horphans hserving
    | some hd =>
      obtain ⟨rfl, hopen⟩ := (placed.serving_iff hd).mp hserving
      have hclosed : (w.phase hd).isClosed = false := by
        rw [← phase_eq] at hopen
        cases hp : w.phase hd with
        | closed => simp [hp, Phase.isOpen] at hopen
        | pending | live | orphaned => rfl
      simp only [hclosed, Bool.false_eq_true, ↓reduceIte]
      exact releases_serving held placed horphans hserving

/-! ## In every state of a run -/

/-- In every state of a run a release does what `Releases` says, and it is refused exactly if the handle
in service still waits for its link and the key has no orphans. -/
theorem releases_play {settings : Settings} {seed : UInt64} {ambient : Option Dispatch} {w₀ : Hub}
    (built : settings.build seed ambient = .ok w₀) {ms : List Move}
    (held : (w₀.play ms).isHeld = true) (k : Key) :
    Releases k (w₀.play ms) ((w₀.play ms).release k).1 ((w₀.play ms).release k).2 ∧
    ((∃ e, ((w₀.play ms).release k).2 = .error e) ↔ ((w₀.play ms).shelf k).orphans = [] ∧
      ∃ hd queue, (w₀.play ms).serving k = some hd ∧ (w₀.play ms).phase hd = .pending queue) := by
  have hsound := (sound_build built).play held
  have hreleases := releases_release held (hsound.orderly k).placed
  exact ⟨hreleases, hreleases.error_iff⟩

/-- A caller gets a link and a teardown closes it, while another one asks again and waits. -/
def askWhileOwing : List Move :=
  [.acquire sampleKey, .runJob ⟨.made sampleKey 0, .create⟩, .tearDown, .pollTeardown 0 [],
    .acquire sampleKey]

/-- The first release goes to the orphan, although the handle in service still waits for its link, and
the second one is refused. -/
theorem releases_play_askWhileOwing : (sample.play askWhileOwing).isHeld = true ∧
    ((sample.play askWhileOwing).shelf sampleKey).orphans = [⟨sampleKey, 0⟩] ∧
    (sample.play askWhileOwing).serving sampleKey = some ⟨sampleKey, 1⟩ ∧
    Releases sampleKey (sample.play askWhileOwing) ((sample.play askWhileOwing).release sampleKey).1
      (.ok ()) ∧
    ∃ e, ((sample.play (askWhileOwing ++ [.release sampleKey])).release sampleKey).2 = .error e := by
  have hheld : (sample.play askWhileOwing).isHeld = true := by decide
  have hheld' : (sample.play (askWhileOwing ++ [.release sampleKey])).isHeld = true := by decide
  obtain ⟨hreleases, -⟩ := releases_play build_sample hheld sampleKey
  obtain ⟨-, hrefused⟩ := releases_play build_sample hheld' sampleKey
  refine ⟨hheld, by decide, by decide, hreleases, hrefused.mpr ⟨by decide, ?_⟩⟩
  exact ⟨⟨sampleKey, 1⟩, [.forKey sampleKey 1], by decide, by decide⟩

end Hub

end SharedLinks
