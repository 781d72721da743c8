import SharedLinks.Proofs.Calls

/-!
# The first poll of a teardown

The first poll of a teardown takes all handles out of service and then closes them one after the
other. While it does so the shelves it has not come to are in no order: their handles are orphans that
still count as open. `forceClose_does` therefore compares with the hub before the handle was taken out
of service, and `forceCloseEach_does` carries along which keys are done and which are not.
-/

namespace SharedLinks

namespace Shelf

variable {k : Key} {s : Shelf} {i : Nat} {queue : List TicketId}

/-- Forgetting a pending handle that was just taken out of service leaves the key without one. -/
theorem forget_unlink (h : s.Placed k) (hp : s.phase i = .pending queue) :
    ((s.unlink ⟨k, i⟩).setPhase i .closed).forget ⟨k, i⟩ = (s.setPhase i .closed).serve none := by
  have hnot : (⟨k, i⟩ : HandleId) ∉ s.orphans := by
    rw [h.mem_orphans_iff]
    simp [hp]
  have hserving : ((s.unlink ⟨k, i⟩).setPhase i .closed).serving ≠ some ⟨k, i⟩ := by
    intro e
    contradiction
  rw [forget_of_not_serving hserving]
  have horphans := orphans_dropOrphan ((s.unlink ⟨k, i⟩).setPhase i .closed) ⟨k, i⟩
  have hentry := orphaned_dropOrphan_ne ((s.unlink ⟨k, i⟩).setPhase i .closed) ⟨k, i⟩ (by
    change some (s.orphans ++ [⟨k, i⟩]) ≠ some []
    simp)
  obtain ⟨o, ho⟩ := dropOrphan_eq ((s.unlink ⟨k, i⟩).setPhase i .closed) ⟨k, i⟩
  rw [ho] at horphans hentry ⊢
  -- both lists are empty, or neither is and they have the same members
  have hsame : o.getD [] = s.orphans := by
    refine horphans.trans ?_
    change (s.orphans ++ [(⟨k, i⟩ : HandleId)]).filter (· ≠ (⟨k, i⟩ : HandleId)) = s.orphans
    rw [List.filter_append, List.filter_eq_self.mpr]
    · simp
    · intro hd hm
      rw [decide_eq_true_iff]
      rintro rfl
      exact hnot hm
  have hbefore : s.orphaned ≠ some [] := h.entry
  have : o = s.orphaned := by
    unfold orphans at hsame
    cases o <;> cases hs : s.orphaned <;> simp_all
  rw [this]
  rfl

/-- The queue of a pending handle without the tickets that were dropped. -/
theorem Queued.filter_isDropped (h : s.Queued k) (hp : s.phase i = .pending queue) {w : Hub}
    (hw : (w.shelf k).tickets = s.tickets) :
    queue.filter (fun id => !w.isDropped id) = queue.filter fun id => !s.isDropped id := by
  obtain ⟨ns, rfl, -, -⟩ := h.queue i queue hp
  apply List.filter_congr
  intro id hm
  obtain ⟨n, -, rfl⟩ := List.mem_map.mp hm
  rw [Hub.isDropped, Hub.ticket?_eq, hw, isDropped]

end Shelf

namespace Hub

variable {k : Key} {i : Nat} {w w' : Hub}

theorem silent_awaitPart (w : Hub) (h : HandleId) (link : Link) :
    Silent w (w.awaitPart h link).1 := by
  have hs := silent_awaitClose w h link
  unfold awaitPart
  split <;> simp_all

/-- Closing a handle that was just taken out of service comes, since before that, to one step on the
shelf of its key. -/
theorem forceClose_does (h : Quiet k w w') (held : w.isHeld = true)
    (orderly : (w.shelf k).Orderly k) (hs : (w.shelf k).serving = some ⟨k, i⟩)
    (hshelf : w'.shelf k = (w.shelf k).unlink ⟨k, i⟩) :
    ∃ woken, Does k .torn woken w (w'.forceClose ⟨k, i⟩).1 := by
  have hopen := orderly.placed.isOpen_of_serving hs
  have hphase : w'.phase ⟨k, i⟩ = (w.shelf k).phase i := by
    rw [phase_eq, hshelf]
    rfl
  have hlt : i < (w.shelf k).phases.length :=
    Shelf.lt_of_phase_ne (by intro e; simp [e, Phase.isOpen] at hopen)
  unfold forceClose
  rw [hphase]
  cases hp : (w.shelf k).phase i with
  | orphaned refs => simp [hp, Phase.isOpen] at hopen
  | closed => simp [hp, Phase.isOpen] at hopen
  -- a live handle becomes an orphan, and its link is asked to close although it has references
  | live link refs =>
    let w₁ := ((((w'.note (.orphaning k refs)).setPhase ⟨k, i⟩ (.orphaned refs)).count
      .forceCloses).note (.forceClosing k link.identity))
    have hq : Quiet k w w₁ := (((h.note _).onShelf _).count _).note _
    have hs₁ : w₁.shelf k = ((w.shelf k).unlink ⟨k, i⟩).setPhase i (.orphaned refs) := by
      rw [← hshelf]
      exact shelf_onShelf_self (w'.note (.orphaning k refs)) k _
    have hsilent := silent_awaitPart (w₁.beginClose ⟨k, i⟩ link) ⟨k, i⟩ link
    change ∃ woken, Does k .torn woken w ((w₁.beginClose ⟨k, i⟩ link).awaitPart ⟨k, i⟩ link).1
    have hend : (((w₁.beginClose ⟨k, i⟩ link).awaitPart ⟨k, i⟩ link).1).shelf k =
        ((w.shelf k).unlink ⟨k, i⟩).setPhase i (.orphaned refs) := (hsilent.shelf k).trans hs₁
    have hturn := Shelf.Turn.orphan hs hp
    rw [← hend] at hturn
    have hframe : Frame k w ((w₁.beginClose ⟨k, i⟩ link).awaitPart ⟨k, i⟩ link).1 :=
      ((hq.frame.note _).emit fun _ _ => rfl).trans (hsilent.frame k)
    refine ⟨[], hframe, hturn.step, ?_, fun hb => ?_⟩
    · rw [hsilent.wakes]
      exact (wakes_emit (w₁.note (.closing k link.identity)) k (.close link.id)).trans
        (congrArg (· ++ []) hq.wakes)
    · refine hb.of_frame hframe hturn.later hturn.extends ?_ ?_
      · intro j hj
        rw [hsilent.jobs] at hj
        exact Or.inr ⟨hq.jobs ▸ hj, fun i _ _ => hturn.keeps i⟩
      · intro id hid
        rcases List.mem_cons.mp ((hsilent.closes id).mp hid) with e | hold
        · obtain rfl := Event.close.inj e
          refine Or.inr ⟨i, orderly.recorded.id_of_live hp, ?_⟩
          rw [hend]
          refine ⟨?_, ?_⟩
          · rw [Shelf.length_setPhase]
            exact hlt
          · rw [Shelf.phase_setPhase_self (s := (w.shelf k).unlink ⟨k, i⟩) hlt]
            rfl
        · exact Or.inl (hq.closes id hold)
  | pending queue =>
    have hq : Quiet k w ((w'.setPhase ⟨k, i⟩ .closed).forget k ⟨k, i⟩) := (h.onShelf _).forget _
    have hheld : (w'.setPhase ⟨k, i⟩ .closed).isHeld = true := (h.frame.onShelf _).isHeld.trans held
    have hend : ((w'.setPhase ⟨k, i⟩ .closed).forget k ⟨k, i⟩).shelf k =
        ((w.shelf k).setPhase i .closed).serve none := by
      rw [shelf_forget hheld, ← Shelf.forget_unlink orderly.placed hp, ← hshelf]
      exact congrArg (Shelf.forget · ⟨k, i⟩) (shelf_onShelf_self w' k _)
    -- a pending handle ends; if all who waited for it have gone, none takes its place
    have hdismiss : (∀ id ∈ queue, (w.shelf k).isDropped id = true) →
        ∃ woken, Does k .torn woken w ((w'.setPhase ⟨k, i⟩ .closed).forget k ⟨k, i⟩) := by
      intro hgone
      refine ⟨[], Turned.does ⟨hq, ?_⟩⟩
      rw [hend]
      exact .dismiss hs hp hgone
    simp only
    generalize hw₁ : (w'.setPhase ⟨k, i⟩ .closed).forget k ⟨k, i⟩ = w₁ at *
    cases queue with
    | nil => exact hdismiss (by simp)
    | cons first rest =>
      let w₂ := w₁.note (.requeueing k (first :: rest).length)
      have hwanted := orderly.queued.filter_isDropped (w := w₂) hp (by
        change (w₁.shelf k).tickets = _
        rw [hend]
        rfl)
      change ∃ woken, Does k .torn woken w (w₂.requeue k (first :: rest))
      unfold requeue
      rw [hwanted]
      split
      · rename_i hnone
        obtain ⟨woken, hdoes⟩ := hdismiss (by
          intro id hm
          by_contra hd
          have : id ∈ (first :: rest).filter fun id => !(w.shelf k).isDropped id :=
            List.mem_filter.mpr ⟨hm, by simpa using hd⟩
          rw [hnone] at this
          contradiction)
        exact ⟨woken, hdoes.frame.note _, hdoes.step, hdoes.wakes, fun hb =>
          (hdoes.backed hb).of_shelf (fun _ => rfl) (fun _ h => h) fun _ h => h⟩
      · have hnone : w₂.serving k = none := by
          change (w₁.shelf k).serving = none
          rw [hend]
          rfl
        simp only [hnone]
        have hs₂ : w₂.shelf k = ((w.shelf k).setPhase i .closed).serve none := hend
        refine openHandle_does (hq.note _) held orderly (by rw [hs₂]; rfl)
          (by rw [hs₂]; exact Shelf.length_setPhase _ _ _) ?_
        intro c hc
        rw [hs₂]
        exact .requeue hs hp hc

/-! ## All handles in order -/

/-- The handles of a list served keys in `w₀`, each another one, and since then nothing has happened to
these keys but that their handles were taken out of service. -/
structure Withdrawn (w₀ w : Hub) (hs : List HandleId) : Prop where
  nodup : (hs.map (·.key)).Nodup
  serving : ∀ h ∈ hs, w₀.serving h.key = some h
  clones : w.clones = w₀.clones
  teardowns : w.teardowns = w₀.teardowns
  shelf : ∀ h ∈ hs, w.shelf h.key = (w₀.shelf h.key).unlink h

/-- Closing the first of them is one step on the shelf of its key since `w₀`, and leaves the others
alone. -/
theorem Withdrawn.forceClose {w₀ : Hub} {h : HandleId} {hs : List HandleId}
    (out : Withdrawn w₀ w (h :: hs)) (held : w₀.isHeld = true)
    (orderly : ∀ k, (w₀.shelf k).Orderly k) :
    (∃ woken, Shelf.Step h.key (w₀.shelf h.key) .torn woken ((w.forceClose h).1.shelf h.key) ∧
      (w.forceClose h).1.wakes h.key = w.wakes h.key ++ woken) ∧
    Frame h.key w (w.forceClose h).1 ∧ (w.Backed → (w.forceClose h).1.Backed) ∧
    Withdrawn w₀ (w.forceClose h).1 hs := by
  obtain ⟨k, i⟩ := h
  have hnodup := out.nodup
  rw [List.map_cons, List.nodup_cons] at hnodup
  -- the hub as it would be if this handle were still in service
  let v := w.onShelf k fun _ => w₀.shelf k
  have hv : v.shelf k = w₀.shelf k := shelf_onShelf_self _ _ _
  have hq : Quiet k v w :=
    ⟨⟨fun j hj => (shelf_onShelf_ne w hj _).symm, fun _ _ => rfl, rfl, rfl⟩, rfl, rfl, fun _ => id⟩
  have hheld : v.isHeld = true := by
    change w.isHeld = true
    rwa [isHeld, out.clones, out.teardowns]
  have hhead := out.shelf ⟨k, i⟩ (by simp)
  obtain ⟨woken, hdoes⟩ := forceClose_does hq hheld (by rw [hv]; exact orderly k)
    (by rw [hv]; exact out.serving ⟨k, i⟩ (by simp)) (by rw [hv]; exact hhead)
  have hbacked : w.Backed → v.Backed := by
    intro hb
    have hphases : (v.shelf k).phases = (w.shelf k).phases := by
      rw [hv, hhead]
      rfl
    have hcreations : (v.shelf k).creations = (w.shelf k).creations := by
      rw [hv, hhead]
      rfl
    exact hb.of_frame ((Frame.refl k w).onShelf _) (.of_eq hphases) (.of_eq hcreations)
      (fun j hj => Or.inr ⟨hj, fun i _ _ => .of_eq hcreations i⟩) fun _ => Or.inl
  have hframe : Frame k w (w.forceClose ⟨k, i⟩).1 := ((Frame.refl k w).onShelf _).trans hdoes.frame
  have hne : ∀ h ∈ hs, h.key ≠ k := by
    rintro h hm rfl
    exact hnodup.1 (List.mem_map.mpr ⟨h, hm, rfl⟩)
  have hstep := hdoes.step
  rw [hv] at hstep
  exact ⟨⟨woken, hstep, hdoes.wakes⟩, hframe, fun hb => hdoes.backed (hbacked hb), hnodup.2,
    fun h hm => out.serving h (List.mem_cons_of_mem _ hm), hframe.clones.trans out.clones,
    hframe.teardowns.trans out.teardowns,
    fun h hm => (hframe.shelf _ (hne h hm)).trans (out.shelf h (List.mem_cons_of_mem _ hm))⟩

/-- The handles of a list were closed, each by one step since `w₀`, and the shelves of other keys are
as they were in `w`. -/
structure ForceClosed (w₀ w w' : Hub) (hs : List HandleId) : Prop where
  done : ∀ h ∈ hs, ∃ woken, Shelf.Step h.key (w₀.shelf h.key) .torn woken (w'.shelf h.key) ∧
    w'.wakes h.key = w₀.wakes h.key ++ woken
  shelf : ∀ k, k ∉ hs.map (·.key) → w'.shelf k = w.shelf k
  wakes : ∀ k, k ∉ hs.map (·.key) → w'.wakes k = w.wakes k
  clones : w'.clones = w.clones
  teardowns : w'.teardowns = w.teardowns
  backed : w.Backed → w'.Backed

/-- The handles of a list are closed one after the other, while those that were not come to are out of
service already. -/
theorem forceCloseEach_does {w₀ : Hub} (held : w₀.isHeld = true)
    (orderly : ∀ k, (w₀.shelf k).Orderly k) {hs : List HandleId} (out : Withdrawn w₀ w hs)
    (hwakes : ∀ h ∈ hs, w.wakes h.key = w₀.wakes h.key) :
    ForceClosed w₀ w (w.forceCloseEach hs).1 hs := by
  induction hs generalizing w with
  | nil => exact ⟨by simp, fun _ _ => rfl, fun _ _ => rfl, rfl, rfl, id⟩
  | cons h hs ih =>
    obtain ⟨⟨woken, hstep, hwoken⟩, hframe, hbacked, hout⟩ := out.forceClose held orderly
    have hnodup := out.nodup
    rw [List.map_cons, List.nodup_cons] at hnodup
    have hne : ∀ h' ∈ hs, h'.key ≠ h.key := by
      intro h' hm e
      exact hnodup.1 (List.mem_map.mpr ⟨h', hm, e⟩)
    -- the rest of the list concerns other keys, which this step has left alone
    have hrest := ih hout fun h' hm =>
      (hframe.wakes _ (hne h' hm)).trans (hwakes h' (List.mem_cons_of_mem _ hm))
    refine ⟨?_, ?_, ?_, hrest.clones.trans hframe.clones, hrest.teardowns.trans hframe.teardowns,
      fun hb => hrest.backed (hbacked hb)⟩
    · intro h' hm
      rcases List.mem_cons.mp hm with rfl | hm
      · refine ⟨woken, hrest.shelf h'.key hnodup.1 ▸ hstep, ?_⟩
        refine (hrest.wakes h'.key hnodup.1).trans (hwoken.trans ?_)
        exact congrArg (· ++ woken) (hwakes h' (by simp))
      · exact hrest.done h' hm
    · intro j hj
      rw [List.map_cons, List.mem_cons, not_or] at hj
      exact (hrest.shelf j hj.2).trans (hframe.shelf j hj.1)
    · intro j hj
      rw [List.map_cons, List.mem_cons, not_or] at hj
      exact (hrest.wakes j hj.2).trans (hframe.wakes j hj.1)

/-! ## Out of service -/

/-- The shelf of a key without a handle in service; the one that was there is the newest orphan. -/
def unlinked (s : Shelf) : Shelf :=
  match s.serving with
  | none => s
  | some h => s.unlink h

theorem unlink_eq (w : Hub) (k : Key) : (w.unlink k).shelf k = unlinked (w.shelf k) := by
  unfold unlink unlinked
  rw [serving_eq]
  cases (w.shelf k).serving with
  | none => rfl
  | some h => exact shelf_onShelf_self _ _ _

theorem shelf_unlink_ne (w : Hub) {k j : Key} (h : j ≠ k) : (w.unlink k).shelf j = w.shelf j := by
  unfold unlink
  split
  · rfl
  · exact shelf_onShelf_ne w h _

/-- Each key of the list loses its handle in service. -/
theorem shelf_foldl_unlink (w : Hub) (ks : List Key) (hnodup : ks.Nodup) (k : Key) :
    (ks.foldl unlink w).shelf k = if k ∈ ks then unlinked (w.shelf k) else w.shelf k := by
  induction ks generalizing w with
  | nil => rfl
  | cons j ks ih =>
    rw [List.nodup_cons] at hnodup
    rw [List.foldl_cons, ih _ hnodup.2]
    by_cases hk : k = j
    · subst hk
      rw [if_neg hnodup.1, if_pos (List.mem_cons_self ..), unlink_eq]
    · rw [shelf_unlink_ne w hk]
      simp [hk]

/-- Nothing but shelves is written when handles are taken out of service. -/
theorem exists_shelves_unlink (w : Hub) (ks : List Key) :
    ∃ shelves, ks.foldl unlink w = { w with shelves := shelves } := by
  induction ks generalizing w with
  | nil => exact ⟨w.shelves, rfl⟩
  | cons k ks ih =>
    obtain ⟨shelves, hone⟩ : ∃ shelves, w.unlink k = { w with shelves := shelves } := by
      unfold unlink
      split
      · exact ⟨w.shelves, rfl⟩
      · exact ⟨_, rfl⟩
    obtain ⟨shelves', hrest⟩ := ih (w.unlink k)
    exact ⟨shelves', by rw [List.foldl_cons, hrest, hone]⟩

theorem foldl_unlink (w : Hub) (ks : List Key) :
    (ks.foldl unlink w).events = w.events ∧ (ks.foldl unlink w).jobs = w.jobs ∧
      (ks.foldl unlink w).clones = w.clones ∧ (ks.foldl unlink w).teardowns = w.teardowns := by
  obtain ⟨shelves, e⟩ := exists_shelves_unlink w ks
  rw [e]
  exact ⟨rfl, rfl, rfl, rfl⟩

/-- A key that was never written has an empty shelf. -/
theorem shelf_of_not_mem {w : Hub} {k : Key} (hk : k ∉ w.shelves.keys) : w.shelf k = {} := by
  have hfind : Table.find? k w.shelves.entries = none := by
    unfold Table.keys at hk
    generalize w.shelves.entries = es at hk
    induction es with
    | nil => rfl
    | cons e es ih =>
      obtain ⟨j, s⟩ := e
      rw [List.map_cons, List.mem_cons, not_or] at hk
      rw [Table.find?, if_neg (Ne.symm hk.1)]
      exact ih hk.2
  rw [shelf, Table.get, hfind]
  rfl

/-- So only written keys are served. -/
theorem mem_servedKeys (w : Hub) (k : Key) : k ∈ w.servedKeys ↔ (w.serving k).isSome = true := by
  unfold servedKeys
  rw [List.mem_filter, and_iff_right_of_imp]
  intro hs
  by_contra hk
  rw [serving_eq, shelf_of_not_mem hk] at hs
  contradiction

/-- Taking handles out of service writes no new keys. -/
theorem keys_foldl_unlink (w : Hub) (ks : List Key) :
    (ks.foldl unlink w).shelves.keys = w.shelves.keys := by
  induction ks generalizing w with
  | nil => rfl
  | cons k ks ih =>
    refine (ih (w.unlink k)).trans ?_
    unfold unlink
    split
    · rfl
    · rename_i h hs
      have hk : k ∈ w.servedKeys := (mem_servedKeys w k).mpr (by rw [hs]; rfl)
      exact (Table.map_fst_put k _ _).trans (if_pos (List.mem_filter.mp hk).1)

theorem nodup_servedKeys (w : Hub) : w.servedKeys.Nodup := w.shelves.distinct.filter _

/-- Whatever order is wished for, the served keys are taken once each. -/
theorem mem_servedInOrder (w : Hub) (wish : List Key) (k : Key) :
    k ∈ w.servedInOrder wish ↔ (w.serving k).isSome = true := by
  rw [← mem_servedKeys]
  unfold servedInOrder
  simp only [List.mem_append, List.mem_filter, List.mem_eraseDups, decide_eq_true_iff]
  tauto

theorem nodup_eraseDups (ks : List Key) : ks.eraseDups.Nodup := by
  induction hn : ks.length using Nat.strongRecOn generalizing ks with
  | ind n ih =>
    subst hn
    cases ks with
    | nil => exact List.nodup_nil
    | cons k ks =>
      rw [List.eraseDups_cons, List.nodup_cons]
      refine ⟨?_, ih _ ?_ _ rfl⟩
      · rw [List.mem_eraseDups, List.mem_filter]
        simp
      · exact Nat.lt_succ_of_le (List.length_filter_le _ _)

theorem nodup_servedInOrder (w : Hub) (wish : List Key) : (w.servedInOrder wish).Nodup := by
  unfold servedInOrder
  refine ((nodup_eraseDups wish).filter _).append ((nodup_servedKeys w).filter _) ?_
  intro k hk hk'
  simp only [List.mem_filter, List.mem_eraseDups, decide_eq_true_iff] at hk hk'
  exact hk'.2 hk.1

theorem eraseDups_eq_self {ks : List Key} (distinct : ks.Nodup) : ks.eraseDups = ks := by
  induction ks with
  | nil => rfl
  | cons k ks ih =>
    obtain ⟨hk, hks⟩ := List.nodup_cons.mp distinct
    have hothers : ks.filter (fun j => !j == k) = ks := by
      refine List.filter_eq_self.mpr fun j hj => ?_
      rw [Bool.not_eq_true', beq_eq_false_iff_ne]
      rintro rfl
      exact hk hj
    rw [List.eraseDups_cons, hothers, ih hks]

/-- A wish that names each served key once is the order in which they are taken. -/
theorem servedInOrder_of_perm {order : List Key} (h : order.Perm w.servedKeys) :
    w.servedInOrder order = order := by
  have hdistinct : order.eraseDups = order := eraseDups_eq_self (h.nodup_iff.mpr (nodup_servedKeys w))
  have hall : order.filter (· ∈ w.servedKeys) = order :=
    List.filter_eq_self.mpr fun k hk => decide_eq_true (h.subset hk)
  have hnone : w.servedKeys.filter (· ∉ order) = [] := by
    refine List.filter_eq_nil_iff.mpr fun k hk => ?_
    simpa using h.symm.subset hk
  rw [servedInOrder, hdistinct, hall, hnone, List.append_nil]

/-- Every order takes the same keys. -/
theorem perm_servedInOrder (w : Hub) (wish : List Key) : (w.servedInOrder wish).Perm w.servedKeys :=
  (List.perm_ext_iff_of_nodup (nodup_servedInOrder w wish) (nodup_servedKeys w)).mpr fun k => by
    rw [mem_servedInOrder, mem_servedKeys]

/-- The handles that serve some keys, each with its key. -/
theorem map_key_filterMap_serving {w : Hub} (orderly : ∀ k, (w.shelf k).Orderly k) (ks : List Key)
    (hserved : ∀ k ∈ ks, (w.serving k).isSome = true) :
    (ks.filterMap w.serving).map (·.key) = ks := by
  induction ks with
  | nil => rfl
  | cons k ks ih =>
    obtain ⟨h, hs⟩ := Option.isSome_iff_exists.mp (hserved k (List.mem_cons_self ..))
    have hkey := (((orderly k).placed.serving_iff h).mp hs).1
    rw [List.filterMap_cons_some hs, List.map_cons, hkey,
      ih fun j hj => hserved j (List.mem_cons_of_mem _ hj)]

/-- The first poll of a teardown takes all handles out of service before it closes them. -/
theorem withdrawn_unlinkAll {w : Hub} (orderly : ∀ k, (w.shelf k).Orderly k) (wish : List Key)
    (n : Notice) : Withdrawn w ((w.unlinkAll wish).1.note n) (w.unlinkAll wish).2 ∧
      (w.unlinkAll wish).2.map (·.key) = w.servedInOrder wish := by
  have hserved : ∀ k ∈ w.servedInOrder wish, (w.serving k).isSome = true :=
    fun k => (mem_servedInOrder w wish k).mp
  have hkeys : (w.unlinkAll wish).2.map (·.key) = w.servedInOrder wish :=
    map_key_filterMap_serving orderly _ hserved
  have hserving : ∀ h ∈ (w.unlinkAll wish).2, w.serving h.key = some h := by
    intro h hm
    obtain ⟨k, -, hk⟩ := List.mem_filterMap.mp hm
    rwa [(((orderly k).placed.serving_iff h).mp hk).1]
  obtain ⟨-, -, hclones, hteardowns⟩ := foldl_unlink w (w.servedInOrder wish)
  refine ⟨⟨?_, hserving, hclones, hteardowns, fun h hm => ?_⟩, hkeys⟩
  · rw [hkeys]
    exact nodup_servedInOrder w wish
  · have hmem : h.key ∈ w.servedInOrder wish := hkeys ▸ List.mem_map_of_mem hm
    have hshelf := shelf_foldl_unlink w _ (nodup_servedInOrder w wish) h.key
    rw [if_pos hmem, unlinked, ← serving_eq, hserving h hm] at hshelf
    exact hshelf

/-! ## Moves of a hub -/

/-- A hub has moved: on the shelf of every key by one step, which says what polls were woken. -/
structure Moves (marks : Key → Mark) (w w' : Hub) : Prop where
  step : ∀ k, ∃ woken, Shelf.Step k (w.shelf k) (marks k) woken (w'.shelf k) ∧
    w'.wakes k = w.wakes k ++ woken
  backed : w.Backed → w'.Backed

/-- What the first poll of a teardown does to the books of a key. -/
def tornMark (w : Hub) (k : Key) : Mark := if (w.serving k).isSome then .torn else .even

/-- The first poll of a teardown of everything is a step on the shelf of every served key. -/
theorem beginTeardown_moves (held : w.isHeld = true) (orderly : ∀ k, (w.shelf k).Orderly k)
    (wish : List Key) :
    Moves w.tornMark w (w.beginTeardown .all wish).1 ∧
      (w.beginTeardown .all wish).1.clones = w.clones ∧
      (w.beginTeardown .all wish).1.teardowns = w.teardowns := by
  let ks := w.servedInOrder wish
  let hs := ks.filterMap w.serving
  let v := (ks.foldl unlink w).note (.tearingDown hs.length)
  obtain ⟨hevents, hjobs, hclones, hteardowns⟩ := foldl_unlink w ks
  obtain ⟨hout, hkeys⟩ : Withdrawn w v hs ∧ hs.map (·.key) = ks :=
    withdrawn_unlinkAll orderly wish (.tearingDown hs.length)
  have hshelf : ∀ k, v.shelf k = if k ∈ ks then unlinked (w.shelf k) else w.shelf k :=
    shelf_foldl_unlink w ks (nodup_servedInOrder w wish)
  have hwakes : ∀ k, v.wakes k = w.wakes k := by
    intro k
    rw [Hub.wakes, show v.events = w.events from hevents, Hub.wakes]
  have hforce : ForceClosed w v (v.forceCloseEach hs).1 hs :=
    forceCloseEach_does held orderly hout fun h _ => hwakes h.key
  refine ⟨⟨fun k => ?_, fun hb => hforce.backed ?_⟩, hforce.clones.trans hclones,
    hforce.teardowns.trans hteardowns⟩
  · unfold tornMark
    by_cases hk : (w.serving k).isSome = true
    · obtain ⟨h, hs'⟩ := Option.isSome_iff_exists.mp hk
      obtain rfl := (((orderly k).placed.serving_iff h).mp hs').1
      have hm : h ∈ hs := List.mem_filterMap.mpr ⟨h.key, (mem_servedInOrder w wish h.key).mpr hk, hs'⟩
      rw [if_pos hk]
      exact hforce.done h hm
    · have hnot : k ∉ ks := by
        rw [mem_servedInOrder]
        exact hk
      rw [if_neg hk]
      refine ⟨[], ?_, ?_⟩
      · have := hforce.shelf k (hkeys ▸ hnot)
        rw [hshelf, if_neg hnot] at this
        change Shelf.Step k (w.shelf k) .even [] ((v.forceCloseEach hs).1.shelf k)
        rw [this]
        exact (Shelf.Turn.rest _).step
      · rw [List.append_nil, ← hwakes]
        exact hforce.wakes k (hkeys ▸ hnot)
  · -- phases and creations are those of before, and jobs depend on nothing else
    have hsame : ∀ k, (v.shelf k).phases = (w.shelf k).phases ∧
        (v.shelf k).creations = (w.shelf k).creations := by
      intro k
      rw [hshelf]
      split
      · unfold unlinked
        split <;> exact ⟨rfl, rfl⟩
      · exact ⟨rfl, rfl⟩
    constructor
    · intro j hj
      obtain ⟨k, i, hi⟩ := hb.jobs j (hjobs ▸ hj)
      exact ⟨k, i, hi.of_later (.of_eq (hsame k).1) (.of_eq (hsame k).2) fun _ => .of_eq (hsame k).2 i⟩
    · intro k i hid
      have hold : w.HasClosed (.made k i) := by
        rw [HasClosed, ← hevents]
        exact hid
      exact (hb.closes k i hold).later (.of_eq (hsame k).1)

end Hub

end SharedLinks
