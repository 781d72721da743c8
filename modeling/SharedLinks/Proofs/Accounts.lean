import SharedLinks.Proofs.Abandoned
import SharedLinks.Proofs.Holders

/-!
# The accounts of a run

A release names a key and not a link, so what a run does to the references of a key is an account of
the whole key. `total_play` is the account of a balanced run, one in which nothing is released that
was not yielded before: what is held, and what was released, adds up to what the tickets have got and
what was dropped in vain. `account_play` says so too of a hub that nobody holds any more, by way of
its shadow. Whenever the key loses its last reference, nobody has a link of it any more
(`settled_play`); so only a teardown takes a link from somebody who holds it (`serves_play`).
-/

namespace SharedLinks

/-- The key that the move releases. -/
def Move.released? : Move → Option Key
  | .release k => some k
  | _ => none

/-- The teardown that the move polls. -/
def Move.torn? : Move → Option Nat
  | .pollTeardown i _ => some i
  | _ => none

namespace Move

theorem released?_eq_some_iff {m : Move} {k : Key} : m.released? = some k ↔ m = .release k := by
  cases m <;> simp [released?]

theorem torn?_eq_some_iff {m : Move} {i : Nat} :
    m.torn? = some i ↔ ∃ wish, m = .pollTeardown i wish := by
  cases m <;> simp [torn?]

end Move

namespace Hub

/-- Every release comes at a moment when more links of its key were yielded than released. -/
def Balanced (w : Hub) (ms : List Move) : Prop :=
  ∀ pre k post, ms = pre ++ .release k :: post →
    pre.count (.release k) < ((w.play pre).shelf k).yielded

/-- Whoever gives a reference back holds the hub. -/
def Called (w : Hub) (ms : List Move) : Prop :=
  ∀ pre k post, ms = pre ++ .release k :: post → 0 < (w.play pre).clones

/-- How many tickets of the key are dropped in vain. -/
def strays (w : Hub) (k : Key) : List Move → Nat
  | [] => 0
  | m :: ms => (w.mark m k).lost + (w.move m).strays k ms

/-- The ticket held no link yet whenever a teardown was polled for the first time. -/
def Recent (w : Hub) (ms : List Move) (k : Key) (n : Nat) : Prop :=
  ∀ pre i wish post, ms = pre ++ .pollTeardown i wish :: post → (w.play pre).begins i = true →
    ((w.play pre).shelf k).held? n = none

/-- Each release of the key is charged to a ticket that has yielded a link before, and no ticket is
charged twice. The releases are counted from zero. -/
structure Charges (w : Hub) (ms : List Move) (k : Key) (f : Nat → Nat) : Prop where
  yielded : ∀ pre post, ms = pre ++ .release k :: post →
    f (pre.count (.release k)) ∈ ((w.play pre).shelf k).numbers Ticket.isYielded
  inj : ∀ r < ms.count (.release k), ∀ r' < ms.count (.release k), f r = f r' → r = r'

variable {w : Hub} {ms : List Move} {m : Move} {k : Key} {n : Nat} {link : Link}

/-! ## Runs can be checked -/

/-- What holds at every place of a list can be checked from place to place. -/
theorem forall_split_iff {α : Type} {l : List α} {p : List α → α → Prop} :
    (∀ pre a post, l = pre ++ a :: post → p pre a) ↔
      ∀ i, ∀ h : i < l.length, p (l.take i) l[i] := by
  constructor
  · intro h i hi
    refine h (l.take i) l[i] (l.drop (i + 1)) ?_
    rw [← List.drop_eq_getElem_cons, List.take_append_drop]
  · rintro h pre a post rfl
    have := h pre.length (by simp)
    simpa using this

theorem balanced_iff : w.Balanced ms ↔ ∀ i, ∀ h : i < ms.length, ∀ k ∈ ms[i].released?,
    (ms.take i).count (.release k) < ((w.play (ms.take i)).shelf k).yielded := by
  rw [← forall_split_iff (p := fun pre m => ∀ k ∈ m.released?,
    pre.count (.release k) < ((w.play pre).shelf k).yielded)]
  constructor
  · intro h pre m post e k hk
    rw [Option.mem_def, Move.released?_eq_some_iff] at hk
    exact h pre k post (hk ▸ e)
  · intro h pre k post e
    exact h pre _ post e k rfl

theorem recent_iff : w.Recent ms k n ↔ ∀ i, ∀ h : i < ms.length, ∀ j ∈ ms[i].torn?,
    (w.play (ms.take i)).begins j = true → ((w.play (ms.take i)).shelf k).held? n = none := by
  rw [← forall_split_iff (p := fun pre m => ∀ j ∈ m.torn?,
    (w.play pre).begins j = true → ((w.play pre).shelf k).held? n = none)]
  constructor
  · intro h pre m post e j hj
    obtain ⟨wish, rfl⟩ := Move.torn?_eq_some_iff.mp hj
    exact h pre j wish post e
  · intro h pre j wish post e
    exact h pre _ post e j rfl

theorem called_iff : w.Called ms ↔ ∀ i, ∀ h : i < ms.length, ∀ k ∈ ms[i].released?,
    0 < (w.play (ms.take i)).clones := by
  rw [← forall_split_iff (p := fun pre m => ∀ k ∈ m.released?, 0 < (w.play pre).clones)]
  constructor
  · intro h pre m post e k hk
    rw [Option.mem_def, Move.released?_eq_some_iff] at hk
    exact h pre k post (hk ▸ e)
  · intro h pre k post e
    exact h pre _ post e k rfl

instance : Decidable (w.Balanced ms) := decidable_of_iff _ balanced_iff.symm

instance : Decidable (w.Called ms) := decidable_of_iff _ called_iff.symm

instance : Decidable (w.Recent ms k n) := decidable_of_iff _ recent_iff.symm

theorem charges_iff {f : Nat → Nat} : w.Charges ms k f ↔
    (∀ i, ∀ h : i < ms.length, ∀ j ∈ ms[i].released?, j = k →
      f ((ms.take i).count (.release k)) ∈
        ((w.play (ms.take i)).shelf k).numbers Ticket.isYielded) ∧
    ∀ r < ms.count (.release k), ∀ r' < ms.count (.release k), f r = f r' → r = r' := by
  rw [← forall_split_iff (p := fun pre m => ∀ j ∈ m.released?, j = k →
    f (pre.count (.release k)) ∈ ((w.play pre).shelf k).numbers Ticket.isYielded)]
  constructor
  · intro h
    refine ⟨?_, h.inj⟩
    rintro pre m post e j hj rfl
    rw [Option.mem_def, Move.released?_eq_some_iff] at hj
    exact h.yielded pre post (hj ▸ e)
  · rintro ⟨hyielded, hinj⟩
    exact ⟨fun pre post e => hyielded pre _ post e k rfl rfl, hinj⟩

instance (f : Nat → Nat) : Decidable (w.Charges ms k f) := decidable_of_iff _ charges_iff.symm

/-! ## Runs and their beginnings -/

theorem Balanced.of_append {post : List Move} (h : w.Balanced (ms ++ post)) : w.Balanced ms := by
  rintro pre k rest rfl
  exact h pre k (rest ++ post) (by simp)

theorem Called.of_append {post : List Move} (h : w.Called (ms ++ post)) : w.Called ms := by
  rintro pre k rest rfl
  exact h pre k (rest ++ post) (by simp)

theorem Recent.of_append {post : List Move} (h : w.Recent (ms ++ post) k n) : w.Recent ms k n := by
  rintro pre i wish rest rfl
  exact h pre i wish (rest ++ post) (by simp)

theorem strays_concat (w : Hub) (k : Key) (ms : List Move) (m : Move) :
    w.strays k (ms ++ [m]) = w.strays k ms + ((w.play ms).mark m k).lost := by
  induction ms generalizing w with
  | nil => simp [strays]
  | cons a ms ih =>
    rw [List.cons_append, strays, ih, strays, play_cons, Nat.add_assoc]

/-- The moves of a run, up to the release with this number. -/
theorem exists_release {r : Nat} (h : r < ms.count (.release k)) :
    ∃ pre post, ms = pre ++ .release k :: post ∧ pre.count (.release k) = r := by
  induction ms using List.reverseRecOn with
  | nil => exact absurd h (Nat.not_lt_zero r)
  | append_singleton ms m ih =>
    by_cases hr : r < ms.count (.release k)
    · obtain ⟨pre, post, rfl, hcount⟩ := ih hr
      exact ⟨pre, post ++ [m], by simp, hcount⟩
    · rw [List.count_append, List.count_singleton] at h
      split at h
      · rename_i hm
        obtain rfl : m = .release k := by simpa using hm
        exact ⟨ms, [], rfl, by omega⟩
      · omega

/-- Every ticket lives on through a run. -/
theorem ages_play (h : w.Sound) (held : 0 < (w.play ms).clones) (k : Key) :
    (w.shelf k).Ages ((w.play ms).shelf k) := by
  induction ms using List.reverseRecOn with
  | nil => exact .of_eq rfl
  | append_singleton ms m ih =>
    rw [play_concat] at held ⊢
    have hc := clones_of_move held
    have hheld := isHeld_of_clones hc
    obtain ⟨woken, step, -⟩ := (move_moves (h.play hheld) hheld m).step k
    exact (ih hc).trans step.ages

/-- While there are orphans, the handle in service counts exactly the tickets that hold its link. -/
theorem exact_play (h : w.Sound) (empty : w.shelf k = {}) (held : 0 < (w.play ms).clones) :
    ((w.play ms).shelf k).Exact := by
  induction ms using List.reverseRecOn with
  | nil =>
    rw [play_nil, empty]
    exact fun ho => absurd rfl ho
  | append_singleton ms m ih =>
    rw [play_concat] at held ⊢
    have hc := clones_of_move held
    have hheld := isHeld_of_clones hc
    have hsound := h.play hheld
    obtain ⟨woken, step, -⟩ := (move_moves hsound hheld m).step k
    exact step.exact (hsound.orderly k) (ih hc)

/-! ## The account -/

/-- A release of a key with references gives one back, and nothing else does. -/
theorem given_mark (hm : m = .release k → 0 < w.clones ∧ 0 < (w.shelf k).total) :
    (w.mark m k).given = [m].count (.release k) := by
  rw [List.count_singleton]
  by_cases hr : m = .release k
  · rw [if_pos (by simpa using hr)]
    subst hr
    rw [mark_release (hm rfl).1 (hm rfl).2, Mark.given]
  · rw [if_neg (by simpa using hr)]
    rcases w.mark_cases m k with h | ⟨h, -⟩ | ⟨-, h⟩ | ⟨h, -⟩ | ⟨h, -⟩
    · rw [h, Mark.given]
    · rw [h, Mark.given]
    · exact absurd h hr
    · rw [h, Mark.given]
    · rw [h, Mark.given]

/-- In a balanced run, the references that are held and those that were released add up to the tickets
that hold a link and those that were dropped in vain. This goes on after everybody has let go of the
hub, but there only its shadow still tells which references are held. -/
theorem account_play (h : w.Sound) (held : w.isHeld = true) (empty : w.shelf k = {})
    (balanced : w.Balanced ms) (called : w.Called ms) :
    ∃ w', Shadow (w.play ms) w' ∧
      (w'.shelf k).total + ms.count (.release k) = (w'.shelf k).taken + w.strays k ms := by
  induction ms using List.reverseRecOn with
  | nil =>
    refine ⟨w, h.shadow held, ?_⟩
    rw [empty]
    rfl
  | append_singleton ms m ih =>
    obtain ⟨w', hshadow, hold⟩ := ih balanced.of_append called.of_append
    have hgiven := given_mark (w := w.play ms) (m := m) (k := k) fun e => by
      subst e
      have hc := called ms k [] rfl
      have hdue := balanced ms k [] rfl
      obtain rfl := hshadow.same (isHeld_of_clones hc)
      have htaken := ((w.play ms).shelf k).taken_eq
      exact ⟨hc, by omega⟩
    obtain ⟨w'', hshadow', hmoves⟩ := hshadow.move m
    obtain ⟨woken, step, -⟩ := hmoves.step k
    have hbooks := step.books (hshadow.sound.orderly k)
    refine ⟨w'', play_concat w ms m ▸ hshadow', ?_⟩
    rw [strays_concat, List.count_append, ← hgiven]
    omega

/-- As long as a caller holds the hub, this is so of the hub itself. -/
theorem total_play (h : w.Sound) (empty : w.shelf k = {}) (balanced : w.Balanced ms)
    (held : 0 < (w.play ms).clones) :
    ((w.play ms).shelf k).total + ms.count (.release k) =
      ((w.play ms).shelf k).yielded + ((w.play ms).shelf k).unclaimed + w.strays k ms := by
  have hcalled : w.Called ms := by
    rintro pre k post rfl
    rw [play_append] at held
    exact clones_of_play held
  obtain ⟨w', hshadow, htotal⟩ :=
    account_play h (isHeld_of_clones (clones_of_play held)) empty balanced hcalled
  obtain rfl := hshadow.same (isHeld_of_clones held)
  rw [htotal, Shelf.taken_eq]

/-- In a balanced run no more links are released than were yielded. -/
theorem released_le (h : w.Sound) (balanced : w.Balanced ms) (held : 0 < (w.play ms).clones) :
    ms.count (.release k) ≤ ((w.play ms).shelf k).yielded := by
  by_contra hlt
  -- look at the last release: it was balanced, and no yielded ticket is lost afterwards
  have hlast : ms.count (.release k) - 1 < ms.count (.release k) := by omega
  obtain ⟨pre, post, rfl, hcount⟩ := exists_release hlast
  rw [play_append] at held hlt
  have hpre := clones_of_play held
  have hages := ages_play (h.play (isHeld_of_clones hpre)) held k
  have hyielded : ((w.play pre).shelf k).yielded ≤ _ := hages.yielded_le
  have := balanced pre k post rfl
  change ¬ _ ≤ ((((w.play pre).play _).shelf k).tickets.countP Ticket.isYielded) at hlt
  omega

/-- When the key loses its last reference, no link of it is unclaimed, and all that were yielded were
released. -/
theorem settled_play (h : w.Sound) (empty : w.shelf k = {}) (balanced : w.Balanced ms)
    (held : 0 < (w.play ms).clones) (zero : ((w.play ms).shelf k).total = 0) :
    ((w.play ms).shelf k).unclaimed = 0 ∧
      ((w.play ms).shelf k).yielded = ms.count (.release k) := by
  have htotal := total_play h empty balanced held
  have hle := released_le (k := k) h balanced held
  omega

/-! ## The link stays in service -/

/-- A link that a ticket has got since the last teardown began is in service, unless the key has lost
its last reference in the meantime. -/
theorem serves_play (h : w.Sound) (empty : w.shelf k = {}) (held : 0 < (w.play ms).clones)
    (recent : w.Recent ms k n) (hs : ((w.play ms).shelf k).held? n = some link) :
    ((w.play ms).shelf k).Serves link ∨ ∃ pre post, ms = pre ++ post ∧
      ((w.play pre).shelf k).held? n = some link ∧ ((w.play pre).shelf k).total = 0 := by
  induction ms using List.reverseRecOn with
  | nil =>
    rw [play_nil, empty] at hs
    contradiction
  | append_singleton ms m ih =>
    have hend := hs
    rw [play_concat] at held hs ⊢
    have hc := clones_of_move held
    have hheld := isHeld_of_clones hc
    have hsound := h.play hheld
    obtain ⟨woken, step, -⟩ := (move_moves hsound hheld m).step k
    rcases step.grants (hsound.orderly k) hs with hold | serves
    · -- the ticket had the link before the move, so no teardown has begun with the move
      have hcalm : (w.play ms).mark m k ≠ .torn := by
        intro e
        rcases (w.play ms).mark_cases m k with h | ⟨h, -⟩ | ⟨h, -⟩ | ⟨h, -⟩ | ⟨-, i, wish, rfl, hb⟩
        · simp [h] at e
        · simp [h] at e
        · simp [h] at e
        · simp [h] at e
        · rw [recent ms i wish [] rfl hb] at hold
          contradiction
      rcases ih hc recent.of_append hold with serves | ⟨pre, post, rfl, hpre, hzero⟩
      · rcases step.serves (hsound.orderly k) (exact_play h empty hc) hcalm hs serves with
          serves | hzero
        · exact Or.inl serves
        · refine Or.inr ⟨ms ++ [m], [], (List.append_nil _).symm, hend, ?_⟩
          rw [play_concat, hzero]
      · exact Or.inr ⟨pre, post ++ [m], by simp, hpre, hzero⟩
    · exact Or.inl serves

/-- Where all yielded links were released, each of them is charged for. -/
theorem Charges.covers {f : Nat → Nat} {pre post : List Move} (charges : w.Charges (pre ++ post) k f)
    (h : w.Sound) (held : 0 < (w.play pre).clones)
    (all : ((w.play pre).shelf k).yielded = pre.count (.release k))
    (hn : n ∈ ((w.play pre).shelf k).numbers Ticket.isYielded) :
    ∃ r < pre.count (.release k), f r = n := by
  have hle : pre.count (.release k) ≤ (pre ++ post).count (.release k) := by
    rw [List.count_append]
    omega
  have hnodup : ((List.range (pre.count (.release k))).map f).Nodup := by
    refine List.nodup_range.map_on fun r hr r' hr' e => ?_
    rw [List.mem_range] at hr hr'
    exact charges.inj r (by omega) r' (by omega) e
  have hsub : (List.range (pre.count (.release k))).map f ⊆
      ((w.play pre).shelf k).numbers Ticket.isYielded := by
    intro a ha
    obtain ⟨r, hr, rfl⟩ := List.mem_map.mp ha
    obtain ⟨before, after, rfl, rfl⟩ := exists_release (List.mem_range.mp hr)
    have hyielded := charges.yielded before (after ++ post) (by simp)
    rw [play_append] at held ⊢
    have hages := ages_play (h.play (isHeld_of_clones (clones_of_play held))) held k
    exact hages.mem_yielded hyielded
  -- the releases so far are charged to as many tickets as there are, so to all of them
  have hperm := (hnodup.subperm hsub).perm_of_length_le (by
    rw [Shelf.length_numbers, List.length_map, List.length_range, ← all]
    exact Nat.le_refl _)
  obtain ⟨r, hr, e⟩ := List.mem_map.mp (hperm.mem_iff.mpr hn)
  exact ⟨r, List.mem_range.mp hr, e⟩

/-! ## What a balanced run keeps -/

theorem mem_yielded_of_held {s : Shelf} (hs : s.held? n = some link) (hnone : s.unclaimed = 0) :
    n ∈ s.numbers Ticket.isYielded := by
  obtain ⟨t, ht, hl⟩ := Shelf.held?_eq_some_iff.mp hs
  have hclaimed : ¬ t.isUnclaimed = true :=
    List.countP_eq_zero.mp hnone t (List.mem_of_getElem? ht)
  have hor : (t.isUnclaimed || t.isYielded) = true := by
    rw [← t.held?_isSome, hl]
    rfl
  rw [Bool.or_eq_true] at hor
  exact Shelf.mem_numbers.mpr ⟨t, ht, hor.resolve_left hclaimed⟩

/-- Reference counting closes no link that somebody holds. In every balanced run each release succeeds
and lowers the count of its key by one, the count never falls below the number of links that were
granted and neither released nor given up, and whichever tickets the releases are charged to, every
other ticket whose link was granted since the last teardown began holds the link in service, and this
was not asked to close. -/
theorem accounts_play {settings : Settings} {seed : UInt64} {ambient : Option Dispatch} {w₀ : Hub}
    (built : settings.build seed ambient = .ok w₀) (ms : List Move) (balanced : w₀.Balanced ms)
    (held : 0 < (w₀.play ms).clones) (k : Key) :
    (∀ pre post, ms = pre ++ .release k :: post → ((w₀.play pre).release k).2 = .ok () ∧
      ((w₀.play (pre ++ [.release k])).shelf k).total + 1 = ((w₀.play pre).shelf k).total) ∧
    ((w₀.play ms).shelf k).yielded + ((w₀.play ms).shelf k).unclaimed ≤
      ((w₀.play ms).shelf k).total + ms.count (.release k) ∧
    ∀ f, w₀.Charges ms k f → ∀ n link, ((w₀.play ms).shelf k).held? n = some link →
      (∀ r < ms.count (.release k), f r ≠ n) → w₀.Recent ms k n →
        ∃ i refs, (w₀.play ms).serving k = some ⟨k, i⟩ ∧
          (w₀.play ms).phase ⟨k, i⟩ = .live link refs ∧ ¬ (w₀.play ms).HasClosed link.id := by
  have hsound := sound_build built
  have hempty := shelf_build built k
  refine ⟨?_, ?_, ?_⟩
  · rintro pre post rfl
    have hpre : 0 < (w₀.play pre).clones := by
      rw [play_append] at held
      exact clones_of_play held
    have hheld := isHeld_of_clones hpre
    have horderly := (hsound.play hheld).orderly k
    have hdue := balanced pre k post rfl
    have htotal := total_play (k := k) hsound hempty balanced.of_append hpre
    obtain ⟨woken, -, turn, hok⟩ := release_does hheld horderly (by omega)
    refine ⟨hok, ?_⟩
    rw [play_concat, move, asked, if_neg (Nat.ne_of_gt hpre)]
    exact turn.total_of_released horderly
  · have htotal := total_play (k := k) hsound hempty balanced held
    omega
  · intro f charges n link hs hfree recent
    rcases serves_play hsound hempty held recent hs with ⟨i, refs, live⟩ | ⟨pre, post, rfl, hpre, hzero⟩
    · have hnow := hsound.play (isHeld_of_clones held)
      have hid := (hnow.orderly k).recorded.id_of_live live
      refine ⟨i, refs, (hnow.orderly k).placed.serving_of_live live, live, fun hclosed => ?_⟩
      rw [hid] at hclosed
      have hretired := (hnow.backed.closes k i hclosed).2
      rw [live] at hretired
      contradiction
    · -- the key had no reference left, so the ticket has yielded its link and was charged for it
      have hc : 0 < (w₀.play pre).clones := by
        rw [play_append] at held
        exact clones_of_play held
      obtain ⟨hnone, hall⟩ := settled_play hsound hempty balanced.of_append hc hzero
      obtain ⟨r, hr, rfl⟩ := charges.covers hsound hc hall (mem_yielded_of_held hpre hnone)
      refine absurd rfl (hfree r ?_)
      rw [List.count_append]
      omega

/-- Two links of a key, one from before a teardown and one from after it, are yielded, and then one
reference is released. -/
def releaseOlder : List Move :=
  [.acquire sampleKey, .runJob ⟨.made sampleKey 0, .create⟩, .poll sampleKey 0, .tearDown,
    .pollTeardown 0 [], .acquire sampleKey, .runJob ⟨.made sampleKey 1, .create⟩, .poll sampleKey 1,
    .release sampleKey]

/-- The newer link stays in service when the release is charged to the older one. -/
theorem accounts_play_releaseOlder :
    (sample.Balanced releaseOlder ∧ 0 < (sample.play releaseOlder).clones) ∧
      sample.Charges releaseOlder sampleKey (fun _ => 0) ∧ sample.Recent releaseOlder sampleKey 1 ∧
      ∃ i refs link, ((sample.play releaseOlder).shelf sampleKey).held? 1 = some link ∧
        (sample.play releaseOlder).phase ⟨sampleKey, i⟩ = .live link refs ∧
          ¬ (sample.play releaseOlder).HasClosed link.id := by
  have hbalanced : sample.Balanced releaseOlder := by decide
  have hcharges : sample.Charges releaseOlder sampleKey fun _ => 0 := by decide
  have hrecent : sample.Recent releaseOlder sampleKey 1 := by decide
  have hsome : (((sample.play releaseOlder).shelf sampleKey).held? 1).isSome = true := by decide
  obtain ⟨link, hlink⟩ := Option.isSome_iff_exists.mp hsome
  obtain ⟨i, refs, -, live, hclosed⟩ :=
    (accounts_play build_sample releaseOlder hbalanced (by decide) sampleKey).2.2 _ hcharges 1 link
      hlink (by decide) hrecent
  exact ⟨⟨hbalanced, by decide⟩, hcharges, hrecent, i, refs, link, hlink, live, hclosed⟩

/-! ## What a dropped ticket gives back -/

/-- An unclaimed ticket that is dropped lowers the count of its key exactly if the handle that granted
the link has not come to its end. -/
theorem total_drop (h : w.Sound) (held : w.isHeld = true) {t : Ticket} {i : Nat}
    (found : (w.shelf k).tickets[n]? = some t)
    (unclaimed : t.state = .settled (.ok link) (some (.handle ⟨k, i⟩))) :
    ((w.phase ⟨k, i⟩ = .closed →
        ((w.move (.drop k n)).shelf k).total = (w.shelf k).total) ∧
      (w.phase ⟨k, i⟩ ≠ .closed →
        ((w.move (.drop k n)).shelf k).total + 1 = (w.shelf k).total)) := by
  have horderly := h.orderly k
  refine ⟨fun hc => ?_, fun hc => ?_⟩
  · have hshelf := (dropTicket_stray found unclaimed hc).2
    rw [move, hshelf]
    rfl
  · obtain ⟨woken, -, hshelf, turn⟩ := dropTicket_refund held horderly found unclaimed hc
    have hbooks := turn.books horderly
    have hlost := Shelf.holding_dropUnclaimed found unclaimed fun _ => true
    have htaken : ((w.dropTicket (.forKey k n)).shelf k).taken + 1 = (w.shelf k).taken := by
      rw [hshelf, Shelf.taken, Shelf.holding_giveBack]
      exact hlost
    rw [move]
    simp only [Mark.given, Mark.lost] at hbooks
    omega

/-- No handle of the key holds a reference exactly if none is counted. -/
theorem total_eq_zero_iff (h : w.Sound) :
    (w.shelf k).total = 0 ↔ ∀ i, (w.phase ⟨k, i⟩).refs = 0 := by
  rw [Shelf.total_eq_zero_iff]
  constructor
  · intro hkept i
    by_cases hc : w.phase ⟨k, i⟩ = .closed
    · rw [hc, Phase.refs]
    · exact hkept ⟨k, i⟩ (((h.orderly k).placed.mem_kept_iff _).mpr ⟨rfl, hc⟩)
  · intro hall hd hm
    exact hall hd.index

/-- An unclaimed link that was granted since the last teardown began comes from a handle that still
counts it. -/
theorem not_closed_of_recent (h : w.Sound) (empty : w.shelf k = {}) (balanced : w.Balanced ms)
    (held : 0 < (w.play ms).clones) (recent : w.Recent ms k n) {t : Ticket} {i : Nat}
    (found : ((w.play ms).shelf k).tickets[n]? = some t)
    (unclaimed : t.state = .settled (.ok link) (some (.handle ⟨k, i⟩))) :
    (w.play ms).phase ⟨k, i⟩ ≠ .closed := by
  have horderly := (h.play (isHeld_of_clones held)).orderly k
  have hheld : t.held? = some link := by rw [Ticket.held?, unclaimed]
  have hs := Shelf.held?_eq_some_iff.mpr ⟨t, found, hheld⟩
  rcases serves_play h empty held recent hs with ⟨j, refs, live⟩ | ⟨pre, post, rfl, hpre, hzero⟩
  · obtain ⟨i', hid, hi⟩ := horderly.refund_of_unclaimed found unclaimed
    obtain rfl : i = i' := by simpa using hi
    obtain rfl := (horderly.link_eq_iff live found hheld hid).mp rfl
    rw [phase_eq, live]
    simp
  · -- the key had no reference left, so the ticket has yielded the link, and is not unclaimed
    rw [play_append] at held found
    have hc := clones_of_play held
    obtain ⟨hnone, -⟩ := settled_play h empty balanced.of_append hc hzero
    have hages := ages_play (h.play (isHeld_of_clones hc)) held k
    obtain ⟨t', ht', hy⟩ := Shelf.mem_numbers.mp (hages.mem_yielded (mem_yielded_of_held hpre hnone))
    obtain rfl := Option.some.inj (found.symm.trans ht')
    simp [Ticket.isYielded, unclaimed] at hy

/-- What becomes of unclaimed references. In a balanced run, dropping an unclaimed ticket lowers the
count of its key by one exactly if the handle that granted the link has not come to its end, which is
so unless a teardown has begun since. The references that are held in the end are those of the tickets
that nobody has released or given up, and one for each ticket that was dropped in vain; so once all
yielded links were released and no ticket is unclaimed, no handle holds a reference exactly if no
ticket was dropped in vain. -/
theorem forfeits_play {settings : Settings} {seed : UInt64} {ambient : Option Dispatch} {w₀ : Hub}
    (built : settings.build seed ambient = .ok w₀) (ms : List Move) (balanced : w₀.Balanced ms)
    (held : 0 < (w₀.play ms).clones) (k : Key) :
    (∀ n (t : Ticket), ((w₀.play ms).shelf k).tickets[n]? = some t → t.isUnclaimed = true →
      ∃ i, t.source? = some ⟨k, i⟩ ∧
        (((w₀.play (ms ++ [.drop k n])).shelf k).total + 1 = ((w₀.play ms).shelf k).total ↔
          (w₀.play ms).phase ⟨k, i⟩ ≠ .closed) ∧
        ((w₀.play ms).phase ⟨k, i⟩ = .closed →
          ((w₀.play (ms ++ [.drop k n])).shelf k).total = ((w₀.play ms).shelf k).total) ∧
        (w₀.Recent ms k n → (w₀.play ms).phase ⟨k, i⟩ ≠ .closed)) ∧
    ((w₀.play ms).shelf k).total + ms.count (.release k) =
      ((w₀.play ms).shelf k).yielded + ((w₀.play ms).shelf k).unclaimed + w₀.strays k ms ∧
    (ms.count (.release k) = ((w₀.play ms).shelf k).yielded → ((w₀.play ms).shelf k).unclaimed = 0 →
      ((∀ i, ((w₀.play ms).phase ⟨k, i⟩).refs = 0) ↔ w₀.strays k ms = 0)) := by
  have hsound := sound_build built
  have hempty := shelf_build built k
  have hheld := isHeld_of_clones held
  have hnow := hsound.play hheld
  have htotal := total_play (k := k) hsound hempty balanced held
  refine ⟨fun n t found hunclaimed => ?_, htotal, fun hall hnone => ?_⟩
  · obtain ⟨link, r, hstate⟩ := Ticket.isUnclaimed_iff.mp hunclaimed
    obtain ⟨i, -, rfl⟩ := (hnow.orderly k).refund_of_unclaimed found hstate
    obtain ⟨hclosed, hopen⟩ := total_drop hnow hheld found hstate
    rw [play_concat]
    refine ⟨i, by rw [Ticket.source?, hstate], ⟨fun hlow hc => ?_, hopen⟩, hclosed, fun recent =>
      not_closed_of_recent hsound hempty balanced held recent found hstate⟩
    have := hclosed hc
    omega
  · rw [← total_eq_zero_iff hnow]
    omega

/-- A ticket is granted a link and not polled, a teardown orphans the handle, and somebody else yields
a newer link and releases it, which takes the orphan's reference. -/
def spendOlder : List Move :=
  [.acquire sampleKey, .runJob ⟨.made sampleKey 0, .create⟩, .tearDown, .pollTeardown 0 [],
    .acquire sampleKey, .runJob ⟨.made sampleKey 1, .create⟩, .poll sampleKey 1, .release sampleKey]

/-- The first ticket is dropped in vain, and the newer handle keeps a reference that is nobody's. -/
theorem forfeits_play_spendOlder :
    (sample.Balanced spendOlder ∧ 0 < (sample.play spendOlder).clones) ∧
      ((sample.play (spendOlder ++ [.drop sampleKey 0])).shelf sampleKey).total =
        ((sample.play spendOlder).shelf sampleKey).total ∧
      ((sample.play (spendOlder ++ [.drop sampleKey 0])).shelf sampleKey).unclaimed = 0 ∧
      ¬ ∀ i, ((sample.play (spendOlder ++ [.drop sampleKey 0])).phase ⟨sampleKey, i⟩).refs = 0 := by
  have hbalanced : sample.Balanced spendOlder := by decide
  have hbalanced' : sample.Balanced (spendOlder ++ [.drop sampleKey 0]) := by decide
  have hnone : ((sample.play (spendOlder ++ [.drop sampleKey 0])).shelf sampleKey).unclaimed = 0 := by
    decide
  have hstrays : ¬ sample.strays sampleKey (spendOlder ++ [.drop sampleKey 0]) = 0 := by decide
  have hvain : ((sample.play spendOlder).shelf sampleKey).isVain 0 = true := by decide
  have hany : (((sample.play spendOlder).shelf sampleKey).tickets[0]?).any Ticket.isUnclaimed = true := by
    decide
  obtain ⟨t, ht, hunclaimed⟩ := (Option.any_eq_true _ _).mp hany
  refine ⟨⟨hbalanced, by decide⟩, ?_, hnone, fun hzero => hstrays ?_⟩
  · obtain ⟨i, hsource, -, hsame, -⟩ :=
      (forfeits_play build_sample spendOlder hbalanced (by decide) sampleKey).1 0 t ht hunclaimed
    refine hsame ?_
    rw [Shelf.isVain, ht, Option.bind_some, hsource, Option.any_some] at hvain
    rw [phase_eq]
    cases hp : ((sample.play spendOlder).shelf sampleKey).phase i <;> simp_all [Phase.isClosed]
  · exact ((forfeits_play build_sample _ hbalanced' (by decide) sampleKey).2.2 (by decide) hnone).mp
      hzero

end Hub

end SharedLinks
