import SharedLinks.Proofs.Work

/-!
# Hubs whose jobs have their reasons

In a hub that is `Backed`, every job works for a creation that is there, and a link was asked to close
only if its handle takes no callers any more. `Hub.Turned` says that a call has made one turn on the
shelf of one key, `Hub.Does` that it has made one step and kept the hub backed. A turn after which a
job is taken up is a step (`Turned.spawn`), whatever becomes of new jobs, and so is one run of a job
(`runJob_does`).
-/

namespace SharedLinks

namespace Hub

/-- Every job works for a creation, and every link that was asked to close has lost its callers. -/
structure Backed (w : Hub) : Prop where
  jobs : ∀ j ∈ w.jobs, ∃ k i, (w.shelf k).Backs k i j
  closes : ∀ k i, w.HasClosed (.made k i) → (w.shelf k).Retired i

variable {k : Key} {i : Nat} {j : Job} {w w' : Hub} {mark : Mark}

/-- A call that concerns one key keeps the hub backed if it does so for this key. -/
theorem Backed.of_frame (h : w.Backed) (frame : Frame k w w')
    (later : (w.shelf k).Later (w'.shelf k)) (ext : (w.shelf k).Extends (w'.shelf k))
    (jobs : ∀ j ∈ w'.jobs, (∃ i, (w'.shelf k).Backs k i j) ∨ j ∈ w.jobs ∧
      ∀ i, (w.shelf k).Backs k i j → j.stage = .awaitLink → (w.shelf k).Keeps (w'.shelf k) i)
    (closes : ∀ id, w'.HasClosed id →
      w.HasClosed id ∨ ∃ i, id = .made k i ∧ (w'.shelf k).Retired i) : w'.Backed := by
  constructor
  · intro j hj
    rcases jobs j hj with ⟨i, hi⟩ | ⟨hold, hkeeps⟩
    · exact ⟨k, i, hi⟩
    · obtain ⟨k', i, hi⟩ := h.jobs j hold
      refine ⟨k', i, ?_⟩
      by_cases hk : k' = k
      · subst hk
        exact hi.of_later later ext (hkeeps i hi)
      · rw [frame.shelf k' hk]
        exact hi
  · intro k' i hid
    rcases closes _ hid with hold | ⟨i', e, hret⟩
    · have hret := h.closes k' i hold
      by_cases hk : k' = k
      · subst hk
        exact hret.later later
      · rw [frame.shelf k' hk]
        exact hret
    · obtain ⟨rfl, rfl⟩ := LinkId.made.inj e
      exact hret

/-- A change that shows on no shelf and in no event keeps the hub backed if it adds no jobs. -/
theorem Backed.of_shelf (h : w.Backed) (shelf : ∀ k, w'.shelf k = w.shelf k)
    (jobs : ∀ j ∈ w'.jobs, j ∈ w.jobs) (closes : ∀ id, w'.HasClosed id → w.HasClosed id) :
    w'.Backed := by
  constructor
  · intro j hj
    obtain ⟨k, i, hi⟩ := h.jobs j (jobs j hj)
    exact ⟨k, i, by rwa [shelf]⟩
  · intro k i hid
    rw [shelf]
    exact h.closes k i (closes _ hid)

/-- A job that differs at most in whether it was told apart by its place works like the other. -/
theorem backs_congr {s : Shelf} {j j' : Job} (h : s.Backs k i j) (id : j'.id = j.id)
    (owner : j'.owner = j.owner) (link : j'.link = j.link) (stage : j'.stage = j.stage) :
    s.Backs k i j' := by
  obtain ⟨id', owner', link', stage'⟩ := j'
  subst id owner link stage
  exact h

/-- The key and the number that a job works for show in its name. -/
theorem backs_inj {s s' : Shelf} {k' : Key} {i' : Nat} {j j' : Job} (h : s.Backs k i j)
    (h' : s'.Backs k' i' j') (e : j'.id.link = j.id.link) : k' = k ∧ i' = i := by
  rw [h.id, h'.id] at e
  exact LinkId.made.inj e

/-! ## One run of a job -/

/-- After one run of a job the hub is backed with any jobs that were there before, unless they await
the same link, and with the job itself at the stage it has reached. -/
theorem Worked.backed {woken : List (Nat × Nat)} {left : Option Stage}
    (hw : Worked k i j woken w w' left) (h : w.Backed) (jobs : List Job) (ready : List JobId)
    (hjobs : ∀ j' ∈ jobs, (j' ∈ w.jobs ∧ (j.stage = .awaitLink → j'.stage = .awaitLink →
      ¬ (w.shelf k).Backs k i j')) ∨ (w'.shelf k).Backs k i j') :
    Backed { w' with jobs := jobs, ready := ready } := by
  have hlater : (w.shelf k).Later (w'.shelf k) := by
    rcases hw.shelf with ⟨e, -⟩ | ⟨-, arrival⟩
    · exact .of_eq (by rw [e])
    · exact arrival.later
  have hextends : (w.shelf k).Extends (w'.shelf k) := by
    rcases hw.shelf with ⟨e, -⟩ | ⟨-, arrival⟩
    · exact .of_eq (by rw [e])
    · exact arrival.extends
  refine h.of_frame (hw.frame.jobs jobs ready) hlater hextends ?_ ?_
  · intro j' hj'
    rcases hjobs j' hj' with ⟨hold, hdiff⟩ | hback
    · refine Or.inr ⟨hold, fun i' hi' hstage' => ?_⟩
      rcases hw.shelf with ⟨e, -⟩ | ⟨hstage, arrival⟩
      · exact .of_eq (by rw [← e]; rfl) i'
      · refine arrival.keeps ?_
        rintro rfl
        exact hdiff hstage hstage' hi'
    · exact Or.inl ⟨i, hback⟩
  · intro id hid
    rcases hw.closes id hid with hold | hnew
    · exact Or.inl hold
    · exact Or.inr ⟨i, hnew⟩

/-! ## Turns and steps of a hub -/

/-- A call has changed the shelf of the key, without waking anybody or taking up a job. -/
structure Quiet (k : Key) (w w' : Hub) : Prop where
  frame : Frame k w w'
  wakes : w'.wakes k = w.wakes k
  jobs : w'.jobs = w.jobs
  closes : ∀ id, w'.HasClosed id → w.HasClosed id

/-- A call has made one turn on the shelf of the key, without waking anybody. -/
structure Turned (k : Key) (mark : Mark) (w w' : Hub) : Prop extends Quiet k w w' where
  turn : Shelf.Turn k (w.shelf k) mark (w'.shelf k)

/-- A call has made one step on the shelf of the key, and woken these polls of its tickets. -/
structure Does (k : Key) (mark : Mark) (woken : List (Nat × Nat)) (w w' : Hub) : Prop where
  frame : Frame k w w'
  step : Shelf.Step k (w.shelf k) mark woken (w'.shelf k)
  wakes : w'.wakes k = w.wakes k ++ woken
  backed : w.Backed → w'.Backed

namespace Quiet

variable {w'' : Hub}

theorem refl (k : Key) (w : Hub) : Quiet k w w := ⟨Frame.refl k w, rfl, rfl, fun _ => id⟩

theorem trans (h : Quiet k w w') (h' : Quiet k w' w'') : Quiet k w w'' :=
  ⟨h.frame.trans h'.frame, h'.wakes.trans h.wakes, h'.jobs.trans h.jobs,
    fun id hid => h.closes id (h'.closes id hid)⟩

theorem silent (h : Quiet k w w') (hs : Silent w' w'') : Quiet k w w'' :=
  h.trans ⟨hs.frame k, hs.wakes k, hs.jobs, fun id => (hs.closes id).mp⟩

theorem note (h : Quiet k w w') (n : Notice) : Quiet k w (w'.note n) := h.silent (silent_note w' n)

theorem count (h : Quiet k w w') (c : Counter) : Quiet k w (w'.count c) :=
  h.silent (silent_count w' c)

theorem onShelf (h : Quiet k w w') (f : Shelf → Shelf) : Quiet k w (w'.onShelf k f) :=
  ⟨h.frame.onShelf f, h.wakes, h.jobs, h.closes⟩

/-- Something becomes visible that is neither the wake of a ticket nor the closing of a link. -/
theorem emit (h : Quiet k w w') {e : Event} (hw : ∀ j, e.wake? j = none) (hc : ∀ id, .close id ≠ e) :
    Quiet k w (w'.emit e) := by
  refine h.trans ⟨(Frame.refl k w').emit fun j _ => hw j, ?_, rfl, ?_⟩
  · rw [wakes_emit, hw, Option.toList_none, List.append_nil]
  · intro id hid
    rcases List.mem_cons.mp hid with heq | hold
    · exact absurd heq (hc id)
    · exact hold

theorem forget (h : Quiet k w w') (hd : HandleId) : Quiet k w (w'.forget k hd) := by
  refine h.trans ⟨frame_forget w' k hd, wakes_forget w' k k hd, jobs_forget w' k hd, ?_⟩
  intro id hid
  rwa [HasClosed, events_forget] at hid

end Quiet

theorem Turned.backed (h : Turned k mark w w') (hb : w.Backed) : w'.Backed := by
  refine hb.of_frame h.frame h.turn.later h.turn.extends ?_ fun id hid => Or.inl (h.closes id hid)
  intro j hj
  rw [h.jobs] at hj
  exact Or.inr ⟨hj, fun i _ _ => h.turn.keeps i⟩

theorem Turned.does (h : Turned k mark w w') : Does k mark [] w w' :=
  ⟨h.frame, h.turn.step, by rw [h.wakes, List.append_nil], h.backed⟩

theorem Turned.rest (k : Key) (w : Hub) : Turned k .even w w := ⟨Quiet.refl k w, .rest _⟩

/-- A turn after which a job is taken up is a step. A job that awaits a link has to be that of the
handle just opened; any other leaves the shelf as it is. -/
theorem Turned.spawn (h : Turned k mark w w') (held : w.isHeld = true)
    (orderly : (w.shelf k).Orderly k) (hj : (w'.shelf k).Backs k i j)
    (new : j.stage = .awaitLink →
      (w'.shelf k).serving = some ⟨k, i⟩ ∧ (w.shelf k).phases.length ≤ i) :
    ∃ woken, Does k mark woken w (w'.spawn j) ∧
      (j.stage ≠ .awaitLink → (w'.spawn j).shelf k = w'.shelf k) := by
  unfold Hub.spawn
  split
  · refine ⟨[], ⟨h.frame.jobs _ _, h.turn.step, ?_, fun hb => ?_⟩, fun _ => rfl⟩
    · rw [List.append_nil]
      exact h.wakes
    · refine (h.backed hb).of_frame ((Frame.refl k w').jobs _ _) (.refl _) (.of_eq rfl) ?_
        fun id => Or.inl
      intro j' hj'
      rcases List.mem_append.mp hj' with hold | hnew
      · exact Or.inr ⟨hold, fun i _ _ => .of_eq rfl i⟩
      · rw [List.mem_singleton] at hnew
        subst hnew
        exact Or.inl ⟨i, hj⟩
  · -- a job that is polled at once makes its first run within the same step
    obtain ⟨woken, hw⟩ := work_worked (h.frame.isHeld.trans held) (h.turn.orderly orderly) hj
    have hstep : Shelf.Step k (w.shelf k) mark woken ((w'.work j).1.shelf k) := by
      refine ⟨w'.shelf k, h.turn, ?_⟩
      rcases hw.shelf with ⟨e, rfl⟩ | ⟨hstage, arrival⟩
      · exact Or.inl ⟨e.symm, rfl⟩
      · exact Or.inr ⟨i, arrival, Or.inr (new hstage)⟩
    have hwakes : (w'.work j).1.wakes k = w.wakes k ++ woken := by rw [hw.wakes, h.wakes]
    have hstay : j.stage ≠ .awaitLink → (w'.work j).1.shelf k = w'.shelf k := by
      intro hne
      rcases hw.shelf with ⟨e, -⟩ | ⟨hstage, -⟩
      · exact e
      · exact absurd hstage hne
    -- a job that was there before awaits the link of an older creation
    have hother : w.Backed → ∀ j' ∈ w'.jobs, j' ∈ w'.jobs ∧ (j.stage = .awaitLink →
        j'.stage = .awaitLink → ¬ (w'.shelf k).Backs k i j') := by
      intro hb j' hj'
      refine ⟨hj', fun hstage _ hback => ?_⟩
      rw [h.jobs] at hj'
      obtain ⟨k', i', hi'⟩ := hb.jobs j' hj'
      obtain ⟨rfl, rfl⟩ := backs_inj hback hi' rfl
      obtain ⟨c, hc, -⟩ := hi'.creation
      have hlt := (List.getElem?_eq_some_iff.mp hc).1
      have hle := (new hstage).2
      rw [orderly.recorded.length] at hlt
      omega
    split
    · rename_i w'' hwork
      rw [hwork] at hw hstep hwakes hstay
      refine ⟨woken, ⟨h.frame.trans hw.frame, hstep, hwakes, fun hb => ?_⟩, hstay⟩
      have hjobs := hw.jobs
      have := hw.backed (h.backed hb) w''.jobs w''.ready fun j' hj' => Or.inl (hother hb j' (hjobs ▸ hj'))
      exact this
    · rename_i w'' stage hwork
      rw [hwork] at hw hstep hwakes hstay
      refine ⟨woken, ⟨(h.frame.trans hw.frame).jobs _ w''.ready, hstep, hwakes, fun hb => ?_⟩, hstay⟩
      refine hw.backed (h.backed hb) _ w''.ready fun j' hj' => ?_
      rcases List.mem_append.mp hj' with hold | hnew
      · rw [show w''.jobs = w'.jobs from hw.jobs] at hold
        exact Or.inl (hother hb j' hold)
      · rw [List.mem_singleton] at hnew
        subst hnew
        exact Or.inr (hw.left stage rfl)
  · exact ⟨[], h.does, fun _ => rfl⟩

/-- One run of a job of a hub that is in order is a step on the shelf of its key. -/
theorem runJob_does (hb : w.Backed) (orderly : ∀ k, (w.shelf k).Orderly k)
    (held : w.isHeld = true) (id : JobId) :
    (w.runJob id).1 = w ∨ ∃ k woken, Does k .even woken w (w.runJob id).1 := by
  unfold runJob
  cases hfind : w.job? id with
  | none => exact Or.inl rfl
  | some j =>
    have hmem : j ∈ w.jobs := List.mem_of_find?_eq_some hfind
    have hid : j.id = id := by simpa using List.find?_some hfind
    obtain ⟨k, i, hj⟩ := hb.jobs j hmem
    obtain ⟨woken, hw⟩ := work_worked (w := w.unready id) held (orderly k) hj
    have hstep : Shelf.Step k (w.shelf k) .even woken (((w.unready id).work j).1.shelf k) := by
      rcases hw.shelf with ⟨e, rfl⟩ | ⟨-, arrival⟩
      · rw [e]
        exact (Shelf.Turn.rest _).step
      · exact arrival.step
    have hframe : Frame k w (w.unready id) := (Frame.refl k w).jobs w.jobs _
    have hb' : (w.unready id).Backed := hb.of_shelf (fun _ => rfl) (fun _ h => h) fun _ h => h
    refine Or.inr ⟨k, woken, ?_⟩
    -- the jobs that await the same link have the same name, so they are all kept or all thrown away
    have hother : ∀ j' ∈ w.jobs, j'.id ≠ id → j' ∈ (w.unready id).jobs ∧ (j.stage = .awaitLink →
        j'.stage = .awaitLink → ¬ (w.shelf k).Backs k i j') := by
      intro j' hj' hne
      refine ⟨hj', fun hstage hstage' hback => hne ?_⟩
      rw [← hid]
      have hlink : j'.id.link = j.id.link := by rw [hback.id, hj.id]
      have hduty : j'.id.duty = j.id.duty := by rw [hback.duty hstage', hj.duty hstage]
      cases hji : j'.id
      cases hji' : j.id
      simp_all
    simp only
    split
    · rename_i w' hwork
      rw [hwork] at hw hstep
      refine ⟨(hframe.trans hw.frame).jobs _ _, hstep, hw.wakes, fun _ => ?_⟩
      refine hw.backed hb' _ _ fun j' hj' => Or.inl ?_
      obtain ⟨hmem', hne⟩ := List.mem_filter.mp hj'
      rw [show w'.jobs = w.jobs from hw.jobs] at hmem'
      exact hother j' hmem' (by simpa using hne)
    · rename_i w' stage hwork
      rw [hwork] at hw hstep
      refine ⟨(hframe.trans hw.frame).jobs _ w'.ready, hstep, hw.wakes, fun _ => ?_⟩
      refine hw.backed hb' _ w'.ready fun j' hj' => ?_
      obtain ⟨j₀, hmem', rfl⟩ := List.mem_map.mp hj'
      rw [show w'.jobs = w.jobs from hw.jobs] at hmem'
      split
      · rename_i hsame
        obtain ⟨k₀, i₀, hj₀⟩ := hb.jobs j₀ hmem'
        obtain ⟨rfl, rfl⟩ := backs_inj hj hj₀ (by rw [hsame, hid])
        -- a job of the same name works for the same creation, hence on the same link
        obtain ⟨c, hc, hlink, -⟩ := hj.creation
        obtain ⟨c₀, hc₀, hlink₀, -⟩ := hj₀.creation
        obtain rfl := Option.some.inj (hc.symm.trans hc₀)
        refine Or.inr (backs_congr (hw.left stage rfl) (hsame.trans hid.symm) ?_ ?_ rfl)
        · exact hj₀.owner.trans hj.owner.symm
        · exact hlink₀.symm.trans hlink
      · rename_i hne
        exact Or.inl (hother j₀ hmem' hne)

end Hub

end SharedLinks
