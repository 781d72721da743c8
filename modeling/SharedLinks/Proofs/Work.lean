import SharedLinks.Proofs.Arrivals

/-!
# Jobs at work

A job makes two kinds of things happen: the outcome of a creation reaches its handle, and a link is
asked to close. `Shelf.Backs` is what has to hold of a job for this: it works for the creation and the
handle with one number, an outcome that it still awaits was not delivered before, and a link that it
closes belongs to a handle that takes no callers. `work_worked` says what one run of such a job comes
to.
-/

namespace SharedLinks

namespace Shelf

/-- The handle with this number exists and takes no callers any more. -/
def Retired (s : Shelf) (i : Nat) : Prop := i < s.phases.length ∧ (s.phase i).isOpen = false

theorem Retired.later {s s' : Shelf} {i : Nat} (h : s.Retired i) (hs : s.Later s') : s'.Retired i :=
  ⟨Nat.lt_of_lt_of_le h.1 hs.length, hs.retired i h.1 h.2⟩

/-- The job works for the handle with this number and has a reason to do so. -/
structure Backs (s : Shelf) (k : Key) (i : Nat) (j : Job) : Prop where
  creation : ∃ c : Creation, s.creations[i]? = some c ∧ c.link = j.link ∧
    (j.stage = .awaitLink → c.delivered = false)
  id : j.id.link = .made k i
  owner : j.owner = ⟨k, i⟩
  duty : j.stage = .awaitLink → j.id.duty = .create
  retired : j.stage ≠ .awaitLink → s.Retired i

theorem Backs.of_later {s s' : Shelf} {k : Key} {i : Nat} {j : Job} (h : s.Backs k i j)
    (hl : s.Later s') (he : s.Extends s') (hk : j.stage = .awaitLink → s.Keeps s' i) :
    s'.Backs k i j := by
  refine ⟨?_, h.id, h.owner, h.duty, fun hs => (h.retired hs).later hl⟩
  obtain ⟨c, hc, hlink, hd⟩ := h.creation
  by_cases hs : j.stage = .awaitLink
  · obtain ⟨c', hc', hlink', hd'⟩ := hk hs c hc
    exact ⟨c', hc', hlink'.trans hlink, fun _ => hd'.trans (hd hs)⟩
  · obtain ⟨c', hc', hlink', -⟩ := he i c hc
    exact ⟨c', hc', hlink'.trans hlink, fun e => absurd e hs⟩

end Shelf

namespace Hub

variable {w : Hub} {k : Key} {i : Nat} {c : Creation}

/-! ## One run of a job -/

/-- A job for creation `i` of the key has run, and `left` is what is left to do. -/
structure Worked (k : Key) (i : Nat) (j : Job) (woken : List (Nat × Nat)) (w w' : Hub)
    (left : Option Stage) : Prop where
  frame : Frame k w w'
  shelf : w'.shelf k = w.shelf k ∧ woken = [] ∨
    j.stage = .awaitLink ∧ Shelf.Arrival k i (w.shelf k) woken (w'.shelf k)
  wakes : w'.wakes k = w.wakes k ++ woken
  jobs : w'.jobs = w.jobs
  closes : ∀ id, w'.HasClosed id → w.HasClosed id ∨ id = .made k i ∧ (w'.shelf k).Retired i
  left : ∀ stage, left = some stage → (w'.shelf k).Backs k i { j with stage := stage }

variable {j : Job}

/-- A job that is past its creation may wait for its link to close. -/
theorem backs_awaitClose {s : Shelf} (found : s.creations[i]? = some c) (link : c.link = j.link)
    (id : j.id.link = .made k i) (owner : j.owner = ⟨k, i⟩) (retired : s.Retired i) :
    s.Backs k i { j with stage := .awaitClose } := by
  refine ⟨⟨c, found, link, ?_⟩, id, owner, ?_, fun _ => retired⟩
  · intro e
    contradiction
  · intro e
    contradiction

/-- A job that looks whether its link has closed changes nothing else. -/
theorem workAwaitClose_worked {w : Hub} (found : (w.shelf k).creations[i]? = some c)
    (link : c.link = j.link) (id : j.id.link = .made k i) (owner : j.owner = ⟨k, i⟩)
    (retired : (w.shelf k).Retired i) :
    Worked k i j [] w (w.workAwaitClose j).1 (w.workAwaitClose j).2 := by
  have hs := silent_workAwaitClose w j
  refine ⟨hs.frame k, Or.inl ⟨hs.shelf k, rfl⟩, ?_, hs.jobs, ?_, ?_⟩
  · rw [hs.wakes, List.append_nil]
  · intro id' hid
    exact Or.inl ((hs.closes id').mp hid)
  · intro stage hstage
    rw [stage_workAwaitClose w j hstage, hs.shelf]
    exact backs_awaitClose found link id owner retired

/-- Closing a link changes no shelf. -/
theorem shelf_workClose (w : Hub) (j : Job) (k : Key) : (w.workClose j).1.shelf k = w.shelf k :=
  (silent_workAwaitClose (w.beginClose j.owner j.link) j).shelf k

/-- A job that asks its link to close shows that to others. -/
theorem workClose_worked {w : Hub} (found : (w.shelf k).creations[i]? = some c)
    (link : c.link = j.link) (made : c.link.id = .made k i) (id : j.id.link = .made k i)
    (owner : j.owner = ⟨k, i⟩) (retired : (w.shelf k).Retired i) :
    Worked k i j [] w (w.workClose j).1 (w.workClose j).2 := by
  have h := workAwaitClose_worked (w := w.beginClose j.owner j.link) found link id owner retired
  have hframe : Frame k w (w.beginClose j.owner j.link) :=
    ((Frame.refl k w).note _).emit fun _ _ => rfl
  refine ⟨hframe.trans h.frame, h.shelf, ?_, h.jobs, ?_, h.left⟩
  · have hwakes := h.wakes
    rw [List.append_nil] at hwakes
    rw [List.append_nil]
    exact hwakes.trans ((wakes_emit _ _ _).trans (List.append_nil _))
  · intro id' hid
    rcases h.closes id' hid with hold | hnew
    · rcases List.mem_cons.mp hold with e | hold
      · obtain rfl := Event.close.inj e
        refine Or.inr ⟨by rw [← link, made], ?_⟩
        rw [shelf_workClose]
        exact retired
      · exact Or.inl hold
    · exact Or.inr hnew

/-- What one run of a job comes to: nothing on the shelves, or the outcome of its creation. -/
theorem work_worked {w : Hub} (held : w.isHeld = true) (h : (w.shelf k).Orderly k)
    (hj : (w.shelf k).Backs k i j) :
    ∃ woken, Worked k i j woken w (w.work j).1 (w.work j).2 := by
  obtain ⟨⟨c, found, link, fresh⟩, hid, howner, hduty, hretired⟩ := hj
  have hmade := h.recorded.link i c found
  unfold work
  cases hstage : j.stage with
  | close =>
    rw [hstage] at hretired
    exact ⟨[], workClose_worked found link hmade hid howner (hretired (by simp))⟩
  | awaitClose =>
    rw [hstage] at hretired
    exact ⟨[], workAwaitClose_worked found link hid howner (hretired (by simp))⟩
  | awaitLink =>
    have hgate : w.making j.link.id = c.making := by
      rw [← link, hmade, making, creation?, found]
      rfl
    have hlinkid : j.link.id = .made k i := by rw [← link, hmade]
    have hfresh := fresh hstage
    simp only
    rw [hgate]
    cases hmaking : c.making with
    | shut =>
      refine ⟨[], Frame.refl k w, Or.inl ⟨rfl, rfl⟩, (List.append_nil _).symm, rfl, fun _ => Or.inl, ?_⟩
      rintro stage ⟨⟩
      refine ⟨⟨c, found, link, fun _ => hfresh⟩, hid, howner, fun _ => hduty hstage, ?_⟩
      intro hne
      contradiction
    | opened answer =>
      cases answer with
      | some failure =>
        obtain ⟨woken, hw⟩ := fail_arrived held h found hmaking hfresh
        rw [hlinkid, howner]
        refine ⟨woken, hw.frame, Or.inr ⟨hstage, hw.arrival⟩, hw.wakes, hw.jobs, ?_, ?_⟩
        · intro id hid
          exact Or.inl (hw.closes id hid)
        · rintro stage ⟨⟩
      | none =>
        obtain ⟨woken, hw, hclosed⟩ := fulfil_arrived held h found hmaking hfresh
        rw [link] at hw hclosed
        rw [hlinkid, howner]
        simp only
        generalize (w.markDelivered (.made k i)).fulfil ⟨k, i⟩ j.link = r at *
        obtain ⟨w', again⟩ := r
        cases again with
        | false =>
          refine ⟨woken, hw.frame, Or.inr ⟨hstage, hw.arrival⟩, hw.wakes, hw.jobs, ?_, ?_⟩
          · intro id hid
            exact Or.inl (hw.closes id hid)
          · rintro stage ⟨⟩
        | true =>
          -- nobody took the link, so the same run goes on to close it
          have hlt : i < (w'.shelf k).phases.length := by
            refine Nat.lt_of_lt_of_le ?_ hw.arrival.later.length
            rw [← h.recorded.length]
            exact (List.getElem?_eq_some_iff.mp found).1
          obtain ⟨c', found', link', -⟩ := hw.arrival.extends i c found
          have hret : (w'.shelf k).Retired i := ⟨hlt, by rw [hclosed rfl]; rfl⟩
          have hclose := workClose_worked found' (link'.trans link) (by rw [link', hmade]) hid howner hret
          refine ⟨woken, hw.frame.trans hclose.frame, Or.inr ⟨hstage, ?_⟩, ?_,
            hclose.jobs.trans hw.jobs, ?_, hclose.left⟩
          · change Shelf.Arrival k i (w.shelf k) woken ((w'.workClose j).1.shelf k)
            rw [shelf_workClose]
            exact hw.arrival
          · exact hclose.wakes.trans ((List.append_nil _).trans hw.wakes)
          · intro id hid
            rcases hclose.closes id hid with hold | hnew
            · exact Or.inl (hw.closes id hold)
            · exact Or.inr hnew

end Hub

end SharedLinks
