import SharedLinks.Proofs.Abandoned
import SharedLinks.Proofs.Tails

/-!
# Replies, and how far a move reaches

`Hub.reply` is what a move tells whoever made it. What a key's shelf refers to is of the same key in
every hub of a run, held or not (`contained_play`), and so is what a job works for (`labelled_play`).
So a call on a key, and what is done to a ticket of it, goes alongside in hubs that agree on the key,
and gets the same reply (`Tail.move_call`, `Tail.move_ticket`).
-/

namespace SharedLinks

/-- What a move tells whoever made it. -/
inductive Reply where
  /-- Nothing. -/
  | silence
  /-- The ticket that was given out. -/
  | ticket (id : TicketId)
  /-- Whether a reference was taken back. -/
  | released (result : Except LinkError Unit)
  /-- The answer of a ticket. -/
  | polled (answer : Poll Outcome)
  /-- The number of a new teardown. -/
  | teardown (index : Nat)
  /-- The answer of a teardown. -/
  | torn (answer : Poll (Except LinkError Unit))
  /-- Whether a job is done, if there is one. -/
  | ran (done : Option Bool)
  /-- Whether the provider's answer was awaited, if there is such a creation. -/
  | answered (awaited : Option Bool)

namespace Hub

/-- What a hub replies to a move. A hub that nobody can ask does not reply. -/
def reply (w : Hub) : Move → Reply
  | .acquire k => if w.clones = 0 then .silence else .ticket (w.acquire k).2
  | .release k => if w.clones = 0 then .silence else .released (w.release k).2
  | .poll k n => .polled (w.pollTicket (.forKey k n)).2
  | .park k n => .polled (w.parkTicket (.forKey k n)).2
  | .tearDown => if w.clones = 0 then .silence else .teardown w.teardowns.length
  | .pollTeardown i wish => .torn (w.pollTeardown i wish).2
  | .runJob id => .ran (w.runJob id).2
  | .answerMaking id failure => .answered ((w.answerMaking id failure).map Prod.snd)
  | .answerClosing id failure => .answered ((w.answerClosing id failure).map Prod.snd)
  | .drop _ _ | .dropTeardown _ | .abortJob _ | .clone | .dropClone => .silence

/-- What a hub replies to some moves in order. -/
def replies (w : Hub) : List Move → List Reply
  | [] => []
  | m :: ms => w.reply m :: (w.move m).replies ms

/-! ## Nothing refers to another key -/

/-- Handles, links, tickets and refunds on the shelf of a key are those of the key. -/
structure Contained (w : Hub) (k : Key) : Prop where
  serving : w.isHeld = true → ∀ hd, w.serving k = some hd → hd.key = k ∧ (w.phase hd).isOpen = true
  orphans : w.isHeld = true → ∀ hd ∈ (w.shelf k).orphans, hd.key = k
  queue : ∀ i queue, (w.shelf k).phase i = .pending queue → ∀ id ∈ queue, ∃ n, id = .forKey k n
  link : ∀ i link refs, (w.shelf k).phase i = .live link refs → link.id = .made k i
  source : ∀ (n : Nat) (t : Ticket) link r, (w.shelf k).tickets[n]? = some t →
    t.state = .settled (.ok link) r → ∃ i, r = some (.handle ⟨k, i⟩)

/-- Every job works for the link and the handle that it is named after. -/
def Labelled (w : Hub) : Prop :=
  ∀ j ∈ w.jobs, ∃ i, j.id.link = .made j.owner.key i ∧ j.link.id = .made j.owner.key i

variable {a : Accord} {v v' w w' : Hub} {k : Key}

theorem Shadow.contained (h : Shadow w w') (k : Key) : w.Contained k := by
  have horderly := h.sound.orderly k
  obtain ⟨v, o, e⟩ := h.twin.shelf k
  have hphase : ∀ i, (w'.shelf k).phase i = (w.shelf k).phase i := fun i =>
    Shelf.phase_congr (by rw [e]) i
  have htickets : (w'.shelf k).tickets = (w.shelf k).tickets := by rw [e]
  constructor
  · intro held hd hs
    obtain rfl := h.same held
    obtain ⟨rfl, hopen⟩ := (horderly.placed.serving_iff hd).mp hs
    exact ⟨rfl, hopen⟩
  · intro held hd hm
    obtain rfl := h.same held
    exact ((horderly.placed.mem_orphans_iff hd).mp hm).1
  · intro i queue hp id hm
    rw [← hphase] at hp
    obtain ⟨ns, rfl, -⟩ := horderly.queued.queue i queue hp
    obtain ⟨n, -, rfl⟩ := List.mem_map.mp hm
    exact ⟨n, rfl⟩
  · intro i link refs hp
    rw [← hphase] at hp
    exact horderly.recorded.id_of_live hp
  · intro n t link r ht hstate
    rw [← htickets] at ht
    obtain ⟨i, -, hr⟩ := horderly.granted.refund t (List.mem_of_getElem? ht) link r hstate
    exact ⟨i, hr⟩

theorem Contained.unready (h : w.Contained k) (id : JobId) : (w.unready id).Contained k :=
  ⟨h.serving, h.orphans, h.queue, h.link, h.source⟩

theorem Shadow.labelled (h : Shadow w w') : w.Labelled := by
  intro j hj
  rw [← h.twin.jobs] at hj
  obtain ⟨k, i, hback⟩ := h.sound.backed.jobs j hj
  obtain ⟨c, found, hlink, -⟩ := hback.creation
  refine ⟨i, ?_, ?_⟩
  · rw [hback.id, hback.owner]
  · rw [← hlink, hback.owner, (h.sound.orderly k).recorded.link i c found]

section Build

variable {settings : Settings} {seed : UInt64} {ambient : Option Dispatch} {w₀ : Hub}

/-- Every hub of a run has a shadow. -/
theorem exists_shadow_play (built : settings.build seed ambient = .ok w₀) (ms : List Move) :
    ∃ w', Shadow (w₀.play ms) w' := by
  have hheld : w₀.isHeld = true := isHeld_of_clones (by rw [clones_build built]; exact Nat.one_pos)
  exact ((sound_build built).shadow hheld).play ms

theorem contained_play (built : settings.build seed ambient = .ok w₀) (ms : List Move) (k : Key) :
    (w₀.play ms).Contained k := by
  obtain ⟨w', h⟩ := exists_shadow_play built ms
  exact h.contained k

theorem labelled_play (built : settings.build seed ambient = .ok w₀) (ms : List Move) :
    (w₀.play ms).Labelled := by
  obtain ⟨w', h⟩ := exists_shadow_play built ms
  exact h.labelled

end Build

/-! ## Moves that go alongside -/

theorem linksWithin_of_contained {ks : Key → Prop} (h : ∀ k, ks k → w.Contained k) :
    w.LinksWithin ks := by
  intro hd hk link refs hp
  rw [(h hd.key hk).link hd.index link refs hp]
  exact hk

theorem Contained.queuesWithin {ks : Key → Prop} {hd : HandleId} (h : w.Contained hd.key)
    (hk : ks hd.key) : w.QueuesWithin ks hd := by
  intro queue hp id hm
  obtain ⟨n, rfl⟩ := h.queue hd.index queue hp id hm
  exact hk

namespace Tail

variable {R : Hub → Hub → Prop} (t : Tail a v v' R) (h : Alongside a v v' w w')
  (contained : ∀ k, a.keys k → w.Contained k)

include t h contained

/-- Polls, parks and drops of a ticket go alongside in hubs that agree on its key. -/
theorem move_ticket (hk : a.keys k) {m : Move} (n : Nat)
    (hm : m = .poll k n ∨ m = .park k n ∨ m = .drop k n) :
    R (w.move m) (w'.move m) ∧ w'.reply m = w.reply m := by
  have hid : (TicketId.forKey k n).Within a.keys := hk
  rcases hm with rfl | rfl | rfl
  · obtain ⟨ht, he⟩ := h.touch hid Ticket.poll
    exact ⟨t.rest ht, congrArg Reply.polled he⟩
  · obtain ⟨ht, he⟩ := h.touch hid fun t => t.take .thread
    exact ⟨t.rest ht, congrArg Reply.polled he⟩
  · refine ⟨t.dropTicket h hid (linksWithin_of_contained contained) ?_, rfl⟩
    intro ticket link r ht hstate
    obtain ⟨i, hr⟩ := (contained k hk).source n ticket link (some r) ht hstate
    obtain rfl := Option.some.inj hr
    exact ⟨⟨k, i⟩, rfl, hk⟩

/-- Calls on a key go alongside in hubs that agree on the key and on who may call. -/
theorem move_call (places : a.places) (asks : a.asks) (clones : w'.clones = 0 ↔ w.clones = 0)
    (hk : a.keys k) {m : Move} (hm : m = .acquire k ∨ m = .release k) :
    R (w.move m) (w'.move m) ∧ w'.reply m = w.reply m := by
  by_cases hc : w.clones = 0
  · have hc' := clones.mpr hc
    rcases hm with rfl | rfl
    · exact ⟨by simpa only [move, asked, hc, hc', ↓reduceIte] using t.rest h,
        by rw [reply, reply, if_pos hc, if_pos hc']⟩
    · exact ⟨by simpa only [move, asked, hc, hc', ↓reduceIte] using t.rest h,
        by rw [reply, reply, if_pos hc, if_pos hc']⟩
  · have hc' : ¬ w'.clones = 0 := fun e => hc (clones.mp e)
    have held := isHeld_of_clones (Nat.pos_of_ne_zero hc)
    have hopen : ∀ hd, w.serving k = some hd → a.keys hd.key ∧ (w.phase hd).isOpen = true := by
      intro hd hs
      obtain ⟨rfl, hopen⟩ := (contained k hk).serving held hd hs
      exact ⟨hk, hopen⟩
    rcases hm with rfl | rfl
    · obtain ⟨hr, he⟩ := t.acquire h places asks hk hopen
      refine ⟨by simpa only [move, asked, hc, hc', ↓reduceIte] using hr, ?_⟩
      rw [reply, reply, if_neg hc, if_neg hc', he]
    · have horphans : ∀ hd ∈ (w.shelf k).orphans, a.keys hd.key := by
        intro hd hm
        rw [(contained k hk).orphans held hd hm]
        exact hk
      obtain ⟨hr, he⟩ := t.release h places hk hopen horphans (linksWithin_of_contained contained)
      refine ⟨by simpa only [move, asked, hc, hc', ↓reduceIte] using hr, ?_⟩
      rw [reply, reply, if_neg hc, if_neg hc', he]

end Tail

/-! ## Jobs -/

/-- Puts away a job that has worked: it is thrown away, or kept at the stage it has reached. -/
def afterWork (w : Hub) (id : JobId) : Option Stage → Hub × Option Bool
  | none => (w.removeJob id, some true)
  | some stage => (w.setStage id stage, some false)

theorem shelf_afterWork (w : Hub) (id : JobId) (left : Option Stage) (k : Key) :
    (w.afterWork id left).1.shelf k = w.shelf k := by
  cases left <;> rfl

theorem afterWork_rest (w : Hub) (id : JobId) (left : Option Stage) :
    (w.afterWork id left).1.fixtures = w.fixtures ∧ (w.afterWork id left).1.namer = w.namer := by
  cases left <;> exact ⟨rfl, rfl⟩

theorem runJob_of_none {id : JobId} (hj : w.job? id = none) : w.runJob id = (w, none) := by
  rw [runJob, hj]

theorem runJob_of_some {id : JobId} {j : Job} (hj : w.job? id = some j) :
    w.runJob id = ((w.unready id).work j).1.afterWork id ((w.unready id).work j).2 := by
  rw [runJob, hj]
  dsimp only
  cases (w.unready id).work j with
  | mk u left => cases left <;> rfl

/-- A job that is labelled works within its key. -/
theorem Labelled.worksWithin {ks : Key → Prop} (labelled : w.Labelled) {j : Job} (hj : j ∈ w.jobs)
    (hk : ks j.owner.key) (contained : w.Contained j.owner.key) (id : JobId) :
    (w.unready id).WorksWithin ks j := by
  obtain ⟨i, -, hlink⟩ := labelled j hj
  refine ⟨hk, ?_, fun _ => (contained.unready id).queuesWithin hk⟩
  rw [hlink]
  exact hk

/-! ## Answers of the provider -/

/-- The provider answers at a gate of a creation, which rouses the jobs that wait there; says whether
the answer was awaited, if there is such a creation. -/
def answerAt (w : Hub) (id : LinkId) (gate : Creation → Gate) (f : Creation → Creation)
    (stage : Stage) : Hub × Option Bool :=
  match w.creation? id with
  | none => (w, none)
  | some c =>
    match gate c with
    | .opened _ => (w, some false)
    | .shut => ((w.onCreation id f).rouse id stage, some true)

theorem answerAt_eq (w : Hub) (id : LinkId) (gate : Creation → Gate) (f : Creation → Creation)
    (stage : Stage) {r : Option (Hub × Bool)}
    (hr : r = (w.creation? id).map fun c => match gate c with
      | .opened _ => (w, false)
      | .shut => ((w.onCreation id f).rouse id stage, true)) :
    w.answerAt id gate f stage = ((r.map Prod.fst).getD w, r.map Prod.snd) := by
  subst hr
  unfold answerAt
  cases w.creation? id with
  | none => rfl
  | some c =>
    simp only [Option.map_some, Option.getD_some]
    cases gate c <;> rfl

/-- Answers to making a link and to closing it are both of this form. -/
theorem exists_answerAt {m : Move}
    (hm : (∃ id failure, m = .answerMaking id failure) ∨ ∃ id failure, m = .answerClosing id failure) :
    ∃ id gate f stage, ∀ w : Hub, w.move m = (w.answerAt id gate f stage).1 ∧
      w.reply m = .answered (w.answerAt id gate f stage).2 := by
  rcases hm with ⟨id, failure, rfl⟩ | ⟨id, failure, rfl⟩
  · refine ⟨id, (·.making), fun c => { c with making := .opened failure }, .awaitLink, fun w => ?_⟩
    rw [answerAt_eq (r := w.answerMaking id failure) w id _ _ _ rfl]
    exact ⟨rfl, rfl⟩
  · refine ⟨id, (·.closing), fun c => { c with closing := .opened failure }, .awaitClose, fun w => ?_⟩
    rw [answerAt_eq (r := w.answerClosing id failure) w id _ _ _ rfl]
    exact ⟨rfl, rfl⟩

end Hub

end SharedLinks
