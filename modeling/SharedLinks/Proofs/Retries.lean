import SharedLinks.Proofs.Drained

/-!
# Calls that look again

Between the moment at which a caller finds a handle and the moment at which it asks it for something,
another thread may end the handle. A call that is refused for this reason looks again, and nothing but
the state of the hub bounds how often. `acquireTurn`, `releaseTurn` and `requeueTurn` are the turns of the
three calls that do so, and `within` takes such turns up to a bound; a teardown moves tickets in the same
way (`firstPollWithin`).

With a handle in service that takes no new callers there may be no bound that is enough
(`spins_of_refusing`). As long as there is none each call ends in its first turn, with the result of
`acquire`, `release` or `requeue`. `retries_play` shows that no run of a hub leads to a state in which it is
otherwise, also not between the moments of a teardown's first poll.
-/

namespace SharedLinks

/-! ## Taking turns -/

/-- The result of the first turn that has one, if it comes within so many turns. -/
def within {σ α : Type} (turn : σ → α ⊕ σ) : Nat → σ → Option α
  | 0, _ => none
  | turns + 1, s =>
    match turn s with
    | .inl a => some a
    | .inr s' => within turn turns s'

section Within

variable {σ α : Type} {turn : σ → α ⊕ σ} {s : σ} {a : α}

theorem within_of_inl (h : turn s = .inl a) (turns : Nat) : within turn (turns + 1) s = some a := by
  rw [within, h]

/-- Turns that lead from some states to such states again have no end. -/
theorem within_eq_none {P : σ → Prop} (again : ∀ s, P s → ∃ s', turn s = .inr s' ∧ P s') (h : P s)
    (turns : Nat) : within turn turns s = none := by
  induction turns generalizing s with
  | zero => rfl
  | succ turns ih =>
    obtain ⟨s', hturn, hs'⟩ := again s h
    rw [within, hturn]
    exact ih hs'

end Within

namespace Hub

/-! ## The turns -/

/-- The handle that serves a key, or a new one if there is none; tells whether it is new. -/
def handleFor (w : Hub) (k : Key) : Hub × HandleId × Bool :=
  match w.serving k with
  | some h => (w, h, false)
  | none =>
    let h := w.nextHandle k
    ((w.addHandle k (.pending [])).setServing k (some h), h, true)

/-- Starts the creation of a handle that is new. -/
def startIfNew (w : Hub) (h : HandleId) (k : Key) (isNew : Bool) : Hub :=
  if isNew then w.startCreation h k else w

/-- Looks for a handle of the key and asks it for its link. -/
def acquireTurn (k : Key) (w : Hub) : (Hub × TicketId) ⊕ Hub :=
  let (w, h, isNew) := w.handleFor k
  match w.join h with
  | (w, some id) => .inl (w.startIfNew h k isNew, id)
  | (w, none) => .inr (w.note (.acquireRetried k))

/-- Asks for the link of a key until there is a ticket, up to so many times. -/
def acquireWithin (w : Hub) (turns : Nat) (k : Key) : Option (Hub × TicketId) :=
  within (acquireTurn k) turns (w.count .acquires)

/-- Gives one reference back to the first of some handles that takes it. -/
def giveBackAny (w : Hub) : List HandleId → Hub × Bool
  | [] => (w, false)
  | h :: hs =>
    match w.giveBack h false with
    | (w, .ok ()) => (w, true)
    | (w, .error _) => w.giveBackAny hs

/-- Looks for the orphans of the key and the handle that serves it, and gives one reference back to the
first orphan that takes it, or else to the handle in service. -/
def releaseTurn (k : Key) (w : Hub) : (Hub × Except LinkError Unit) ⊕ Hub :=
  let serving := w.serving k
  match w.giveBackAny (w.shelf k).orphans with
  | (w, true) => .inl (w, .ok ())
  | (w, false) =>
    match serving with
    | some h =>
      match w.giveBack h true with
      | (w, .ok ()) => .inl (w, .ok ())
      | (w, .error e) =>
        if (w.phase h).isClosed then .inr (w.note (.releaseRetried k)) else .inl (w, .error e)
    | none =>
      if (w.serving k).isSome then .inr w else .inl (w.note (.releaseIgnored k), .ok ())

/-- Gives back one reference on a key's link, trying up to so many times. -/
def releaseWithin (w : Hub) (turns : Nat) (k : Key) : Option (Hub × Except LinkError Unit) :=
  within (releaseTurn k) turns w

/-- Looks for a handle of the key and hands the tickets over to it, if there are any. -/
def requeueTurn (k : Key) : Hub × List TicketId → Hub ⊕ (Hub × List TicketId)
  | (w, []) => .inl w
  | (w, id :: ids) =>
    let (w, h, isNew) := w.handleFor k
    match w.adopt h (id :: ids) with
    | .ok w => .inl (w.startIfNew h k isNew)
    | .error refused => .inr (w, refused)

/-- Moves tickets to the handle that serves a key now, trying up to so many times. Those that were
dropped before are left behind. -/
def requeueWithin (w : Hub) (turns : Nat) (k : Key) (ids : List TicketId) : Option Hub :=
  within (requeueTurn k) turns (w, w.wanted ids)

/-- Takes a handle's link from its holders and closes it, or moves its tickets elsewhere, trying up to so
many times. -/
def forceCloseWithin (w : Hub) (turns : Nat) (h : HandleId) : Option (Hub × Part) :=
  match w.phase h with
  | .pending (id :: ids) =>
    let queue := id :: ids
    let w := (w.setPhase h .closed).forget h.key h
    ((w.note (.requeueing h.key queue.length)).requeueWithin turns h.key queue).map
      (·, .done (.ok ()))
  | .pending [] | .live _ _ | .orphaned _ | .closed => some (w.forceClose h)

/-- Force closes handles in order, each of them within so many turns. -/
def forceCloseEachWithin (w : Hub) (turns : Nat) : List HandleId → Option (Hub × List Part)
  | [] => some (w, [])
  | h :: hs => do
    let (w, part) ← w.forceCloseWithin turns h
    let (w, parts) ← w.forceCloseEachWithin turns hs
    return (w, part :: parts)

/-- The first poll of a teardown of everything, in which each handle is closed within so many turns. -/
def firstPollWithin (w : Hub) (turns : Nat) (index : Nat) (wish : List Key) :
    Option (Hub × Poll (Except LinkError Unit)) :=
  let (w, handles) := w.unlinkAll wish
  ((w.note (.tearingDown handles.length)).forceCloseEachWithin turns handles).map
    fun (w, parts) => w.concludeTeardown index .all parts

variable {w : Hub} {k : Key} {h : HandleId}

/-! ## Turns that have no result -/

theorem join_of_refusing (refusing : (w.phase h).isOpen = false) : w.join h = (w, none) := by
  unfold join
  cases hp : w.phase h with
  | live | pending =>
    rw [hp] at refusing
    contradiction
  | orphaned | closed => rfl

/-- A handle that takes no new callers hands tickets back as they are. -/
theorem adopt_of_refusing (refusing : (w.phase h).isOpen = false) (ids : List TicketId) :
    w.adopt h ids = .error ids := by
  unfold adopt
  cases hp : w.phase h with
  | live | pending =>
    rw [hp] at refusing
    contradiction
  | orphaned | closed => rfl

/-- While the handle in service takes no new callers, requests and moves of tickets have no end. -/
theorem spins_of_refusing (serving : w.serving k = some h) (refusing : (w.phase h).isOpen = false) :
    ∀ turns, w.acquireWithin turns k = none ∧
      ∀ ids, w.wanted ids ≠ [] → w.requeueWithin turns k ids = none := by
  refine fun turns => ⟨?_, fun ids some => ?_⟩
  · refine within_eq_none (P := fun u => u.serving k = some h ∧ (u.phase h).isOpen = false) ?_
      ⟨serving, refusing⟩ turns
    rintro u ⟨hs, hp⟩
    -- each turn leaves a notice, and the handle where it was
    refine ⟨u.note (.acquireRetried k), ?_, hs, hp⟩
    simp only [acquireTurn, handleFor, hs, join_of_refusing hp]
  · refine within_eq_none (P := fun s => s = (w, w.wanted ids)) ?_ rfl turns
    rintro s rfl
    refine ⟨_, ?_, rfl⟩
    obtain ⟨first, rest, hcons⟩ := List.exists_cons_of_ne_nil some
    simp only [hcons, requeueTurn, handleFor, serving, adopt_of_refusing refusing]

/-! ## New handles -/

/-- Whatever a new handle without tickets is given at once, it could have been made with. -/
theorem setPhase_new (w : Hub) (k : Key) (p q : Phase) :
    ((w.addHandle k p).setServing k (some (w.nextHandle k))).setPhase (w.nextHandle k) q =
      (w.addHandle k q).setServing k (some (w.nextHandle k)) := by
  have hkey : (w.nextHandle k).key = k := rfl
  simp only [setPhase, setServing, addHandle, hkey, onShelf_onShelf]
  apply onShelf_congr
  simp [nextHandle]

theorem phase_new (w : Hub) (k : Key) (p : Phase) :
    ((w.addHandle k p).setServing k (some (w.nextHandle k))).phase (w.nextHandle k) = p := by
  rw [phase, setServing, addHandle]
  simp [nextHandle]

/-- A new handle takes its first caller as if it had been made for that ticket. -/
theorem join_new (w : Hub) (k : Key) :
    ((w.addHandle k (.pending [])).setServing k (some (w.nextHandle k))).join (w.nextHandle k) =
      ((((w.addTicket k .fresh).count .waits).addHandle k (.pending [w.nextTicket k])).setServing k
        (some (w.nextHandle k)), some (w.nextTicket k)) := by
  have hkey : (w.nextHandle k).key = k := rfl
  have hticket : ((w.addHandle k (.pending [])).setServing k (some (w.nextHandle k))).nextTicket k =
      w.nextTicket k := by
    simp [nextTicket, addHandle, setServing]
  have hcount : ∀ (u : Hub) f, (u.onShelf k f).count .waits = (u.count .waits).onShelf k f :=
    fun _ _ => rfl
  simp only [join, phase_new, hkey, hticket, List.nil_append, Prod.mk.injEq, and_true]
  simp only [addTicket, setPhase, setServing, addHandle, hkey, onShelf_onShelf, hcount]
  apply onShelf_congr
  simp [nextHandle]

/-! ## Turns that have a result -/

/-- A handle that takes new callers takes tickets over, and so does a new one. -/
theorem requeueWithin_eq (opened : ∀ h, w.serving k = some h → (w.phase h).isOpen = true)
    (turns : Nat) (ids : List TicketId) :
    w.requeueWithin (turns + 1) k ids = some (w.requeue k ids) := by
  apply within_of_inl
  unfold requeue
  rw [← wanted]
  cases hids : w.wanted ids with
  | nil => rfl
  | cons first rest =>
    cases hs : w.serving k with
    | none =>
      have hphase := phase_new w k (.pending [])
      have hadopt : ((w.addHandle k (.pending [])).setServing k (some (w.nextHandle k))).adopt
          (w.nextHandle k) (first :: rest) =
          .ok ((w.addHandle k (.pending (first :: rest))).setServing k (some (w.nextHandle k))) := by
        simp only [adopt, hphase, setPhase_new, List.nil_append]
      simp only [requeueTurn, handleFor, hs, hadopt, startIfNew, if_true]
      rfl
    | some h =>
      have hopen := opened h hs
      simp only [requeueTurn, handleFor, hs, adopt]
      cases hp : w.phase h with
      | live | pending => rfl
      | orphaned | closed =>
        rw [hp] at hopen
        contradiction

/-- A handle that takes new callers gives a ticket, and so does a new one. -/
theorem acquireWithin_eq (opened : ∀ h, w.serving k = some h → (w.phase h).isOpen = true)
    (turns : Nat) : w.acquireWithin (turns + 1) k = some (w.acquire k) := by
  apply within_of_inl
  unfold acquire
  dsimp only
  cases hs : (w.count .acquires).serving k with
  | none =>
    have hnext : (((w.count .acquires).addTicket k .fresh).count .waits).nextHandle k =
        (w.count .acquires).nextHandle k := by
      simp [nextHandle, addTicket]
    simp only [acquireTurn, handleFor, hs, join_new, startIfNew, if_true, joinFresh, openHandle, hnext]
  | some h =>
    obtain ⟨id, hid⟩ := exists_join (w := w.count .acquires) (opened h hs)
    cases hj : (w.count .acquires).join h with
    | mk u answer =>
      rw [hj] at hid
      obtain rfl : answer = some id := hid
      simp only [acquireTurn, handleFor, hs, hj, startIfNew, Bool.false_eq_true, if_false]

/-- A handle that takes no reference back is as before, and so are all others. -/
theorem phase_giveBack_error {u : Hub} {report : Bool} {e : LinkError}
    (hr : w.giveBack h report = (u, .error e)) (hd : HandleId) :
    u.phase hd = w.phase hd ∧ (report = false → u = w) := by
  unfold giveBack at hr
  split at hr
  · simp at hr
  · simp at hr
  · simp at hr
  · simp at hr
  · obtain ⟨rfl, -⟩ := Prod.mk.inj hr
    split
    · rename_i hreport
      exact ⟨rfl, by simp_all⟩
    · exact ⟨rfl, fun _ => rfl⟩

/-- Handles that were asked in vain have not changed anything. -/
theorem giveBackAny_eq (w : Hub) (hs : List HandleId) :
    w.giveBackAny hs =
      match w.giveBackFirst hs with
      | some w => (w, true)
      | none => (w, false) := by
  induction hs with
  | nil => rfl
  | cons h hs ih =>
    unfold giveBackAny giveBackFirst
    cases hr : w.giveBack h false with
    | mk u answer =>
      cases answer with
      | ok => rfl
      | error e =>
        obtain rfl := (phase_giveBack_error hr h).2 rfl
        exact ih

/-- A handle that takes new callers is not closed when it refuses a reference. -/
theorem releaseWithin_eq (opened : ∀ h, w.serving k = some h → (w.phase h).isOpen = true)
    (turns : Nat) : w.releaseWithin (turns + 1) k = some (w.release k) := by
  apply within_of_inl
  unfold releaseTurn release
  -- orphans that were asked in vain leave the handle in service that was looked up before them
  rw [giveBackAny_eq]
  cases w.giveBackFirst (w.shelf k).orphans with
  | some u => rfl
  | none =>
    cases hs : w.serving k with
    | none => simp [hs]
    | some h =>
      have hclosed : (w.phase h).isClosed = false := by
        have hopen := opened h hs
        cases hp : w.phase h with
        | live | pending | orphaned => rfl
        | closed =>
          rw [hp] at hopen
          contradiction
      cases hr : w.giveBack h true with
      | mk u answer =>
        cases answer with
        | ok => simp [hclosed, hr]
        | error e => simp [hclosed, hr, (phase_giveBack_error hr h).1]

/-! ## Teardowns -/

/-- The tickets of a handle go to a new one while the key has none. -/
theorem forceCloseWithin_eq (free : w.serving h.key = none) (turns : Nat) :
    w.forceCloseWithin (turns + 1) h = some (w.forceClose h) := by
  unfold forceCloseWithin
  split
  · rename_i id ids hp
    let u := ((w.setPhase h .closed).forget h.key h).note (.requeueing h.key (id :: ids).length)
    have hfree : u.serving h.key = none := by
      refine serving_forget_of_none (w := w.setPhase h .closed) ?_
      rw [serving_eq, setPhase_eq, shelf_onShelf_self]
      exact free
    have hrequeue : u.requeueWithin (turns + 1) h.key (id :: ids) =
        some (u.requeue h.key (id :: ids)) :=
      requeueWithin_eq (fun hd hs => by simp [hfree] at hs) turns (id :: ids)
    have hclose : w.forceClose h = (u.requeue h.key (id :: ids), .done (.ok ())) := by
      simp only [forceClose, hp]
      rfl
    rw [hclose]
    exact congrArg (Option.map (·, Part.done (.ok ()))) hrequeue
  all_goals rfl

/-- Handles that a teardown has taken out of service leave their keys without one, and each key has one
handle among them at most. -/
theorem forceCloseEachWithin_eq {w₀ : Hub} {hs : List HandleId} (out : Withdrawn w₀ w hs)
    (held : w₀.isHeld = true) (orderly : ∀ k, (w₀.shelf k).Orderly k) (turns : Nat) :
    w.forceCloseEachWithin (turns + 1) hs = some (w.forceCloseEach hs) := by
  induction hs generalizing w with
  | nil => rfl
  | cons h hs ih =>
    have hfree : w.serving h.key = none := by
      rw [serving_eq, out.shelf h (by simp)]
      rfl
    obtain ⟨-, -, -, hrest⟩ := out.forceClose held orderly
    simp only [forceCloseEachWithin, forceCloseWithin_eq hfree, Option.bind_eq_bind,
      Option.bind_some, ih hrest]
    rfl

/-! ## Runs -/

/-- In every state of a run one turn is enough for a call for a link, for the release of one, and for
each move of tickets in the first poll of a teardown. -/
theorem retries_play {settings : Settings} {seed : UInt64} {ambient : Option Dispatch} {w₀ : Hub}
    (built : settings.build seed ambient = .ok w₀) {ms : List Move}
    (held : (w₀.play ms).isHeld = true) (turns : Nat) :
    (∀ k, (w₀.play ms).acquireWithin (turns + 1) k = some ((w₀.play ms).acquire k) ∧
      (w₀.play ms).releaseWithin (turns + 1) k = some ((w₀.play ms).release k)) ∧
    ∀ i wish, (w₀.play ms).teardowns[i]? = some ⟨.all, .idle⟩ →
      (w₀.play ms).firstPollWithin (turns + 1) i wish = some ((w₀.play ms).pollTeardown i wish) := by
  have hsound := (sound_build built).play held
  have hopened : ∀ k h, (w₀.play ms).serving k = some h → ((w₀.play ms).phase h).isOpen = true := by
    intro k h hs
    obtain ⟨hkey, hopen⟩ := ((hsound.orderly k).placed.serving_iff h).mp hs
    rwa [phase_eq, hkey]
  refine ⟨fun k => ⟨acquireWithin_eq (hopened k) turns, releaseWithin_eq (hopened k) turns⟩,
    fun i wish idle => ?_⟩
  obtain ⟨hout, -⟩ := withdrawn_unlinkAll hsound.orderly wish
    (.tearingDown ((w₀.play ms).unlinkAll wish).2.length)
  simp only [firstPollWithin, forceCloseEachWithin_eq hout held hsound.orderly, pollTeardown, idle,
    beginTeardown, Option.map_some]

/-- Two handles wait for their links when a teardown is polled for the first time. -/
theorem retries_play_serveTwo : (sample.play serveTwo).isHeld = true ∧
    (sample.play serveTwo).teardowns[0]? = some ⟨.all, .idle⟩ ∧
    (sample.play serveTwo).acquireWithin 1 sampleKey =
      some ((sample.play serveTwo).acquire sampleKey) ∧
    (sample.play serveTwo).releaseWithin 1 sampleKey =
      some ((sample.play serveTwo).release sampleKey) ∧
    (sample.play serveTwo).firstPollWithin 1 0 [] =
      some ((sample.play serveTwo).pollTeardown 0 []) := by
  have hheld : (sample.play serveTwo).isHeld = true := by decide
  obtain ⟨hcalls, hpoll⟩ := retries_play build_sample hheld 0
  obtain ⟨hacquire, hrelease⟩ := hcalls sampleKey
  exact ⟨hheld, rfl, hacquire, hrelease, hpoll 0 [] rfl⟩

end Hub

end SharedLinks
