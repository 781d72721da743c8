import SharedLinks.Proofs.Calls
import SharedLinks.Proofs.Moves

/-!
# Who keeps a hub

A hub is held by callers and by teardowns under way. What happens to links, tickets and jobs does not
change that: `keepers` is the same after each of these calls. So a hub that nobody holds any more is
never held again (`isHeld_of_move`).
-/

namespace SharedLinks

namespace Hub

/-- The callers who hold the hub, by number, and the teardowns. -/
def keepers (w : Hub) : Nat × List Teardown := (w.clones, w.teardowns)

@[simp] theorem keepers_note (w : Hub) (n : Notice) : (w.note n).keepers = w.keepers := rfl

@[simp] theorem keepers_emit (w : Hub) (e : Event) : (w.emit e).keepers = w.keepers := rfl

@[simp] theorem keepers_countBy (w : Hub) (c : Counter) (n : Nat) :
    (w.countBy c n).keepers = w.keepers := rfl

@[simp] theorem keepers_count (w : Hub) (c : Counter) : (w.count c).keepers = w.keepers := rfl

@[simp] theorem keepers_onShelf (w : Hub) (k : Key) (f : Shelf → Shelf) :
    (w.onShelf k f).keepers = w.keepers := rfl

@[simp] theorem keepers_setPhase (w : Hub) (h : HandleId) (p : Phase) :
    (w.setPhase h p).keepers = w.keepers := rfl

@[simp] theorem keepers_setTicket (w : Hub) (id : TicketId) (t : Ticket) :
    (w.setTicket id t).keepers = w.keepers := by
  cases id <;> rfl

@[simp] theorem keepers_onCreation (w : Hub) (id : LinkId) (f : Creation → Creation) :
    (w.onCreation id f).keepers = w.keepers := by
  cases id <;> rfl

@[simp] theorem keepers_markDelivered (w : Hub) (id : LinkId) :
    (w.markDelivered id).keepers = w.keepers :=
  keepers_onCreation w id _

@[simp] theorem keepers_forget (w : Hub) (k : Key) (h : HandleId) :
    (w.forget k h).keepers = w.keepers := by
  unfold forget
  split
  · split <;> rfl
  · rfl

@[simp] theorem keepers_settle (w : Hub) (id : TicketId) (outcome : Outcome)
    (refund : Option Refund) : (w.settle id outcome refund).1.keepers = w.keepers := by
  unfold settle
  split
  · rfl
  · unfold wake
    split <;> simp

@[simp] theorem keepers_grant (w : Hub) (h : HandleId) (link : Link) (ids : List TicketId) :
    (w.grant h link ids).1.keepers = w.keepers := by
  induction ids generalizing w with
  | nil => rfl
  | cons id ids ih => exact (ih _).trans (keepers_settle w id _ _)

@[simp] theorem keepers_refuse (w : Hub) (error : LinkError) (ids : List TicketId) :
    (w.refuse error ids).keepers = w.keepers := by
  induction ids generalizing w with
  | nil => rfl
  | cons id ids ih => exact (ih _).trans (keepers_settle w id _ _)

@[simp] theorem keepers_awaitClose (w : Hub) (h : HandleId) (link : Link) :
    (w.awaitClose h link).1.keepers = w.keepers := by
  unfold awaitClose
  split <;> rfl

@[simp] theorem keepers_workAwaitClose (w : Hub) (j : Job) :
    (w.workAwaitClose j).1.keepers = w.keepers := by
  have h := keepers_awaitClose w j.owner j.link
  unfold workAwaitClose
  split <;> simp_all

@[simp] theorem keepers_workClose (w : Hub) (j : Job) : (w.workClose j).1.keepers = w.keepers :=
  keepers_workAwaitClose (w.beginClose j.owner j.link) j

@[simp] theorem keepers_fulfil (w : Hub) (h : HandleId) (link : Link) :
    (w.fulfil h link).1.keepers = w.keepers := by
  unfold fulfil
  split
  · dsimp only
    split <;> simp
  · rfl
  · rfl
  · rfl

@[simp] theorem keepers_fail (w : Hub) (h : HandleId) (failure : String) :
    (w.fail h failure).keepers = w.keepers := by
  unfold fail
  dsimp only
  split <;> simp

/-- A job at work does not change who holds the hub. -/
@[simp] theorem keepers_work (w : Hub) (j : Job) : (w.work j).1.keepers = w.keepers := by
  unfold work
  split
  · split
    · rfl
    · simp
    · have h := keepers_fulfil (w.markDelivered j.link.id) j.owner j.link
      split <;> simp_all
  · simp
  · simp

@[simp] theorem keepers_spawn (w : Hub) (j : Job) : (w.spawn j).keepers = w.keepers := by
  have h := keepers_work w j
  unfold spawn
  split
  · rfl
  · split <;> simp_all [keepers]
  · rfl

@[simp] theorem keepers_runJob (w : Hub) (id : JobId) : (w.runJob id).1.keepers = w.keepers := by
  unfold runJob
  split
  · rfl
  · rename_i j _
    have h := keepers_work (w.unready id) j
    split <;> simp_all [keepers, removeJob, setStage, unready]

@[simp] theorem keepers_giveBack (w : Hub) (h : HandleId) (report : Bool) :
    (w.giveBack h report).1.keepers = w.keepers := by
  unfold giveBack
  split
  · rfl
  · simp
  · rfl
  · simp
  · dsimp only
    split <;> rfl

theorem keepers_pollTicket (w : Hub) (id : TicketId) : (w.pollTicket id).1.keepers = w.keepers := by
  unfold pollTicket
  split <;> simp

theorem keepers_parkTicket (w : Hub) (id : TicketId) : (w.parkTicket id).1.keepers = w.keepers := by
  unfold parkTicket
  split <;> simp

theorem keepers_dropTicket (w : Hub) (id : TicketId) : (w.dropTicket id).keepers = w.keepers := by
  unfold dropTicket
  split
  · rfl
  · split
    · simp
    · rename_i r _
      cases r <;> simp [refund]

theorem keepers_answerMaking (w : Hub) (id : LinkId) (failure : Option String) :
    (((w.answerMaking id failure).map Prod.fst).getD w).keepers = w.keepers := by
  unfold answerMaking
  cases w.creation? id with
  | none => rfl
  | some c =>
    simp only [Option.map_some, Option.getD_some]
    split
    · rfl
    · exact keepers_onCreation w id _

theorem keepers_answerClosing (w : Hub) (id : LinkId) (failure : Option String) :
    (((w.answerClosing id failure).map Prod.fst).getD w).keepers = w.keepers := by
  unfold answerClosing
  cases w.creation? id with
  | none => rfl
  | some c =>
    simp only [Option.map_some, Option.getD_some]
    split
    · rfl
    · exact keepers_onCreation w id _

/-! ## Teardowns -/

@[simp] theorem keepers_openHandle (w : Hub) (k : Key) (queue : List TicketId) :
    (w.openHandle k queue).keepers = w.keepers := by
  obtain ⟨c, w', hq, -, -, -, -, hstart⟩ := startCreation_spec
    ((w.addHandle k (.pending queue)).setServing k (some (w.nextHandle k))) (w.nextHandle k) k
  unfold openHandle
  simp only
  rw [hstart, keepers_spawn, keepers, hq.frame.clones, hq.frame.teardowns]
  rfl

@[simp] theorem keepers_purge (w : Hub) : w.purge.keepers = w.keepers := by
  unfold purge
  generalize w.servedKeys = ks
  induction ks generalizing w with
  | nil => rfl
  | cons k ks ih =>
    rw [List.foldl_cons, ih]
    unfold purgeKey
    split
    · rfl
    · split <;> rfl

theorem keepers_adopt {w w' : Hub} {h : HandleId} {ids : List TicketId}
    (hw : w.adopt h ids = .ok w') : w'.keepers = w.keepers := by
  unfold adopt at hw
  split at hw
  · obtain rfl := Except.ok.inj hw
    rfl
  · obtain rfl := Except.ok.inj hw
    simp
  · contradiction
  · contradiction

@[simp] theorem keepers_requeue (w : Hub) (k : Key) (ids : List TicketId) :
    (w.requeue k ids).keepers = w.keepers := by
  unfold requeue
  split
  · rfl
  · split
    · simp
    · split
      · rename_i hadopt
        exact keepers_adopt hadopt
      · simp

@[simp] theorem keepers_awaitPart (w : Hub) (h : HandleId) (link : Link) :
    (w.awaitPart h link).1.keepers = w.keepers := by
  have hs := keepers_awaitClose w h link
  unfold awaitPart
  split <;> simp_all

@[simp] theorem keepers_forceClose (w : Hub) (h : HandleId) :
    (w.forceClose h).1.keepers = w.keepers := by
  unfold forceClose
  split
  · simp [beginClose]
  · dsimp only
    split <;> simp
  · rfl
  · rfl

@[simp] theorem keepers_forceCloseEach (w : Hub) (hs : List HandleId) :
    (w.forceCloseEach hs).1.keepers = w.keepers := by
  induction hs generalizing w with
  | nil => rfl
  | cons h hs ih => exact (ih _).trans (keepers_forceClose w h)

theorem keepers_foldl_unlink (w : Hub) (ks : List Key) :
    (ks.foldl unlink w).keepers = w.keepers := by
  induction ks generalizing w with
  | nil => rfl
  | cons k ks ih =>
    rw [List.foldl_cons, ih]
    unfold unlink
    split <;> rfl

@[simp] theorem keepers_beginTeardown (w : Hub) (scope : Scope) (wish : List Key) :
    (w.beginTeardown scope wish).1.keepers = w.keepers := by
  cases scope with
  | one h => exact keepers_forceCloseEach w [h]
  | all => exact (keepers_forceCloseEach _ _).trans (keepers_foldl_unlink w _)

@[simp] theorem keepers_awaitParts (w : Hub) (parts : List Part) :
    (w.awaitParts parts).1.keepers = w.keepers := by
  induction parts generalizing w with
  | nil => rfl
  | cons part parts ih =>
    cases part with
    | closing h link => exact (ih _).trans (keepers_awaitPart w h link)
    | done result => exact ih w

@[simp] theorem keepers_noteIfAbandoned (w : Hub) : w.noteIfAbandoned.keepers = w.keepers := by
  unfold noteIfAbandoned
  split <;> rfl

/-- A teardown that was polled is somewhere else in its life, with the same scope. -/
theorem keepers_concludeTeardown (w : Hub) (i : Nat) (scope : Scope) (parts : List Part) :
    ∃ state, (w.concludeTeardown i scope parts).1.keepers =
      (w.clones, w.teardowns.set i ⟨scope, state⟩) := by
  unfold concludeTeardown
  split
  · exact ⟨.running parts, rfl⟩
  · refine ⟨.finished, ?_⟩
    have hresult : (w.teardownResult scope parts).1.keepers = w.keepers := by
      unfold teardownResult
      split <;> rfl
    obtain ⟨hc, ht⟩ := Prod.mk.inj hresult
    rw [keepers_noteIfAbandoned, keepers, setTeardown]
    simp only [hc, ht]

/-- Polling a teardown changes no other one and no caller. -/
theorem keepers_pollTeardown (w : Hub) (i : Nat) (wish : List Key) :
    (w.pollTeardown i wish).1.keepers = w.keepers ∨ ∃ t state, w.teardowns[i]? = some t ∧
      t.holds = true ∧ (w.pollTeardown i wish).1.keepers =
        (w.clones, w.teardowns.set i ⟨t.scope, state⟩) := by
  unfold pollTeardown
  split
  · rename_i scope ht
    obtain ⟨state, hstate⟩ := keepers_concludeTeardown (w.beginTeardown scope wish).1 i scope
      (w.beginTeardown scope wish).2
    obtain ⟨hc, hts⟩ := Prod.mk.inj (keepers_beginTeardown w scope wish)
    refine Or.inr ⟨_, state, ht, rfl, ?_⟩
    rw [← hc, ← hts]
    exact hstate
  · rename_i scope parts ht
    obtain ⟨state, hstate⟩ := keepers_concludeTeardown (w.awaitParts parts).1 i scope
      (w.awaitParts parts).2
    obtain ⟨hc, hts⟩ := Prod.mk.inj (keepers_awaitParts w parts)
    refine Or.inr ⟨_, state, ht, rfl, ?_⟩
    rw [← hc, ← hts]
    exact hstate
  · exact Or.inl rfl
  · exact Or.inl rfl
  · exact Or.inl rfl

/-! ## Moves -/

/-- What a move can do to the callers and the teardowns of a hub. -/
inductive Kept : Nat × List Teardown → Nat × List Teardown → Prop where
  /-- Nothing. -/
  | same (p : Nat × List Teardown) : Kept p p
  /-- A caller makes a teardown. -/
  | made {n : Nat} (ts : List Teardown) (held : 0 < n) : Kept (n, ts) (n, ts ++ [⟨.all, .idle⟩])
  /-- A caller takes in another. -/
  | entered {n : Nat} (ts : List Teardown) (held : 0 < n) : Kept (n, ts) (n + 1, ts)
  /-- A caller leaves. -/
  | left {n : Nat} (ts : List Teardown) (held : 0 < n) : Kept (n, ts) (n - 1, ts)
  /-- A teardown goes on; one that is over is given up at most. -/
  | moved {n : Nat} {ts : List Teardown} {i : Nat} {t : Teardown} {state : TeardownState}
      (found : ts[i]? = some t) (ended : t.holds = false → state = .dropped) :
      Kept (n, ts) (n, ts.set i ⟨t.scope, state⟩)

theorem kept_asked {w : Hub} {f : Hub → Hub} (h : 0 < w.clones → Kept w.keepers (f w).keepers) :
    Kept w.keepers (w.asked f).keepers :=
  asked_induction (P := fun w' => Kept w.keepers w'.keepers) (fun _ => .same _) h

theorem kept_of_eq {w w' : Hub} (h : w'.keepers = w.keepers) : Kept w.keepers w'.keepers := by
  rw [h]
  exact .same _

theorem keepers_acquire (w : Hub) (k : Key) : (w.acquire k).1.keepers = w.keepers := by
  have hjoin : ∀ (w : Hub) (h : HandleId), (w.join h).1.keepers = w.keepers := by
    intro w h
    unfold join
    split <;> rfl
  have hfresh : ∀ w : Hub, (w.joinFresh k).1.keepers = w.keepers := by
    intro w
    unfold joinFresh
    exact (keepers_openHandle _ k _).trans rfl
  unfold acquire
  dsimp only
  split
  · rw [hfresh]
    rfl
  · rename_i h _
    have hj := hjoin (w.count .acquires) h
    split
    · simp_all
    · rw [hfresh]
      simp_all

theorem keepers_release (w : Hub) (k : Key) : (w.release k).1.keepers = w.keepers := by
  have hfirst : ∀ (hs : List HandleId) (w' : Hub), w.giveBackFirst hs = some w' →
      w'.keepers = w.keepers := by
    intro hs
    induction hs with
    | nil =>
      intro w' h
      contradiction
    | cons h hs ih =>
      intro w' hw
      have hgive := keepers_giveBack w h false
      unfold giveBackFirst at hw
      split at hw
      · rename_i heq
        rw [heq] at hgive
        rw [← Option.some.inj hw]
        exact hgive
      · exact ih w' hw
  unfold release
  split
  · rename_i w' hw
    exact hfirst _ w' hw
  · split
    · rfl
    · split
      · simp
      · exact keepers_giveBack w _ true

/-- What each move does to the callers and the teardowns. -/
theorem kept_move (w : Hub) (m : Move) : Kept w.keepers (w.move m).keepers := by
  cases m with
  | acquire k => exact kept_asked fun _ => kept_of_eq (keepers_acquire w k)
  | release k => exact kept_asked fun _ => kept_of_eq (keepers_release w k)
  | poll k n => exact kept_of_eq (keepers_pollTicket w _)
  | park k n => exact kept_of_eq (keepers_parkTicket w _)
  | drop k n => exact kept_of_eq (keepers_dropTicket w _)
  | tearDown => exact kept_asked fun hc => .made w.teardowns hc
  | pollTeardown i wish =>
    rcases keepers_pollTeardown w i wish with e | ⟨t, state, found, hholds, e⟩
    · exact kept_of_eq e
    · rw [show (w.move (.pollTeardown i wish)).keepers = _ from e]
      exact .moved found fun hover => by simp [hholds] at hover
  | dropTeardown i =>
    change Kept w.keepers (w.dropTeardown i).keepers
    unfold dropTeardown
    split
    · exact .same _
    · rename_i t ht
      have hmoved : Kept w.keepers (w.setTeardown i t.scope .dropped).keepers :=
        .moved ht fun _ => rfl
      dsimp only
      split
      · rwa [keepers_noteIfAbandoned]
      · exact hmoved
  | runJob id => exact kept_of_eq (keepers_runJob w id)
  | abortJob id => exact .same _
  | answerMaking id failure => exact kept_of_eq (keepers_answerMaking w id failure)
  | answerClosing id failure => exact kept_of_eq (keepers_answerClosing w id failure)
  | clone => exact kept_asked fun hc => .entered w.teardowns hc
  | dropClone =>
    change Kept w.keepers w.dropClone.keepers
    unfold dropClone
    split
    · exact .same _
    · rw [keepers_noteIfAbandoned]
      exact .left w.teardowns (by omega)

variable {w : Hub} {m : Move}

/-- Only its own polls and its end change a teardown. -/
theorem teardown_move {i : Nat} (made : i < w.teardowns.length)
    (polls : ∀ wish, m ≠ .pollTeardown i wish) (drops : m ≠ .dropTeardown i) :
    (w.move m).teardowns[i]? = w.teardowns[i]? := by
  have hsame : ∀ {u : Hub}, u.keepers = w.keepers → u.teardowns[i]? = w.teardowns[i]? :=
    fun h => by rw [(Prod.mk.inj h).2]
  have hset : ∀ {u : Hub} {j : Nat} {t : Teardown}, j ≠ i →
      u.keepers = (w.clones, w.teardowns.set j t) → u.teardowns[i]? = w.teardowns[i]? :=
    fun hj h => by rw [(Prod.mk.inj h).2, List.getElem?_set_ne hj]
  have hasked : ∀ f : Hub → Hub, (f w).teardowns[i]? = w.teardowns[i]? →
      (w.asked f).teardowns[i]? = w.teardowns[i]? := fun f hf =>
    asked_induction (P := fun u => u.teardowns[i]? = w.teardowns[i]?) (fun _ => rfl) fun _ => hf
  cases m with
  | acquire k => exact hasked _ (hsame (keepers_acquire w k))
  | release k => exact hasked _ (hsame (keepers_release w k))
  | poll k n => exact hsame (keepers_pollTicket w _)
  | park k n => exact hsame (keepers_parkTicket w _)
  | drop k n => exact hsame (keepers_dropTicket w _)
  | tearDown => exact hasked _ (List.getElem?_append_left made)
  | pollTeardown j wish =>
    rcases keepers_pollTeardown w j wish with e | ⟨t, state, -, -, e⟩
    · exact hsame e
    · refine hset ?_ e
      rintro rfl
      exact polls wish rfl
  | dropTeardown j =>
    change (w.dropTeardown j).teardowns[i]? = _
    unfold dropTeardown
    split
    · rfl
    · rename_i t ht
      have hmoved : (w.setTeardown j t.scope .dropped).teardowns[i]? = w.teardowns[i]? := by
        refine hset ?_ rfl
        rintro rfl
        exact drops rfl
      dsimp only
      split
      · rwa [(Prod.mk.inj (keepers_noteIfAbandoned _)).2]
      · exact hmoved
  | runJob id => exact hsame (keepers_runJob w id)
  | abortJob id => rfl
  | answerMaking id failure => exact hsame (keepers_answerMaking w id failure)
  | answerClosing id failure => exact hsame (keepers_answerClosing w id failure)
  | clone => exact hasked _ rfl
  | dropClone =>
    change w.dropClone.teardowns[i]? = _
    unfold dropClone
    split
    · rfl
    · rw [(Prod.mk.inj (keepers_noteIfAbandoned _)).2]

/-- Only a caller who holds the hub can hand it on. -/
theorem clones_of_move (h : 0 < (w.move m).clones) : 0 < w.clones := by
  have hkept := kept_move w m
  change 0 < (w.move m).keepers.1 at h
  change 0 < w.keepers.1
  generalize w.keepers = p, (w.move m).keepers = q at *
  cases hkept with
  | same => exact h
  | made ts held => exact held
  | entered ts held => exact held
  | left ts held => exact held
  | moved => exact h

/-- Once nobody holds the hub, nobody ever does again. -/
theorem isHeld_of_move (h : (w.move m).isHeld = true) : w.isHeld = true := by
  have hkept := kept_move w m
  change (decide (0 < (w.move m).keepers.1) || (w.move m).keepers.2.any Teardown.holds) = true at h
  change (decide (0 < w.keepers.1) || w.keepers.2.any Teardown.holds) = true
  generalize w.keepers = p, (w.move m).keepers = q at *
  cases hkept with
  | same => exact h
  | made ts held => simp [held]
  | entered ts held => simp [held]
  | left ts held => simp [held]
  | @moved n ts i t state found ended =>
    simp only [Bool.or_eq_true, decide_eq_true_iff, List.any_eq_true] at h ⊢
    rcases h with hn | ⟨t', hm, hholds⟩
    · exact Or.inl hn
    · rcases List.mem_or_eq_of_mem_set hm with hold | rfl
      · exact Or.inr ⟨t', hold, hholds⟩
      · refine Or.inr ⟨t, List.mem_of_getElem? found, ?_⟩
        cases ht : t.holds with
        | true => rfl
        | false =>
          rw [ended ht] at hholds
          contradiction

/-- Teardowns are made of everything. -/
theorem scope_of_move (h : ∀ t ∈ w.teardowns, t.scope = .all) :
    ∀ t ∈ (w.move m).teardowns, t.scope = .all := by
  have hkept := kept_move w m
  change ∀ t ∈ w.keepers.2, t.scope = .all at h
  change ∀ t ∈ (w.move m).keepers.2, t.scope = .all
  generalize w.keepers = p, (w.move m).keepers = q at *
  cases hkept with
  | same => exact h
  | made ts held =>
    intro t ht
    rcases List.mem_append.mp ht with hold | hnew
    · exact h t hold
    · rw [List.mem_singleton.mp hnew]
  | entered ts held => exact h
  | left ts held => exact h
  | @moved n ts i t₀ state found ended =>
    intro t ht
    rcases List.mem_or_eq_of_mem_set ht with hold | rfl
    · exact h t hold
    · exact (h t₀ (List.mem_of_getElem? found) : t₀.scope = .all)

end Hub

end SharedLinks
