import SharedLinks.Proofs.Creations

/-!
# Where links lead to

A request names an address and some properties, and the provider goes by these alone. The address is
the path of the key before the node, with a separator that may occur in either; the transfer path is
a property that is there only if the key has one. At one node both can be read off again, so
requests lead to the same destination exactly if their keys are equal
(`Request.sameDestination_make_iff`).

A hub keeps its node, and everything that it asks the provider for is `Addressed` to it. So whatever
is done to a hub, no two of its keys ever share a destination, and no key ever has two
(`destinations_perform`).
-/

namespace SharedLinks

/-! ## Requests at one node -/

namespace Request

/-- The value of a property of the link, if it has it. -/
def property? (r : Request) (name : String) : Option String := r.properties.lookup name

/-- The requests are for links to one address with the same properties. -/
structure SameDestination (r r' : Request) : Prop where
  target : r.target = r'.target
  properties : ∀ name, r.property? name = r'.property? name

variable {k k' : Key} {name name' node : String}

/-- What comes before the separator and the node is the path. -/
theorem path_eq_of_target (h : (make k name node).target = (make k' name' node).target) :
    k.path = k'.path := by
  have hchars := congrArg String.toList h
  simp only [make, String.toList_append] at hchars
  exact String.toList_inj.mp (List.append_cancel_right (List.append_cancel_right hchars))

/-- The transfer path is a property, and a missing one is a missing property. -/
theorem property?_make (k : Key) (name node : String) :
    (make k name node).property? transferProperty = k.transfer := by
  obtain ⟨path, transfer⟩ := k
  cases transfer with
  | none => rfl
  | some transfer => simp [property?, make]

/-- The name of a link does not show in where it leads to. -/
theorem sameDestination_make (k : Key) (name name' node : String) :
    (make k name node).SameDestination (make k name' node) :=
  ⟨rfl, fun _ => rfl⟩

/-- At one node, no two keys have the same destination. -/
theorem sameDestination_make_iff :
    (make k name node).SameDestination (make k' name' node) ↔ k = k' := by
  constructor
  · rintro ⟨htarget, hproperties⟩
    -- the address gives the path and the properties the transfer path, which is all of a key
    have hpath := path_eq_of_target htarget
    have htransfer := hproperties transferProperty
    rw [property?_make, property?_make] at htransfer
    cases k
    cases k'
    simp only [Key.mk.injEq]
    exact ⟨hpath, htransfer⟩
  · rintro rfl
    exact sameDestination_make k name name' node

end Request

namespace Hub

/-! ## Requests of a hub

The node of a hub never changes, and only `startCreation` asks the provider for anything. -/

/-- The hub is at this node, and all that it has asked for is addressed to it. -/
structure Addressed (node : String) (w : Hub) : Prop where
  stays : w.node = node
  requests : ∀ id r, .create id r ∈ w.events → ∃ k name, r = .make k name node

namespace Addressed

section Calls

variable {node : String} {w w' : Hub} (h : w.Addressed node)

include h

/-- Nothing was asked for since. -/
theorem of_eq (stays : w'.node = w.node) (events : w'.events = w.events) : w'.Addressed node where
  stays := stays.trans h.stays
  requests := by
    rw [events]
    exact h.requests

theorem note (n : Notice) : (w.note n).Addressed node := h.of_eq rfl rfl

theorem countBy (c : Counter) (n : Nat) : (w.countBy c n).Addressed node := h.of_eq rfl rfl

theorem count (c : Counter) : (w.count c).Addressed node := h.of_eq rfl rfl

theorem onShelf (k : Key) (f : Shelf → Shelf) : (w.onShelf k f).Addressed node := h.of_eq rfl rfl

theorem emit {e : Event} (he : ∀ id r, e = .create id r → ∃ k name, r = .make k name node) :
    (w.emit e).Addressed node := by
  refine ⟨h.stays, fun id r hm => ?_⟩
  rcases List.mem_cons.mp hm with rfl | hm
  · exact he id r rfl
  · exact h.requests id r hm

theorem setPhase (hd : HandleId) (p : Phase) : (w.setPhase hd p).Addressed node := h.onShelf _ _

theorem setServing (k : Key) (hd : Option HandleId) : (w.setServing k hd).Addressed node :=
  h.onShelf _ _

theorem addHandle (k : Key) (p : Phase) : (w.addHandle k p).Addressed node := h.onShelf _ _

theorem addTicket (k : Key) (t : Ticket) : (w.addTicket k t).Addressed node := h.onShelf _ _

theorem setTicket (id : TicketId) (t : Ticket) : (w.setTicket id t).Addressed node := by
  cases id with
  | forKey k n => exact h.onShelf k _
  | loose n => exact h.of_eq rfl rfl

theorem onCreation (id : LinkId) (f : Creation → Creation) :
    (w.onCreation id f).Addressed node := by
  cases id with
  | made k i => exact h.onShelf k _
  | brought name => exact h

theorem forget (k : Key) (hd : HandleId) : (w.forget k hd).Addressed node := by
  unfold Hub.forget
  split
  · split
    · exact (h.setServing k none).note _
    · exact h.onShelf k _
  · exact h

theorem purge : w.purge.Addressed node := by
  unfold Hub.purge
  generalize w.servedKeys = ks
  induction ks generalizing w with
  | nil => exact h
  | cons k ks ih =>
    refine ih ?_
    unfold purgeKey
    split
    · exact h
    · split
      · exact h
      · exact h.setServing k none

theorem unlinkAll (wish : List Key) : (w.unlinkAll wish).1.Addressed node := by
  unfold Hub.unlinkAll
  generalize w.servedInOrder wish = ks
  change (ks.foldl unlink w).Addressed node
  induction ks generalizing w with
  | nil => exact h
  | cons k ks ih =>
    refine ih ?_
    unfold unlink
    split
    · exact h
    · exact h.onShelf k _

/-! ### Outcomes -/

theorem settle (id : TicketId) (outcome : Outcome) (refund : Option Refund) :
    (w.settle id outcome refund).1.Addressed node := by
  unfold Hub.settle
  split
  · exact h
  · unfold wake
    split
    · exact (h.setTicket id _).emit fun _ _ => Event.noConfusion
    · exact h.setTicket id _
    · exact h.setTicket id _

theorem grant (hd : HandleId) (link : Link) (ids : List TicketId) :
    (w.grant hd link ids).1.Addressed node := by
  induction ids generalizing w with
  | nil => exact h
  | cons id ids ih => exact ih (h.settle id _ _)

theorem refuse (error : LinkError) (ids : List TicketId) : (w.refuse error ids).Addressed node := by
  induction ids generalizing w with
  | nil => exact h
  | cons id ids ih => exact ih (h.settle id _ _)

theorem beginClose (hd : HandleId) (link : Link) : (w.beginClose hd link).Addressed node :=
  (h.note _).emit fun _ _ => Event.noConfusion

theorem awaitClose (hd : HandleId) (link : Link) : (w.awaitClose hd link).1.Addressed node := by
  unfold Hub.awaitClose
  split
  · exact h
  · exact h.note _
  · exact (h.count _).note _

theorem fulfil (hd : HandleId) (link : Link) : (w.fulfil hd link).1.Addressed node := by
  unfold Hub.fulfil
  split
  · rename_i queue _
    have hgranted := (h.grant hd link queue).note
      (.created hd.key link.identity (w.grant hd link queue).2)
    dsimp only
    split
    · exact (((hgranted.setPhase hd _).note _).forget hd.key hd).count _
    · exact hgranted.setPhase hd _
  · exact (h.note _).count _
  · exact (h.note _).count _
  · exact (h.note _).count _

theorem fail (hd : HandleId) (failure : String) : (w.fail hd failure).Addressed node := by
  have hcounted := (h.note (.creationFailed hd.key (.creation hd.key (.message failure)))).count
    .creationFailures
  unfold Hub.fail
  dsimp only
  split
  · exact ((hcounted.setPhase hd _).forget hd.key hd).refuse _ _
  · exact hcounted
  · exact hcounted
  · exact hcounted

/-! ### Jobs -/

theorem workAwaitClose (j : Job) : (w.workAwaitClose j).1.Addressed node := by
  have hawait := h.awaitClose j.owner j.link
  unfold Hub.workAwaitClose
  split
  all_goals
    rename_i heq
    rw [heq] at hawait
    exact hawait

theorem workClose (j : Job) : (w.workClose j).1.Addressed node :=
  (h.beginClose j.owner j.link).workAwaitClose j

theorem work (j : Job) : (w.work j).1.Addressed node := by
  have hmarked := h.onCreation j.link.id fun c => { c with delivered := true }
  unfold Hub.work
  split
  · split
    · exact h
    · exact hmarked.fail j.owner _
    · have hfulfilled := hmarked.fulfil j.owner j.link
      split
      · rename_i heq
        rw [markDelivered] at heq
        rw [heq] at hfulfilled
        exact hfulfilled.workClose j
      · rename_i heq
        rw [markDelivered] at heq
        rw [heq] at hfulfilled
        exact hfulfilled
  · exact h.workClose j
  · exact h.workAwaitClose j

theorem spawn (j : Job) : (w.spawn j).Addressed node := by
  have hwork := h.work j
  unfold Hub.spawn
  split
  · exact h.of_eq rfl rfl
  · split
    · rename_i heq
      rw [heq] at hwork
      exact hwork
    · rename_i heq
      rw [heq] at hwork
      exact hwork.of_eq rfl rfl
  · exact h

theorem runJob (id : JobId) : (w.runJob id).1.Addressed node := by
  unfold Hub.runJob
  split
  · exact h
  · rename_i j _
    have hwork := (h.of_eq rfl rfl : (w.unready id).Addressed node).work j
    split
    · rename_i heq
      rw [heq] at hwork
      exact hwork.of_eq rfl rfl
    · rename_i heq
      rw [heq] at hwork
      exact hwork.of_eq rfl rfl

/-! ### Asking for links -/

/-- What is asked for is addressed to the node. -/
theorem startCreation (hd : HandleId) (k : Key) : (w.startCreation hd k).Addressed node := by
  unfold Hub.startCreation
  extract_lets request index prospect link creation w₁ w₂ w₃
  have hnamed : w₁.Addressed node := h.of_eq rfl rfl
  have hcounted : w₂.Addressed node := (hnamed.note _).count _
  have hasked : (w₂.emit (.create link.id request)).Addressed node := by
    -- the request carries the node of the hub as it was before the call
    refine hcounted.emit fun id r e => ⟨k, w.namer.name, (Event.create.inj e).2.symm.trans ?_⟩
    change Request.make k w.namer.name w.node = _
    rw [h.stays]
  exact (hasked.onShelf k _).spawn _

theorem openHandle (k : Key) (queue : List TicketId) : (w.openHandle k queue).Addressed node :=
  ((h.addHandle k (.pending queue)).setServing k (some (w.nextHandle k))).startCreation _ k

theorem join (hd : HandleId) : (w.join hd).1.Addressed node := by
  unfold Hub.join
  split
  · exact ((h.addTicket hd.key _).setPhase hd _).count _
  · exact ((h.addTicket hd.key _).setPhase hd _).count _
  · exact h
  · exact h

theorem acquire (k : Key) : (w.acquire k).1.Addressed node := by
  have hfresh : ∀ {u : Hub}, u.Addressed node → (u.joinFresh k).1.Addressed node := fun hu =>
    ((hu.addTicket k .fresh).count .waits).openHandle k _
  have hcounted := h.count .acquires
  unfold Hub.acquire
  dsimp only
  split
  · exact hfresh hcounted
  · rename_i hd _
    have hjoined := hcounted.join hd
    split
    · rename_i heq
      rw [heq] at hjoined
      exact hjoined
    · rename_i heq
      rw [heq] at hjoined
      exact hfresh (hjoined.note _).purge

theorem adopt {hd : HandleId} {ids : List TicketId} (adopted : w.adopt hd ids = .ok w') :
    w'.Addressed node := by
  unfold Hub.adopt at adopted
  split at adopted
  · obtain rfl := Except.ok.inj adopted
    exact h.setPhase hd _
  · obtain rfl := Except.ok.inj adopted
    exact ((h.grant hd _ ids).setPhase hd _).countBy _ _
  · contradiction
  · contradiction

theorem requeue (k : Key) (ids : List TicketId) : (w.requeue k ids).Addressed node := by
  unfold Hub.requeue
  split
  · exact h
  · split
    · exact h.openHandle k _
    · split
      · rename_i hadopt
        exact h.adopt hadopt
      · exact h.purge.openHandle k _

/-! ### Giving references back -/

theorem giveBack (hd : HandleId) (report : Bool) : (w.giveBack hd report).1.Addressed node := by
  unfold Hub.giveBack
  split
  · exact (h.setPhase hd _).count _
  · exact ((((h.setPhase hd _).forget hd.key hd).count _).count _).spawn _
  · exact (h.setPhase hd _).count _
  · exact (((h.setPhase hd _).forget hd.key hd).count _).note _
  · dsimp only
    split
    · exact (h.count _).note _
    · exact h

theorem giveBackFirst {hds : List HandleId} (given : w.giveBackFirst hds = some w') :
    w'.Addressed node := by
  induction hds with
  | nil => contradiction
  | cons hd hds ih =>
    have hgive := h.giveBack hd false
    unfold Hub.giveBackFirst at given
    split at given
    · rename_i heq
      rw [heq] at hgive
      rwa [← Option.some.inj given]
    · exact ih given

theorem release (k : Key) : (w.release k).1.Addressed node := by
  unfold Hub.release
  split
  · rename_i hgiven
    exact h.giveBackFirst hgiven
  · split
    · exact h.note _
    · split
      · exact ((h.note _).purge).note _
      · exact h.giveBack _ true

theorem pollTicket (id : TicketId) : (w.pollTicket id).1.Addressed node := by
  unfold Hub.pollTicket
  split
  · exact h
  · exact h.setTicket id _

theorem parkTicket (id : TicketId) : (w.parkTicket id).1.Addressed node := by
  unfold Hub.parkTicket
  split
  · exact h
  · exact h.setTicket id _

theorem dropTicket (id : TicketId) : (w.dropTicket id).Addressed node := by
  unfold Hub.dropTicket
  split
  · exact h
  · split
    · exact h.setTicket id _
    · rename_i refund _
      cases refund with
      | handle hd => exact ((h.setTicket id _).note _).giveBack hd false
      | mark name => exact (h.setTicket id _).emit fun _ _ => Event.noConfusion

/-! ### Answers and teardowns -/

theorem answerMaking (id : LinkId) (failure : Option String) :
    (((w.answerMaking id failure).map Prod.fst).getD w).Addressed node := by
  unfold Hub.answerMaking
  cases w.creation? id with
  | none => exact h
  | some c =>
    simp only [Option.map_some, Option.getD_some]
    split
    · exact h
    · exact (h.onCreation id _).of_eq rfl rfl

theorem answerClosing (id : LinkId) (failure : Option String) :
    (((w.answerClosing id failure).map Prod.fst).getD w).Addressed node := by
  unfold Hub.answerClosing
  cases w.creation? id with
  | none => exact h
  | some c =>
    simp only [Option.map_some, Option.getD_some]
    split
    · exact h
    · exact (h.onCreation id _).of_eq rfl rfl

theorem awaitPart (hd : HandleId) (link : Link) : (w.awaitPart hd link).1.Addressed node := by
  have hawait := h.awaitClose hd link
  unfold Hub.awaitPart
  split
  all_goals
    rename_i heq
    rw [heq] at hawait
    exact hawait

theorem forceClose (hd : HandleId) : (w.forceClose hd).1.Addressed node := by
  unfold Hub.forceClose
  split
  · exact ((((((h.note _).setPhase hd _).count _).note _).beginClose hd _).awaitPart hd _)
  · have hended := (h.setPhase hd .closed).forget hd.key hd
    dsimp only
    split
    · exact hended
    · exact (hended.note _).requeue hd.key _
  · exact h
  · exact h

theorem forceCloseEach (hds : List HandleId) : (w.forceCloseEach hds).1.Addressed node := by
  induction hds generalizing w with
  | nil => exact h
  | cons hd hds ih => exact ih (h.forceClose hd)

theorem awaitParts (parts : List Part) : (w.awaitParts parts).1.Addressed node := by
  induction parts generalizing w with
  | nil => exact h
  | cons part parts ih =>
    cases part with
    | closing hd link => exact ih (h.awaitPart hd link)
    | done result => exact ih h

theorem noteIfAbandoned : w.noteIfAbandoned.Addressed node := by
  unfold Hub.noteIfAbandoned
  split
  · exact h
  · exact h.note _

theorem concludeTeardown (i : Nat) (scope : Scope) (parts : List Part) :
    (w.concludeTeardown i scope parts).1.Addressed node := by
  have hresult : (w.teardownResult scope parts).1.Addressed node := by
    unfold teardownResult
    split
    · exact h
    · exact h
    · exact h.note _
  have hfinished :
      ((w.teardownResult scope parts).1.setTeardown i scope .finished).Addressed node :=
    hresult.of_eq rfl rfl
  unfold Hub.concludeTeardown
  split
  · exact h.of_eq rfl rfl
  · exact hfinished.noteIfAbandoned

theorem pollTeardown (i : Nat) (wish : List Key) : (w.pollTeardown i wish).1.Addressed node := by
  have hbegun : ∀ scope, (w.beginTeardown scope wish).1.Addressed node := by
    intro scope
    cases scope with
    | one hd => exact h.forceCloseEach [hd]
    | all => exact ((h.unlinkAll wish).note _).forceCloseEach _
  unfold Hub.pollTeardown
  split
  · exact (hbegun _).concludeTeardown i _ _
  · exact (h.awaitParts _).concludeTeardown i _ _
  · exact h
  · exact h
  · exact h

theorem dropTeardown (i : Nat) : (w.dropTeardown i).Addressed node := by
  unfold Hub.dropTeardown
  split
  · exact h
  · rename_i t _
    have hdropped : (w.setTeardown i t.scope .dropped).Addressed node := h.of_eq rfl rfl
    dsimp only
    split
    · exact hdropped.noteIfAbandoned
    · exact hdropped

/-! ### Moves and deeds -/

theorem asked (f : Hub → Hub) (hf : (f w).Addressed node) : (w.asked f).Addressed node :=
  asked_induction (fun _ => h) fun _ => hf

theorem onMade (hd : HandleId) (f : Hub → Hub) (hf : (f w).Addressed node) :
    (w.onMade hd f).Addressed node := by
  unfold Hub.onMade
  split
  · exact hf
  · exact h

theorem move (m : Move) : (w.move m).Addressed node := by
  cases m with
  | acquire k => exact h.asked (fun w => (w.acquire k).1) (h.acquire k)
  | release k => exact h.asked (fun w => (w.release k).1) (h.release k)
  | poll k n => exact h.pollTicket _
  | park k n => exact h.parkTicket _
  | drop k n => exact h.dropTicket _
  | tearDown => exact h.asked (fun w => w.addTeardown .all) (h.of_eq rfl rfl)
  | pollTeardown i wish => exact h.pollTeardown i wish
  | dropTeardown i => exact h.dropTeardown i
  | runJob id => exact h.runJob id
  | abortJob id => exact h.of_eq rfl rfl
  | answerMaking id failure => exact h.answerMaking id failure
  | answerClosing id failure => exact h.answerClosing id failure
  | clone => exact h.asked addClone (h.of_eq rfl rfl)
  | dropClone =>
    change w.dropClone.Addressed node
    unfold dropClone
    split
    · exact h
    · have hleft : Hub.Addressed node { w with clones := w.clones - 1 } := h.of_eq rfl rfl
      exact hleft.noteIfAbandoned

theorem deed (d : Deed) : (w.deed d).Addressed node := by
  cases d with
  | move m => exact h.move m
  | make k => exact h.addHandle k _
  | attach hd k => exact h.onMade hd (fun w => w.setServing k (some hd)) (h.setServing k _)
  | start hd k => exact h.onMade hd (fun w => w.startCreation hd k) (h.startCreation hd k)
  | join hd => exact h.onMade hd (fun w => (w.join hd).1) (h.join hd)
  | issue => exact h.of_eq rfl rfl
  | adopt hd ids =>
    refine h.onMade hd (fun w => (w.adopt hd ids).toOption.getD w) ?_
    cases hadopt : w.adopt hd ids with
    | ok w' => exact h.adopt hadopt
    | error refused => exact h
  | giveBack hd report =>
    exact h.onMade hd (fun w => (w.giveBack hd report).1) (h.giveBack hd report)
  | drop id => exact h.dropTicket id
  | forceClose hd => exact h.onMade hd (fun w => w.addTeardown (.one hd)) (h.of_eq rfl rfl)
  | requeue k ids => exact h.requeue k ids
  | forget hd k => exact h.onMade hd (fun w => w.forget k hd) (h.forget k hd)

/-- Whatever is done to a hub, it asks for nothing that is not addressed to its node. -/
theorem perform (ds : List Deed) : (w.perform ds).Addressed node := by
  induction ds generalizing w with
  | nil => exact h
  | cons d ds ih => exact ih (h.deed d)

end Calls

end Addressed

variable {w w₀ : Hub}

/-- Whatever is done to a hub, each link is requested once, under the key that it is named after. -/
theorem requested_perform (h : w.outline.Requested) (tidy : w.outline.Tidy) (ds : List Deed) :
    (w.perform ds).outline.Requested := by
  induction ds generalizing w with
  | nil => exact h
  | cons d ds ih =>
    obtain ⟨kinds, hdoes⟩ := does_deed tidy.nodup_jobs d
    exact ih (hdoes.chain.keeps (fun _ _ _ _ step => step.requested) h) (tidy_deed tidy d)

/-- The link that was asked for has the key of the request. -/
theorem made_of_create (h : w.outline.Requested) {id : LinkId} {r : Request}
    (asked : .create id r ∈ w.events) : ∃ i, id = .made r.key i := by
  have hr : r ∈ w.outline.requests id :=
    List.mem_filterMap.mpr ⟨_, List.mem_reverse.mpr asked, if_pos rfl⟩
  cases hc : w.outline.creation? id with
  | none =>
    rw [h.never id hc] at hr
    contradiction
  | some c =>
    obtain ⟨k, i, r', hid, hrequests, hkey⟩ := h.once id c hc
    rw [hrequests, List.mem_singleton] at hr
    exact ⟨i, by rw [hid, hr, hkey]⟩

section Build

variable {settings : Settings} {seed : UInt64} {ambient : Option Dispatch}

theorem addressed_build (built : settings.build seed ambient = .ok w) : w.Addressed w.node := by
  refine ⟨rfl, fun id r hm => ?_⟩
  rw [(build_empty built).2.2.1] at hm
  contradiction

/-- At any node, two keys are equal exactly if requests for them lead to the same destination,
whatever the names of the links; in particular a missing transfer path leads elsewhere than an empty
one. So whatever is done to a hub and its handles, of the links that it has ever asked the provider
for those of one key, and no others, have the same destination. -/
theorem destinations_perform (built : settings.build seed ambient = .ok w₀) (ds : List Deed) :
    (∀ (node : String) (k k' : Key) (name name' : String),
      (Request.make k name node).SameDestination (Request.make k' name' node) ↔ k = k') ∧
    (∀ (node : String) (k k' : Key) (name name' : String), k = k' →
      (Request.make k name node).target = (Request.make k' name' node).target ∧
      (Request.make k name node).properties = (Request.make k' name' node).properties) ∧
    (∀ path node name name' : String, ¬ (Request.make ⟨path, none⟩ name node).SameDestination
      (Request.make ⟨path, some ""⟩ name' node)) ∧
    ∀ id id' r r', .create id r ∈ (w₀.perform ds).events →
      .create id' r' ∈ (w₀.perform ds).events →
      (∃ i i', id = .made r.key i ∧ id' = .made r'.key i') ∧
      (r.SameDestination r' ↔ r.key = r'.key) := by
  have haddressed := (addressed_build built).perform ds
  have hrequested := requested_perform (requested_build built) (tidy_build built) ds
  refine ⟨fun node k k' name name' => Request.sameDestination_make_iff, ?_, ?_, ?_⟩
  · rintro node k _ name name' rfl
    exact ⟨rfl, rfl⟩
  · intro path node name name' hsame
    have hkeys := Request.sameDestination_make_iff.mp hsame
    simp at hkeys
  · intro id id' r r' hasked hasked'
    -- both were made at the node of the hub, so the keys in them are the ones they were made for
    obtain ⟨i, hid⟩ := made_of_create hrequested hasked
    obtain ⟨i', hid'⟩ := made_of_create hrequested hasked'
    obtain ⟨k, name, rfl⟩ := haddressed.requests id r hasked
    obtain ⟨k', name', rfl⟩ := haddressed.requests id' r' hasked'
    exact ⟨⟨i, i', hid, hid'⟩, Request.sameDestination_make_iff⟩

end Build

/-- A link is asked for without a transfer path and one with an empty transfer path. -/
def askWithEmpty : List Deed :=
  [.move (.acquire sampleKey), .move (.acquire ⟨"a", some ""⟩)]

/-- The provider is asked for two links, and they lead to different destinations. -/
theorem destinations_perform_askWithEmpty :
    sampleSettings.build 0 none = .ok sample ∧
      ∃ r r', .create (.made sampleKey 0) r ∈ (sample.perform askWithEmpty).events ∧
        .create (.made ⟨"a", some ""⟩ 0) r' ∈ (sample.perform askWithEmpty).events ∧
        ¬ r.SameDestination r' := by
  have hfirst : .create (.made sampleKey 0) (.make sampleKey sample.namer.name sample.node) ∈
      (sample.perform askWithEmpty).events := .tail _ (.head _)
  have hsecond : .create (.made ⟨"a", some ""⟩ 0)
      (.make ⟨"a", some ""⟩ sample.namer.advance.name sample.node) ∈
      (sample.perform askWithEmpty).events := .head _
  obtain ⟨-, -, -, hasked⟩ := destinations_perform build_sample askWithEmpty
  obtain ⟨-, hsame⟩ := hasked _ _ _ _ hfirst hsecond
  refine ⟨build_sample, _, _, hfirst, hsecond, fun h => ?_⟩
  have hkeys : sampleKey = ⟨"a", some ""⟩ := hsame.mp h
  simp [sampleKey] at hkeys

end Hub

end SharedLinks
