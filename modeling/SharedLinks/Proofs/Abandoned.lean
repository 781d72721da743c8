import SharedLinks.Proofs.Runs

/-!
# Hubs that nobody holds any more

Once nobody holds a hub, its handles find no shelf to take themselves off, so where handles are says
nothing any more. In all other respects such a hub goes on as if somebody still held it: `Twin` relates
two hubs that differ in the places of handles and in who holds them, and what goes on without a caller
does the same to both. So what is known of hubs that are held extends to the time after: every hub of
a run has a `Shadow`, a sound hub that somebody holds and that is the hub itself as long as it is held
(`Shadow.move`).
-/

namespace SharedLinks

namespace Hub

/-! ## Twins -/

/-- The hubs differ at most in the places of handles, in who holds them, and in their history. -/
structure Twin (w w' : Hub) : Prop where
  shelf : ∀ k, ∃ v o, w'.shelf k = { w.shelf k with serving := v, orphaned := o }
  loose : w'.loose = w.loose
  jobs : w'.jobs = w.jobs
  dispatch : w'.dispatch = w.dispatch

namespace Twin

variable {w w' : Hub}

theorem refl (w : Hub) : Twin w w := ⟨fun _ => ⟨_, _, rfl⟩, rfl, rfl, rfl⟩

/-! ### Reads -/

theorem phases (h : Twin w w') (k : Key) : (w'.shelf k).phases = (w.shelf k).phases := by
  obtain ⟨v, o, e⟩ := h.shelf k
  rw [e]

theorem creations (h : Twin w w') (k : Key) : (w'.shelf k).creations = (w.shelf k).creations := by
  obtain ⟨v, o, e⟩ := h.shelf k
  rw [e]

theorem tickets (h : Twin w w') (k : Key) : (w'.shelf k).tickets = (w.shelf k).tickets := by
  obtain ⟨v, o, e⟩ := h.shelf k
  rw [e]

theorem phase (h : Twin w w') (hd : HandleId) : w'.phase hd = w.phase hd := by
  rw [Hub.phase, h.phases, Hub.phase]

theorem ticket? (h : Twin w w') (id : TicketId) : w'.ticket? id = w.ticket? id := by
  cases id with
  | forKey k n => rw [Hub.ticket?, h.tickets, Hub.ticket?]
  | loose n => rw [Hub.ticket?, h.loose, Hub.ticket?]

theorem creation? (h : Twin w w') (id : LinkId) : w'.creation? id = w.creation? id := by
  cases id with
  | made k i => rw [Hub.creation?, h.creations, Hub.creation?]
  | brought name => rfl

theorem making (h : Twin w w') (id : LinkId) : w'.making id = w.making id := by
  rw [Hub.making, h.creation?, Hub.making]

theorem closing (h : Twin w w') (id : LinkId) : w'.closing id = w.closing id := by
  rw [Hub.closing, h.creation?, Hub.closing]

/-! ### Writes -/

theorem note (h : Twin w w') (n : Notice) : Twin (w.note n) (w'.note n) :=
  ⟨h.shelf, h.loose, h.jobs, h.dispatch⟩

theorem emit (h : Twin w w') (e : Event) : Twin (w.emit e) (w'.emit e) :=
  ⟨h.shelf, h.loose, h.jobs, h.dispatch⟩

theorem count (h : Twin w w') (c : Counter) : Twin (w.count c) (w'.count c) :=
  ⟨h.shelf, h.loose, h.jobs, h.dispatch⟩

/-- A write that does not look at the places of handles, and leaves them alone. -/
theorem onShelf (h : Twin w w') (k : Key) {f : Shelf → Shelf}
    (hf : ∀ s v o, f { s with serving := v, orphaned := o } =
      { f s with serving := v, orphaned := o }) : Twin (w.onShelf k f) (w'.onShelf k f) := by
  refine ⟨fun j => ?_, h.loose, h.jobs, h.dispatch⟩
  obtain ⟨v, o, e⟩ := h.shelf j
  by_cases hj : j = k
  · subst hj
    rw [shelf_onShelf_self, shelf_onShelf_self, e, hf]
    exact ⟨v, o, rfl⟩
  · rw [shelf_onShelf_ne w' hj, shelf_onShelf_ne w hj]
    exact ⟨v, o, e⟩

/-- A write on nothing but the places of handles. -/
theorem onPlaces (h : Twin w w') (k : Key) {f g : Shelf → Shelf}
    (hf : ∀ s, ∃ v o, f s = { s with serving := v, orphaned := o })
    (hg : ∀ s, ∃ v o, g s = { s with serving := v, orphaned := o }) :
    Twin (w.onShelf k f) (w'.onShelf k g) := by
  refine ⟨fun j => ?_, h.loose, h.jobs, h.dispatch⟩
  obtain ⟨v, o, e⟩ := h.shelf j
  by_cases hj : j = k
  · subst hj
    obtain ⟨vf, of, ef⟩ := hf (w.shelf j)
    obtain ⟨vg, og, eg⟩ := hg (w'.shelf j)
    rw [shelf_onShelf_self, shelf_onShelf_self, ef, eg, e]
    exact ⟨vg, og, rfl⟩
  · rw [shelf_onShelf_ne w' hj, shelf_onShelf_ne w hj]
    exact ⟨v, o, e⟩

theorem setPhase (h : Twin w w') (hd : HandleId) (p : Phase) :
    Twin (w.setPhase hd p) (w'.setPhase hd p) :=
  h.onShelf hd.key fun _ _ _ => rfl

theorem setTicket (h : Twin w w') (id : TicketId) (t : Ticket) :
    Twin (w.setTicket id t) (w'.setTicket id t) := by
  cases id with
  | forKey k n => exact h.onShelf k fun _ _ _ => rfl
  | loose n => exact ⟨h.shelf, by rw [Hub.setTicket, h.loose, Hub.setTicket], h.jobs, h.dispatch⟩

theorem onCreation (h : Twin w w') (id : LinkId) (f : Creation → Creation) :
    Twin (w.onCreation id f) (w'.onCreation id f) := by
  cases id with
  | made k i => exact h.onShelf k fun _ _ _ => rfl
  | brought name => exact h

theorem markDelivered (h : Twin w w') (id : LinkId) :
    Twin (w.markDelivered id) (w'.markDelivered id) :=
  h.onCreation id _

/-- A handle is taken off the shelf of one hub, both, or none. -/
theorem forget (h : Twin w w') (k : Key) (hd : HandleId) : Twin (w.forget k hd) (w'.forget k hd) := by
  have hstay : ∀ s : Shelf, ∃ v o, s = { s with serving := v, orphaned := o } :=
    fun s => ⟨_, _, rfl⟩
  have hfree : ∀ s : Shelf, ∃ v o, { s with serving := none } =
      { s with serving := v, orphaned := o } := fun s => ⟨_, _, rfl⟩
  have hdrop : ∀ s : Shelf, ∃ v o, s.dropOrphan hd = { s with serving := v, orphaned := o } := by
    intro s
    obtain ⟨o, e⟩ := s.dropOrphan_eq hd
    exact ⟨s.serving, o, e⟩
  have hform : ∀ u : Hub, ∃ f : Shelf → Shelf,
      (∀ s, ∃ v o, f s = { s with serving := v, orphaned := o }) ∧
        (∀ j, (u.forget k hd).shelf j = (u.onShelf k f).shelf j) ∧
          (u.forget k hd).loose = u.loose ∧ (u.forget k hd).jobs = u.jobs ∧
            (u.forget k hd).dispatch = u.dispatch := by
    intro u
    unfold Hub.forget
    split
    · split
      · exact ⟨_, hfree, fun _ => rfl, rfl, rfl, rfl⟩
      · exact ⟨_, hdrop, fun _ => rfl, rfl, rfl, rfl⟩
    · refine ⟨fun s => s, hstay, fun j => ?_, rfl, rfl, rfl⟩
      by_cases hj : j = k
      · rw [hj, shelf_onShelf_self]
      · rw [shelf_onShelf_ne u hj]
  obtain ⟨f, hf, hshelf, hloose, hjobs, hdispatch⟩ := hform w
  obtain ⟨g, hg, hshelf', hloose', hjobs', hdispatch'⟩ := hform w'
  refine ⟨fun j => ?_, ?_, ?_, ?_⟩
  · rw [hshelf, hshelf']
    exact (h.onPlaces k hf hg).shelf j
  · rw [hloose', h.loose, hloose]
  · rw [hjobs', h.jobs, hjobs]
  · rw [hdispatch', h.dispatch, hdispatch]

/-! ### Outcomes -/

theorem settle (h : Twin w w') (id : TicketId) (outcome : Outcome) (refund : Option Refund) :
    Twin (w.settle id outcome refund).1 (w'.settle id outcome refund).1 ∧
      (w'.settle id outcome refund).2 = (w.settle id outcome refund).2 := by
  unfold Hub.settle
  rw [h.ticket?]
  split
  · exact ⟨h, rfl⟩
  · rename_i t sleeper _
    refine ⟨?_, rfl⟩
    unfold wake
    split
    · exact (h.setTicket id t).emit _
    · exact h.setTicket id t
    · exact h.setTicket id t

theorem grant (h : Twin w w') (hd : HandleId) (link : Link) (ids : List TicketId) :
    Twin (w.grant hd link ids).1 (w'.grant hd link ids).1 ∧
      (w'.grant hd link ids).2 = (w.grant hd link ids).2 := by
  induction ids generalizing w w' with
  | nil => exact ⟨h, rfl⟩
  | cons id ids ih =>
    obtain ⟨hs, htaken⟩ := h.settle id (.ok link) (some (.handle hd))
    obtain ⟨hg, hrefs⟩ := ih hs
    refine ⟨hg, ?_⟩
    simp only [Hub.grant, htaken, hrefs]

theorem refuse (h : Twin w w') (error : LinkError) (ids : List TicketId) :
    Twin (w.refuse error ids) (w'.refuse error ids) := by
  induction ids generalizing w w' with
  | nil => exact h
  | cons id ids ih => exact ih (h.settle id _ _).1

theorem fulfil (h : Twin w w') (hd : HandleId) (link : Link) :
    Twin (w.fulfil hd link).1 (w'.fulfil hd link).1 ∧
      (w'.fulfil hd link).2 = (w.fulfil hd link).2 := by
  unfold Hub.fulfil
  rw [h.phase]
  split
  · rename_i queue _
    obtain ⟨hg, hrefs⟩ := h.grant hd link queue
    dsimp only
    rw [hrefs]
    split
    · exact ⟨(((((hg.note _).setPhase hd .closed).note _).forget hd.key hd).count _), rfl⟩
    · exact ⟨(hg.note _).setPhase hd _, rfl⟩
  · exact ⟨(h.note _).count _, rfl⟩
  · exact ⟨(h.note _).count _, rfl⟩
  · exact ⟨(h.note _).count _, rfl⟩

theorem fail (h : Twin w w') (hd : HandleId) (failure : String) :
    Twin (w.fail hd failure) (w'.fail hd failure) := by
  have hcounted := (h.note (.creationFailed hd.key (.creation hd.key (.message failure)))).count
    .creationFailures
  unfold Hub.fail
  dsimp only
  rw [hcounted.phase]
  split
  · exact ((hcounted.setPhase hd .closed).forget hd.key hd).refuse _ _
  · exact hcounted
  · exact hcounted
  · exact hcounted

/-! ### Jobs -/

theorem awaitClose (h : Twin w w') (hd : HandleId) (link : Link) :
    Twin (w.awaitClose hd link).1 (w'.awaitClose hd link).1 ∧
      (w'.awaitClose hd link).2 = (w.awaitClose hd link).2 := by
  unfold Hub.awaitClose
  rw [h.closing]
  split
  · exact ⟨h, rfl⟩
  · exact ⟨h.note _, rfl⟩
  · exact ⟨(h.count _).note _, rfl⟩

theorem workAwaitClose (h : Twin w w') (j : Job) :
    Twin (w.workAwaitClose j).1 (w'.workAwaitClose j).1 ∧
      (w'.workAwaitClose j).2 = (w.workAwaitClose j).2 := by
  obtain ⟨ht, he⟩ := h.awaitClose j.owner j.link
  unfold Hub.workAwaitClose
  cases hr : w.awaitClose j.owner j.link with
  | mk u answer =>
    cases hr' : w'.awaitClose j.owner j.link with
    | mk u' answer' =>
      rw [hr, hr'] at ht he
      obtain rfl : answer' = answer := he
      cases answer' with
      | none => exact ⟨ht, rfl⟩
      | some result => exact ⟨ht, rfl⟩

theorem workClose (h : Twin w w') (j : Job) :
    Twin (w.workClose j).1 (w'.workClose j).1 ∧ (w'.workClose j).2 = (w.workClose j).2 :=
  ((h.note _).emit _).workAwaitClose j

theorem work (h : Twin w w') (j : Job) :
    Twin (w.work j).1 (w'.work j).1 ∧ (w'.work j).2 = (w.work j).2 := by
  unfold Hub.work
  rw [h.making]
  split
  · split
    · exact ⟨h, rfl⟩
    · exact ⟨(h.markDelivered _).fail _ _, rfl⟩
    · obtain ⟨ht, he⟩ := (h.markDelivered j.link.id).fulfil j.owner j.link
      cases hr : (w.markDelivered j.link.id).fulfil j.owner j.link with
      | mk u late =>
        cases hr' : (w'.markDelivered j.link.id).fulfil j.owner j.link with
        | mk u' late' =>
          rw [hr, hr'] at ht he
          obtain rfl : late' = late := he
          cases late' with
          | false => exact ⟨ht, rfl⟩
          | true => exact ht.workClose j
  · exact h.workClose j
  · exact h.workAwaitClose j

theorem spawn (h : Twin w w') (j : Job) : Twin (w.spawn j) (w'.spawn j) := by
  obtain ⟨ht, he⟩ := h.work j
  unfold Hub.spawn
  rw [h.dispatch]
  split
  · rw [h.jobs]
    exact ⟨h.shelf, h.loose, rfl, rfl⟩
  · cases hr : w.work j with
    | mk u left =>
      cases hr' : w'.work j with
      | mk u' left' =>
        rw [hr, hr'] at ht he
        obtain rfl : left' = left := he
        cases left' with
        | none => exact ht
        | some stage =>
          dsimp only
          rw [ht.jobs]
          exact ⟨ht.shelf, ht.loose, rfl, ht.dispatch⟩
  · exact h

theorem unready (h : Twin w w') (id : JobId) : Twin (w.unready id) (w'.unready id) :=
  ⟨h.shelf, h.loose, h.jobs, h.dispatch⟩

theorem removeJob (h : Twin w w') (id : JobId) : Twin (w.removeJob id) (w'.removeJob id) := by
  refine ⟨h.shelf, h.loose, ?_, h.dispatch⟩
  rw [Hub.removeJob, h.jobs, Hub.removeJob]

theorem setStage (h : Twin w w') (id : JobId) (stage : Stage) :
    Twin (w.setStage id stage) (w'.setStage id stage) := by
  refine ⟨h.shelf, h.loose, ?_, h.dispatch⟩
  rw [Hub.setStage, h.jobs, Hub.setStage]

theorem runJob (h : Twin w w') (id : JobId) : Twin (w.runJob id).1 (w'.runJob id).1 := by
  have hjob : w'.job? id = w.job? id := by rw [job?, h.jobs, job?]
  unfold Hub.runJob
  rw [hjob]
  split
  · exact h
  · rename_i j _
    obtain ⟨ht, he⟩ := (h.unready id).work j
    cases hr : (w.unready id).work j with
    | mk u left =>
      cases hr' : (w'.unready id).work j with
      | mk u' left' =>
        rw [hr, hr'] at ht he
        obtain rfl : left' = left := he
        cases left' with
        | none => exact ht.removeJob id
        | some stage => exact ht.setStage id stage

/-! ### Tickets and answers -/

theorem pollTicket (h : Twin w w') (id : TicketId) :
    Twin (w.pollTicket id).1 (w'.pollTicket id).1 := by
  unfold Hub.pollTicket
  rw [h.ticket?]
  split
  · exact h
  · exact h.setTicket id _

theorem parkTicket (h : Twin w w') (id : TicketId) :
    Twin (w.parkTicket id).1 (w'.parkTicket id).1 := by
  unfold Hub.parkTicket
  rw [h.ticket?]
  split
  · exact h
  · exact h.setTicket id _

theorem giveBack (h : Twin w w') (hd : HandleId) :
    Twin (w.giveBack hd false).1 (w'.giveBack hd false).1 := by
  unfold Hub.giveBack
  rw [h.phase]
  split
  · exact (h.setPhase hd _).count _
  · exact ((((h.setPhase hd .closed).forget hd.key hd).count _).count _).spawn _
  · exact (h.setPhase hd _).count _
  · exact (((h.setPhase hd .closed).forget hd.key hd).count _).note _
  · exact h

theorem dropTicket (h : Twin w w') (id : TicketId) : Twin (w.dropTicket id) (w'.dropTicket id) := by
  unfold Hub.dropTicket
  rw [h.ticket?]
  split
  · exact h
  · split
    · exact h.setTicket id _
    · rename_i refund _
      cases refund with
      | handle hd => exact ((h.setTicket id _).note _).giveBack hd
      | mark name => exact (h.setTicket id _).emit _

theorem rouse (h : Twin w w') (id : LinkId) (stage : Stage) :
    Twin (w.rouse id stage) (w'.rouse id stage) :=
  ⟨h.shelf, h.loose, h.jobs, h.dispatch⟩

/-- An answer of the provider comes to both hubs alike. -/
theorem answer (h : Twin w w') (id : LinkId) {g g' : Creation → Hub × Bool}
    (hg : ∀ c, Twin (g c).1 (g' c).1) :
    Twin (((w.creation? id).map g).map Prod.fst |>.getD w)
      (((w'.creation? id).map g').map Prod.fst |>.getD w') := by
  rw [h.creation?]
  cases w.creation? id with
  | none => exact h
  | some c => exact hg c

theorem answerMaking (h : Twin w w') (id : LinkId) (failure : Option String) :
    Twin (((w.answerMaking id failure).map Prod.fst).getD w)
      (((w'.answerMaking id failure).map Prod.fst).getD w') := by
  refine h.answer id fun c => ?_
  cases c.making with
  | opened _ => exact h
  | shut => exact (h.onCreation id _).rouse id _

theorem answerClosing (h : Twin w w') (id : LinkId) (failure : Option String) :
    Twin (((w.answerClosing id failure).map Prod.fst).getD w)
      (((w'.answerClosing id failure).map Prod.fst).getD w') := by
  refine h.answer id fun c => ?_
  cases c.closing with
  | opened _ => exact h
  | shut => exact (h.onCreation id _).rouse id _

end Twin

/-! ## Shadows -/

/-- The second hub is sound and held. It is the first one itself as long as that is held, and then a
twin that a caller keeps. -/
structure Shadow (w w' : Hub) : Prop where
  sound : w'.Sound
  twin : Twin w w'
  same : w.isHeld = true → w' = w
  kept : w.isHeld = false → 0 < w'.clones

variable {w w' : Hub}

theorem Sound.shadow (h : w.Sound) (held : w.isHeld = true) : Shadow w w :=
  ⟨h, .refl w, fun _ => rfl, fun e => by simp [held] at e⟩

theorem Shadow.isHeld (h : Shadow w w') : w'.isHeld = true := by
  cases hh : w.isHeld with
  | true => rw [h.same hh, hh]
  | false => exact isHeld_of_clones (h.kept hh)

/-- A sound hub has a shadow after the move with which it is lost. -/
theorem Sound.exists_shadow (h : w.Sound) : ∃ w', Shadow w w' ∧ Still w w' := by
  cases hh : w.isHeld with
  | true => exact ⟨w, h.shadow hh, rfl, rfl, fun _ => id⟩
  | false =>
    refine ⟨{ w with clones := 1 }, ⟨⟨h.orderly, h.backed.of_shelf (fun _ => rfl) (fun _ => id)
      fun _ => id, h.scope⟩, ⟨fun _ => ⟨_, _, rfl⟩, rfl, rfl, rfl⟩, fun e => ?_,
      fun _ => Nat.one_pos⟩, rfl, rfl, fun _ => id⟩
    rw [hh] at e
    contradiction

/-- What has happened to a hub that nobody holds has happened to its shadow. -/
theorem Shadow.follow (h : Shadow w w') (lost : w.isHeld = false) {m : Move}
    (twin : Twin (w.move m) (w'.move m)) (keepers : (w'.move m).keepers = w'.keepers)
    (marks : w.mark m = w'.mark m) :
    ∃ w'', Shadow (w.move m) w'' ∧ Moves (w.mark m) w' w'' := by
  have hheld := h.isHeld
  refine ⟨w'.move m, ⟨h.sound.move hheld m, twin, fun e => ?_, fun _ => ?_⟩, ?_⟩
  · rw [isHeld_of_move e] at lost
    contradiction
  · have hclones : (w'.move m).clones = w'.clones := congrArg Prod.fst keepers
    rw [hclones]
    exact h.kept lost
  · rw [marks]
    exact move_moves h.sound hheld m

/-- What does not touch the handles of a hub that nobody holds leaves its shadow where it is. -/
theorem Shadow.stay (h : Shadow w w') (lost : w.isHeld = false) {m : Move}
    (still : Twin w (w.move m)) (marks : ∀ k, w.mark m k = .even) :
    ∃ w'', Shadow (w.move m) w'' ∧ Moves (w.mark m) w' w'' := by
  refine ⟨w', ⟨h.sound, ?_, fun e => ?_, fun _ => h.kept lost⟩,
    Still.moves ⟨rfl, rfl, fun _ => id⟩ marks⟩
  · refine ⟨fun k => ?_, ?_, ?_, ?_⟩
    · obtain ⟨v, o, e⟩ := h.twin.shelf k
      obtain ⟨v', o', e'⟩ := still.shelf k
      rw [e', e]
      exact ⟨v, o, rfl⟩
    · rw [h.twin.loose, still.loose]
    · rw [h.twin.jobs, still.jobs]
    · rw [h.twin.dispatch, still.dispatch]
  · rw [isHeld_of_move e] at lost
    contradiction

theorem clones_of_lost (lost : w.isHeld = false) : w.clones = 0 := by
  by_contra hc
  rw [isHeld_of_clones (Nat.pos_of_ne_zero hc)] at lost
  contradiction

/-- Once nobody holds a hub, teardowns are over. -/
theorem over_of_lost (lost : w.isHeld = false) (i : Nat) (wish : List Key) :
    (w.pollTeardown i wish).1 = w ∧ w.begins i = false := by
  have hover : ∀ t ∈ w.teardowns, t.holds = false := by
    rw [Hub.isHeld, Bool.or_eq_false_iff, List.any_eq_false] at lost
    exact fun t ht => by simpa using lost.2 t ht
  unfold pollTeardown begins
  cases ht : w.teardowns[i]? with
  | none => exact ⟨rfl, rfl⟩
  | some t =>
    have hholds := hover t (List.mem_of_getElem? ht)
    obtain ⟨scope, state⟩ := t
    cases state with
    | idle => contradiction
    | running parts => contradiction
    | finished => exact ⟨rfl, rfl⟩
    | dropped => exact ⟨rfl, rfl⟩

theorem isVain_of_twin (h : Twin w w') (k : Key) (n : Nat) :
    (w'.shelf k).isVain n = (w.shelf k).isVain n := by
  obtain ⟨v, o, e⟩ := h.shelf k
  rw [e]
  rfl

/-- Every move of a hub is one step on the shelf of each key of its shadow, whoever holds the hub. -/
theorem Shadow.move (h : Shadow w w') (m : Move) :
    ∃ w'', Shadow (w.move m) w'' ∧ Moves (w.mark m) w' w'' := by
  cases hh : w.isHeld with
  | true =>
    obtain rfl := h.same hh
    obtain ⟨w'', hshadow, hstill⟩ := (h.sound.move hh m).exists_shadow
    exact ⟨w'', hshadow, (move_moves h.sound hh m).still hstill⟩
  | false =>
    have hc := clones_of_lost hh
    have hasked : ∀ f : Hub → Hub, w.asked f = w := fun f => if_pos hc
    cases m with
    | acquire k =>
      refine h.stay hh ?_ fun j => if_neg (by omega)
      rw [Hub.move, hasked]
      exact .refl w
    | release k =>
      refine h.stay hh ?_ fun j => if_neg (by omega)
      rw [Hub.move, hasked]
      exact .refl w
    | poll k n => exact h.follow hh (h.twin.pollTicket _) (keepers_pollTicket w' _) rfl
    | park k n => exact h.follow hh (h.twin.parkTicket _) (keepers_parkTicket w' _) rfl
    | drop k n =>
      refine h.follow hh (h.twin.dropTicket _) (keepers_dropTicket w' _) ?_
      funext j
      rw [Hub.mark, Hub.mark, isVain_of_twin h.twin]
    | tearDown =>
      refine h.stay hh ?_ fun _ => rfl
      rw [Hub.move, hasked]
      exact .refl w
    | pollTeardown i wish =>
      obtain ⟨hsame, hbegins⟩ := over_of_lost hh i wish
      refine h.stay hh ?_ fun j => ?_
      · rw [Hub.move, hsame]
        exact .refl w
      · rw [Hub.mark, if_neg (by simp [hbegins])]
    | dropTeardown i =>
      refine h.stay hh ?_ fun _ => rfl
      change Twin w (w.dropTeardown i)
      unfold dropTeardown noteIfAbandoned
      split
      · exact .refl w
      · dsimp only
        repeat' split
        all_goals exact ⟨fun _ => ⟨_, _, rfl⟩, rfl, rfl, rfl⟩
    | runJob id => exact h.follow hh (h.twin.runJob id) (keepers_runJob w' id) rfl
    | abortJob id => exact h.follow hh (h.twin.removeJob id) rfl rfl
    | answerMaking id failure =>
      exact h.follow hh (h.twin.answerMaking id failure) (keepers_answerMaking w' id failure) rfl
    | answerClosing id failure =>
      exact h.follow hh (h.twin.answerClosing id failure) (keepers_answerClosing w' id failure) rfl
    | clone =>
      refine h.stay hh ?_ fun _ => rfl
      rw [Hub.move, hasked]
      exact .refl w
    | dropClone =>
      refine h.stay hh ?_ fun _ => rfl
      rw [Hub.move, dropClone, if_pos hc]
      exact .refl w

/-- So every hub of a run has a shadow. -/
theorem Shadow.play (h : Shadow w w') (ms : List Move) : ∃ w'', Shadow (w.play ms) w'' := by
  induction ms generalizing w w' with
  | nil => exact ⟨w', h⟩
  | cons m ms ih =>
    obtain ⟨w'', hshadow, -⟩ := h.move m
    exact ih hshadow

end Hub

end SharedLinks
