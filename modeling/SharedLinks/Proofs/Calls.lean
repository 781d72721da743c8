import SharedLinks.Proofs.Backed
import SharedLinks.Proofs.Books

/-!
# Calls on one key

Asking for a link, giving a reference back, and the life of a ticket each come to one step on the
shelf of the key: `acquire_does`, `release_does`, `pollTicket_turned`, `dropTicket_refund` and the
like.
-/

namespace SharedLinks

namespace Hub

variable {k : Key} {i : Nat} {w w' : Hub} {mark : Mark}

/-! ## Asking for links -/

/-- Requesting a link adds a creation to the shelf of the key, after which its job is taken up. -/
theorem startCreation_spec (w : Hub) (h : HandleId) (k : Key) :
    ∃ (c : Creation) (w' : Hub), Quiet k w w' ∧
      w'.shelf k = { w.shelf k with creations := (w.shelf k).creations ++ [c] } ∧
      c.owner = h ∧ c.link.id = .made k (w.shelf k).creations.length ∧ c.delivered = false ∧
      w.startCreation h k = w'.spawn ⟨⟨c.link.id, .create⟩, h, c.link, .awaitLink⟩ := by
  unfold startCreation
  extract_lets shelf request index prospect link creation w₁ w₂ w₃
  have hnamer : Silent w w₁ := ⟨rfl, rfl, rfl, rfl, rfl, rfl⟩
  have hnote := silent_note w₁ (.creating h.key request.linkName request.target)
  have hcount : Silent w₁ w₂ := hnote.trans (silent_count _ .creations)
  have hsilent := hnamer.trans hcount
  have hquiet : Quiet k w (w₂.emit (.create link.id request)) :=
    ((Quiet.refl k w).silent hsilent).emit (fun _ => rfl) fun _ => Event.noConfusion
  have hshelf := shelf_onShelf_self (w₂.emit (.create link.id request)) k fun s =>
    { s with creations := s.creations ++ [creation] }
  rw [shelf_emit, hsilent.shelf] at hshelf
  exact ⟨creation, w₃, hquiet.onShelf _, hshelf, rfl, rfl, rfl, rfl⟩

/-- Opening a handle comes to a write on the shelf of the key, after which the job of the new creation
is taken up. -/
theorem openHandle_spec (w : Hub) (k : Key) (queue : List TicketId)
    (hlen : (w.shelf k).creations.length = (w.shelf k).phases.length) :
    ∃ (c : Creation) (w' : Hub) (j : Job), c.IsNew k (w.shelf k).creations.length ∧
      w.openHandle k queue = w'.spawn j ∧ Quiet k w w' ∧
      w'.shelf k = (w.shelf k).openHandle k queue c ∧ j.stage = .awaitLink ∧
      (w'.shelf k).Backs k (w.shelf k).creations.length j := by
  have hshelf : ((w.addHandle k (.pending queue)).setServing k (some (w.nextHandle k))).shelf k =
      { w.shelf k with
        serving := some ⟨k, (w.shelf k).phases.length⟩
        phases := (w.shelf k).phases ++ [.pending queue] } := by
    change (((w.onShelf k _).onShelf k _).shelf k) = _
    rw [shelf_onShelf_self, shelf_onShelf_self]
    rfl
  have hquiet : Quiet k w ((w.addHandle k (.pending queue)).setServing k (some (w.nextHandle k))) :=
    ((Quiet.refl k w).onShelf _).onShelf _
  unfold openHandle
  simp only
  obtain ⟨c, w', hq, hs, howner, hlink, hd, hstart⟩ := startCreation_spec
    ((w.addHandle k (.pending queue)).setServing k (some (w.nextHandle k))) (w.nextHandle k) k
  rw [hshelf] at hs hlink
  have howner' : c.owner = ⟨k, (w.shelf k).creations.length⟩ := by
    rw [howner, hlen]
    rfl
  refine ⟨c, w', _, ⟨howner', hlink, hd⟩, hstart, hquiet.trans hq, hs, rfl, ?_⟩
  refine ⟨⟨c, ?_, rfl, fun _ => hd⟩, hlink, howner ▸ howner', fun _ => rfl, ?_⟩
  · rw [hs]
    exact List.getElem?_concat_length
  · intro hne
    contradiction

/-- Changes on the shelf of the key that come to a turn once a handle was opened. -/
theorem openHandle_does {queue : List TicketId} (h : Quiet k w w') (held : w.isHeld = true)
    (orderly : (w.shelf k).Orderly k)
    (hcreations : (w'.shelf k).creations = (w.shelf k).creations)
    (hphases : (w'.shelf k).phases.length = (w.shelf k).phases.length)
    (turn : ∀ c : Creation, c.IsNew k (w.shelf k).creations.length →
      Shelf.Turn k (w.shelf k) mark ((w'.shelf k).openHandle k queue c)) :
    ∃ woken, Does k mark woken w (w'.openHandle k queue) := by
  have hlen := orderly.recorded.length
  obtain ⟨c, w₁, j, hnew, hspawn, hquiet, hshelf, hstage, hback⟩ :=
    openHandle_spec w' k queue (by rw [hcreations, hphases, hlen])
  rw [hcreations] at hnew hback
  have hturned : Turned k mark w w₁ := ⟨h.trans hquiet, by rw [hshelf]; exact turn c hnew⟩
  rw [hspawn]
  obtain ⟨woken, hdoes, -⟩ := hturned.spawn held orderly hback fun _ => by
    refine ⟨?_, Nat.le_of_eq hlen.symm⟩
    rw [hshelf, hlen, ← hphases]
    rfl
  exact ⟨woken, hdoes⟩

/-- Joining the handle in service is a turn. -/
theorem join_turned (orderly : (w.shelf k).Orderly k) (hs : (w.shelf k).serving = some ⟨k, i⟩) :
    Turned k .asked w (w.join ⟨k, i⟩).1 ∧
      (w.join ⟨k, i⟩).2 = some (.forKey k (w.shelf k).tickets.length) := by
  have hopen := orderly.placed.isOpen_of_serving hs
  have hphase : w.phase ⟨k, i⟩ = (w.shelf k).phase i := rfl
  unfold join
  rw [hphase]
  cases hp : (w.shelf k).phase i with
  | live link refs =>
    refine ⟨⟨(((Quiet.refl k w).onShelf _).onShelf _).count _, ?_⟩, rfl⟩
    rw [shelf_count, setPhase_eq, shelf_onShelf_self, addTicket_eq, shelf_onShelf_self]
    exact .hit hp
  | pending queue =>
    refine ⟨⟨(((Quiet.refl k w).onShelf _).onShelf _).count _, ?_⟩, rfl⟩
    rw [shelf_count, setPhase_eq, shelf_onShelf_self, addTicket_eq, shelf_onShelf_self]
    exact .wait hp
  | orphaned refs =>
    rw [hp] at hopen
    contradiction
  | closed =>
    rw [hp] at hopen
    contradiction

/-- Asking for the link of a key is a step that gives out the next ticket of the key. -/
theorem acquire_does (held : w.isHeld = true) (orderly : (w.shelf k).Orderly k) :
    ∃ woken, Does k .asked woken w (w.acquire k).1 := by
  unfold acquire
  simp only
  rw [show (w.count .acquires).serving k = (w.shelf k).serving from rfl]
  cases hs : (w.shelf k).serving with
  | none =>
    have hq : Quiet k w (((w.count .acquires).addTicket k .fresh).count .waits) :=
      (((Quiet.refl k w).count _).onShelf _).count _
    have hshelf : (((w.count .acquires).addTicket k .fresh).count .waits).shelf k =
        (w.shelf k).addTicket .fresh := by
      rw [shelf_count, addTicket_eq, shelf_onShelf_self, shelf_count]
    refine openHandle_does hq held orderly (by rw [hshelf]; rfl) (by rw [hshelf]; rfl) ?_
    intro c hc
    rw [hshelf]
    exact .enter hs hc
  | some h =>
    obtain ⟨rfl, -⟩ := (orderly.placed.serving_iff h).mp hs
    obtain ⟨key, i⟩ := h
    have hj := join_turned (w := w.count .acquires) orderly hs
    have hturned : Turned key .asked w ((w.count .acquires).join ⟨key, i⟩).1 :=
      ⟨((Quiet.refl key w).count _).trans hj.1.toQuiet, hj.1.turn⟩
    simp only
    split
    · rename_i w' id hjoin
      rw [hjoin] at hturned
      exact ⟨[], hturned.does⟩
    · rename_i w' hjoin
      rw [hjoin] at hj
      simp at hj

/-! ## Giving references back -/

/-- A reference goes back to a handle that counts one, and the last one ends the handle. -/
theorem giveBack_does (report : Bool) (h : Quiet k w w') (held : w.isHeld = true)
    (orderly : (w.shelf k).Orderly k) (hphases : (w'.shelf k).phases = (w.shelf k).phases)
    (hcreations : (w'.shelf k).creations = (w.shelf k).creations)
    (hrefs : 0 < ((w.shelf k).phase i).refs)
    (turn : Shelf.Turn k (w.shelf k) mark ((w'.shelf k).giveBack ⟨k, i⟩)) :
    ∃ woken, Does k mark woken w (w'.giveBack ⟨k, i⟩ report).1 ∧
      (w'.giveBack ⟨k, i⟩ report).1.shelf k = (w'.shelf k).giveBack ⟨k, i⟩ ∧
      (w'.giveBack ⟨k, i⟩ report).2 = .ok () := by
  have hphase : (w'.shelf k).phase i = (w.shelf k).phase i := Shelf.phase_congr hphases i
  have hlt : i < (w'.shelf k).phases.length := by
    rw [hphases]
    apply Shelf.lt_of_phase_ne
    intro e
    rw [e] at hrefs
    exact absurd hrefs (Nat.lt_irrefl 0)
  have hheld : (w'.setPhase ⟨k, i⟩ .closed).isHeld = true := (h.frame.onShelf _).isHeld.trans held
  have hmove : ∀ p, (w'.setPhase ⟨k, i⟩ p).shelf k = (w'.shelf k).setPhase i p := fun p =>
    shelf_onShelf_self w' k (·.setPhase i p)
  have hclose : ((w'.setPhase ⟨k, i⟩ .closed).forget k ⟨k, i⟩).shelf k =
      ((w'.shelf k).setPhase i .closed).forget ⟨k, i⟩ := by
    rw [shelf_forget hheld, hmove]
  unfold Hub.giveBack
  rw [show w'.phase ⟨k, i⟩ = (w.shelf k).phase i from hphase]
  unfold Shelf.giveBack at turn ⊢
  rw [show (w'.shelf k).phase (HandleId.mk k i).index = (w.shelf k).phase i from hphase] at turn ⊢
  cases hp : (w.shelf k).phase i with
  | pending queue => simp [hp, Phase.refs] at hrefs
  | closed => simp [hp, Phase.refs] at hrefs
  | live link refs =>
    rw [hp] at turn
    obtain _ | _ | n := refs
    · simp [hp, Phase.refs] at hrefs
    · -- the last reference: the handle ends, and a job is taken up that closes its link
      let w₁ := (((w'.setPhase ⟨k, i⟩ .closed).forget k ⟨k, i⟩).count .releases).count .closes
      have hturned : Turned k mark w w₁ := by
        refine ⟨(((h.onShelf _).forget _).count _).count _, ?_⟩
        change Shelf.Turn k (w.shelf k) mark (((w'.setPhase ⟨k, i⟩ .closed).forget k ⟨k, i⟩).shelf k)
        rw [hclose]
        exact turn
      obtain ⟨c, found, hlink, -⟩ := orderly.recorded.creation_of_live hp
      have hret : (w₁.shelf k).Retired i := by
        change (((w'.setPhase ⟨k, i⟩ .closed).forget k ⟨k, i⟩).shelf k).Retired i
        rw [hclose]
        refine ⟨?_, ?_⟩
        · rw [Shelf.phases_forget, Shelf.length_setPhase]
          exact hlt
        · rw [Shelf.phase_forget, Shelf.phase_setPhase_self hlt]
          rfl
      have hback : (w₁.shelf k).Backs k i ⟨⟨link.id, .close⟩, ⟨k, i⟩, link, .close⟩ := by
        refine ⟨⟨c, ?_, hlink, fun e => by contradiction⟩, orderly.recorded.id_of_live hp, rfl,
          fun e => by contradiction, fun _ => hret⟩
        change (((w'.setPhase ⟨k, i⟩ .closed).forget k ⟨k, i⟩).shelf k).creations[i]? = some c
        rw [hclose, Shelf.creations_forget]
        exact hcreations ▸ found
      obtain ⟨woken, hdoes, hstay⟩ := hturned.spawn held orderly hback fun e => by contradiction
      exact ⟨woken, hdoes, (hstay (by simp)).trans hclose, rfl⟩
    · refine ⟨[], Turned.does ⟨(h.onShelf _).count _, ?_⟩, hmove _, rfl⟩
      rw [shelf_count, hmove]
      exact turn
  | orphaned refs =>
    rw [hp] at turn
    obtain _ | _ | n := refs
    · simp [hp, Phase.refs] at hrefs
    · refine ⟨[], Turned.does ⟨(((h.onShelf _).forget _).count _).note _, ?_⟩, hclose, rfl⟩
      rw [shelf_note, shelf_count, hclose]
      exact turn
    · refine ⟨[], Turned.does ⟨(h.onShelf _).count _, ?_⟩, hmove _, rfl⟩
      rw [shelf_count, hmove]
      exact turn

/-- A handle that counts no references takes none back. -/
theorem giveBack_refused (w : Hub) (h : HandleId) (report : Bool) (hrefs : (w.phase h).refs = 0) :
    Silent w (w.giveBack h report).1 ∧ (w.giveBack h report).2 = .error (.unbalancedRelease h.key) := by
  unfold Hub.giveBack
  split
  · rename_i hp
    simp [hp, Phase.refs] at hrefs
  · rename_i hp
    simp [hp, Phase.refs] at hrefs
  · rename_i hp
    simp [hp, Phase.refs] at hrefs
  · rename_i hp
    simp [hp, Phase.refs] at hrefs
  · refine ⟨?_, rfl⟩
    dsimp only
    split
    · exact (silent_count _ _).trans (silent_note _ _)
    · exact Silent.refl w

theorem giveBackFirst_cons {h : HandleId} (hs : List HandleId)
    (hok : (w.giveBack h false).2 = .ok ()) :
    w.giveBackFirst (h :: hs) = some (w.giveBack h false).1 := by
  unfold giveBackFirst
  split
  · rename_i heq
    rw [heq]
  · rename_i heq
    rw [heq] at hok
    contradiction

/-- A release of a key with references takes one of the oldest orphan, or of the handle in service if
there are no orphans. -/
theorem release_does (held : w.isHeld = true) (orderly : (w.shelf k).Orderly k)
    (hpos : 0 < (w.shelf k).total) :
    ∃ woken, Does k .released woken w (w.release k).1 ∧
      Shelf.Turn k (w.shelf k) .released ((w.release k).1.shelf k) ∧ (w.release k).2 = .ok () := by
  have hzero : ¬ (w.shelf k).total = 0 := by omega
  rw [Shelf.total_eq_zero_iff] at hzero
  unfold release
  cases ho : (w.shelf k).orphans with
  | cons h hs =>
    obtain ⟨rfl, n, hn⟩ := (orderly.placed.mem_orphans_iff h).mp (by simp [ho])
    obtain ⟨key, i⟩ := h
    have hrefs : 0 < ((w.shelf key).phase i).refs :=
      orderly.placed.refs_pos_of_ne (by simp [hn]) (by simp [hn])
    have hturn : Shelf.Turn key (w.shelf key) .released ((w.shelf key).giveBack ⟨key, i⟩) :=
      .releaseOrphan (by rw [ho]; rfl)
    obtain ⟨woken, hdoes, hshelf, hok⟩ :=
      giveBack_does false (Quiet.refl key w) held orderly rfl rfl hrefs hturn
    rw [giveBackFirst_cons hs hok]
    refine ⟨woken, hdoes, ?_, rfl⟩
    rw [hshelf]
    exact hturn
  -- without orphans the references can only be those of the handle in service
  | nil =>
    have hserving : ∃ i, (w.shelf k).serving = some ⟨k, i⟩ ∧ 0 < ((w.shelf k).phase i).refs := by
      by_contra hnone
      apply hzero
      intro hd hm
      unfold Shelf.kept at hm
      rw [ho, List.append_nil, Option.mem_toList] at hm
      obtain ⟨rfl, -⟩ := (orderly.placed.serving_iff hd).mp hm
      by_contra hne
      exact hnone ⟨hd.index, hm, Nat.pos_of_ne_zero hne⟩
    obtain ⟨i, hs, hrefs⟩ := hserving
    have hturn : Shelf.Turn k (w.shelf k) .released ((w.shelf k).giveBack ⟨k, i⟩) :=
      .releaseLive ho hs hrefs
    obtain ⟨woken, hdoes, hshelf, hok⟩ :=
      giveBack_does true (Quiet.refl k w) held orderly rfl rfl hrefs hturn
    have hopen : (w.phase ⟨k, i⟩).isClosed = false := by
      have := orderly.placed.isOpen_of_serving hs
      rw [phase_eq]
      cases hp : (w.shelf k).phase i <;> simp_all [Phase.isOpen, Phase.isClosed]
    simp only [giveBackFirst, serving_eq, hs, hopen, Bool.false_eq_true, ↓reduceIte]
    refine ⟨woken, hdoes, ?_, hok⟩
    rw [hshelf]
    exact hturn

/-- A release of a key without references does nothing but count and note. -/
theorem release_silent (orderly : (w.shelf k).Orderly k) (hzero : (w.shelf k).total = 0) :
    Silent w (w.release k).1 := by
  rw [Shelf.total_eq_zero_iff] at hzero
  have ho : (w.shelf k).orphans = [] := by
    rw [List.eq_nil_iff_forall_not_mem]
    intro hd hm
    obtain ⟨-, n, hn⟩ := (orderly.placed.mem_orphans_iff hd).mp hm
    have hpos := orderly.placed.refs_pos_of_ne (i := hd.index) (by simp [hn]) (by simp [hn])
    have := hzero hd (List.mem_append_right _ hm)
    omega
  unfold release
  simp only [ho, giveBackFirst, serving_eq]
  cases hs : (w.shelf k).serving with
  | none => exact silent_note _ _
  | some h =>
    have hopen := ((orderly.placed.serving_iff h).mp hs).2
    have hrefs := hzero h (List.mem_append_left _ (by simp [hs]))
    obtain ⟨rfl, -⟩ := (orderly.placed.serving_iff h).mp hs
    have hclosed : (w.phase h).isClosed = false := by
      rw [phase_eq]
      cases hp : (w.shelf h.key).phase h.index <;> simp_all [Phase.isOpen, Phase.isClosed]
    simp only [hclosed, Bool.false_eq_true, ↓reduceIte]
    exact (giveBack_refused w h true hrefs).1

/-! ## The life of a ticket -/

theorem touch_take (t : Ticket) (sleeper : Sleeper) : t.state.Touch (t.take sleeper).1.state := by
  unfold Ticket.take
  split
  · rename_i hs
    rw [hs]
    exact .sleep _ _
  · rename_i hs
    rw [hs]
    exact .claim _ _
  · exact .same _
  · exact .same _

theorem touch_poll (t : Ticket) : t.state.Touch t.poll.1.state :=
  touch_take t (.poll t.polls)

/-- Whatever touches a ticket of the key is a turn. -/
theorem setTicket_turned {n : Nat} {t t' : Ticket} (found : (w.shelf k).tickets[n]? = some t)
    (touched : t.state.Touch t'.state) : Turned k .even w (w.setTicket (.forKey k n) t') := by
  refine ⟨(Quiet.refl k w).onShelf _, ?_⟩
  rw [setTicket_eq, shelf_onShelf_self]
  exact .touch found touched

/-- A poll of a ticket is a turn. -/
theorem pollTicket_turned (w : Hub) (k : Key) (n : Nat) :
    Turned k .even w (w.pollTicket (.forKey k n)).1 := by
  unfold pollTicket
  rw [ticket?_eq]
  cases ht : (w.shelf k).tickets[n]? with
  | none => exact Turned.rest k w
  | some t => exact setTicket_turned ht (touch_poll t)

/-- A thread that asks a ticket makes a turn. -/
theorem parkTicket_turned (w : Hub) (k : Key) (n : Nat) :
    Turned k .even w (w.parkTicket (.forKey k n)).1 := by
  unfold parkTicket
  rw [ticket?_eq]
  cases ht : (w.shelf k).tickets[n]? with
  | none => exact Turned.rest k w
  | some t => exact setTicket_turned ht (touch_take t .thread)

variable {n : Nat} {t : Ticket} {link : Link}

/-- Dropping an unclaimed ticket hands its reference back to the handle that granted the link. -/
theorem dropTicket_unclaimed (found : (w.shelf k).tickets[n]? = some t)
    (unclaimed : t.state = .settled (.ok link) (some (.handle ⟨k, i⟩))) :
    ∃ w₁, Quiet k w w₁ ∧ w₁.shelf k = (w.shelf k).dropUnclaimed n t link ∧
      w.dropTicket (.forKey k n) = (w₁.giveBack ⟨k, i⟩ false).1 := by
  refine ⟨(w.setTicket (.forKey k n) { t with state := .dropped (some (.ok link)) }).note
    (.unclaimed k), ((Quiet.refl k w).onShelf _).note _, ?_, ?_⟩
  · rw [shelf_note, setTicket_eq, shelf_onShelf_self]
    rfl
  · unfold dropTicket
    rw [ticket?_eq, found]
    simp only [Ticket.drop, unclaimed, refund]

/-- An unclaimed ticket whose handle has come to its end is dropped in vain. -/
theorem dropTicket_stray (found : (w.shelf k).tickets[n]? = some t)
    (unclaimed : t.state = .settled (.ok link) (some (.handle ⟨k, i⟩)))
    (spent : (w.shelf k).phase i = .closed) :
    Turned k .stray w (w.dropTicket (.forKey k n)) ∧
      (w.dropTicket (.forKey k n)).shelf k = (w.shelf k).dropUnclaimed n t link := by
  obtain ⟨w₁, hq, hshelf, heq⟩ := dropTicket_unclaimed found unclaimed
  have hrefs : (w₁.phase ⟨k, i⟩).refs = 0 := by
    rw [phase_eq, hshelf]
    change ((w.shelf k).phase i).refs = 0
    rw [spent]
    rfl
  have hsilent := (giveBack_refused w₁ ⟨k, i⟩ false hrefs).1
  rw [← heq] at hsilent
  have hend := (hsilent.shelf k).trans hshelf
  refine ⟨⟨hq.silent hsilent, ?_⟩, hend⟩
  rw [hend]
  exact .stray found unclaimed spent

/-- An unclaimed ticket gives its reference back to the handle that granted the link, unless that has
come to its end. -/
theorem dropTicket_refund (held : w.isHeld = true) (orderly : (w.shelf k).Orderly k)
    (found : (w.shelf k).tickets[n]? = some t)
    (unclaimed : t.state = .settled (.ok link) (some (.handle ⟨k, i⟩)))
    (hc : (w.shelf k).phase i ≠ .closed) :
    ∃ woken, Does k .even woken w (w.dropTicket (.forKey k n)) ∧
      (w.dropTicket (.forKey k n)).shelf k =
        ((w.shelf k).dropUnclaimed n t link).giveBack ⟨k, i⟩ ∧
      Shelf.Turn k (w.shelf k) .even ((w.dropTicket (.forKey k n)).shelf k) := by
  have hid : link.id = .made k i := by
    obtain ⟨i', hid, hr⟩ := orderly.refund_of_unclaimed found unclaimed
    obtain rfl : i = i' := by simpa using hr
    exact hid
  have hrefs := orderly.refs_pos_of_held found (by rw [Ticket.held?, unclaimed]) hid hc
  have hturn : Shelf.Turn k (w.shelf k) .even
      (((w.shelf k).dropUnclaimed n t link).giveBack ⟨k, i⟩) := .refund found unclaimed hrefs
  obtain ⟨w₁, hq, hshelf, heq⟩ := dropTicket_unclaimed found unclaimed
  obtain ⟨woken, hdoes, hend, -⟩ := giveBack_does false hq held orderly (by rw [hshelf]; rfl)
    (by rw [hshelf]; rfl) hrefs (hshelf ▸ hturn)
  rw [← heq] at hdoes hend
  rw [hshelf] at hend
  refine ⟨woken, hdoes, hend, ?_⟩
  rw [hend]
  exact hturn

/-- Any other ticket is dropped without a reference going back. -/
theorem dropTicket_turned (h : ∀ t : Ticket, (w.shelf k).tickets[n]? = some t →
    t.isUnclaimed = false) : Turned k .even w (w.dropTicket (.forKey k n)) := by
  unfold dropTicket
  rw [ticket?_eq]
  cases ht : (w.shelf k).tickets[n]? with
  | none => exact Turned.rest k w
  | some t =>
    have hclaim := h t ht
    unfold Ticket.isUnclaimed at hclaim
    have hdrop : t.drop.2 = none ∧ t.state.Touch t.drop.1.state := by
      unfold Ticket.drop
      split
      · rename_i hs
        exact ⟨rfl, by rw [hs]; exact .abandon _⟩
      · rename_i hs
        simp [hs] at hclaim
      · rename_i hs
        exact ⟨rfl, by rw [hs]; exact .discard _ _⟩
      · exact ⟨rfl, .same _⟩
      · exact ⟨rfl, .same _⟩
    cases hd : t.drop with
    | mk t' r =>
      rw [hd] at hdrop
      obtain rfl : r = none := hdrop.1
      simp only [hd]
      exact setTicket_turned ht hdrop.2

/-! ## Answers of the provider -/

/-- An answer that changes a creation of the key and makes jobs ready is a turn. -/
theorem onCreation_turned (w : Hub) (k : Key) (i : Nat) (stage : Stage) {f : Creation → Creation}
    (owner : ∀ c, (f c).owner = c.owner) (link : ∀ c, (f c).link = c.link)
    (delivered : ∀ c, (f c).delivered = c.delivered) :
    Turned k .even w ((w.onCreation (.made k i) f).rouse (.made k i) stage) := by
  have hq : Quiet k w (w.onCreation (.made k i) f) := (Quiet.refl k w).onShelf _
  refine ⟨⟨hq.frame.jobs _ _, hq.wakes, hq.jobs, hq.closes⟩, ?_⟩
  change Shelf.Turn k (w.shelf k) .even ((w.onShelf k _).shelf k)
  rw [shelf_onShelf_self]
  exact .answer owner link delivered

/-- An answer to a creation is such a turn, or it comes to nothing. -/
theorem answer_turned (w : Hub) (id : LinkId) (stage : Stage) {f : Creation → Creation}
    (owner : ∀ c, (f c).owner = c.owner) (link : ∀ c, (f c).link = c.link)
    (delivered : ∀ c, (f c).delivered = c.delivered) {g : Creation → Hub × Bool}
    (answers : ∀ c, (g c).1 = w ∨ (g c).1 = (w.onCreation id f).rouse id stage) :
    (((w.creation? id).map g).map Prod.fst).getD w = w ∨
      ∃ k, Turned k .even w ((((w.creation? id).map g).map Prod.fst).getD w) := by
  cases id with
  | brought n => exact Or.inl rfl
  | made k i =>
    cases w.creation? (.made k i) with
    | none => exact Or.inl rfl
    | some c =>
      rw [Option.map_some, Option.map_some, Option.getD_some]
      rcases answers c with h | h
      · exact Or.inl h
      · rw [h]
        exact Or.inr ⟨k, onCreation_turned w k i stage owner link delivered⟩

theorem answerMaking_turned (w : Hub) (id : LinkId) (failure : Option String) :
    ((w.answerMaking id failure).map Prod.fst).getD w = w ∨
      ∃ k, Turned k .even w (((w.answerMaking id failure).map Prod.fst).getD w) := by
  refine answer_turned w id .awaitLink (f := fun c => { c with making := .opened failure })
    (fun _ => rfl) (fun _ => rfl) (fun _ => rfl) fun c => ?_
  cases c.making with
  | opened answer => exact Or.inl rfl
  | shut => exact Or.inr rfl

theorem answerClosing_turned (w : Hub) (id : LinkId) (failure : Option String) :
    ((w.answerClosing id failure).map Prod.fst).getD w = w ∨
      ∃ k, Turned k .even w (((w.answerClosing id failure).map Prod.fst).getD w) := by
  refine answer_turned w id .awaitClose (f := fun c => { c with closing := .opened failure })
    (fun _ => rfl) (fun _ => rfl) (fun _ => rfl) fun c => ?_
  cases c.closing with
  | opened answer => exact Or.inl rfl
  | shut => exact Or.inr rfl

end Hub

end SharedLinks
