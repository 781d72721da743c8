import SharedLinks.Proofs.Effects
import SharedLinks.Proofs.Standings

/-!
# Links handed over to be closed

A link that was made is kept by its handle until it is handed over to be closed, for one of four
causes: the last holder released it, it arrived where nobody waited for it any more, it arrived at a
handle that was not waiting, or a teardown closed it. `Outline.Hands` says for which of them, from how
the outline was before a call and how it is after it. The call asks the link to close, for the first
time (`Asked`); after the last release a new job does so (`Entrusted`).

`Later` says in what way outlines go forward: phases and creations do, and handles never take back
what they gave away. So a call hands a link over if and only if it leaves it to nobody (`hands_iff`),
and for one cause (`Hands.unique`).
-/

namespace SharedLinks

/-- How far a handle is in its life. -/
def Phase.age : Phase → Nat
  | .pending _ => 0
  | .live _ _ => 1
  | .orphaned _ => 2
  | .closed => 3

theorem Phase.Alike.age_eq {p q : Phase} (h : p.Alike q) : q.age = p.age := by
  cases h <;> rfl

theorem Phase.Alike.link?_eq {p q : Phase} (h : p.Alike q) : q.link? = p.link? := by
  cases h <;> rfl

theorem Phase.age_of_link? {p : Phase} {link : Link} (h : p.link? = some link) : p.age = 1 := by
  cases p with
  | live => rfl
  | pending | orphaned | closed => contradiction

theorem Phase.link?_of_age {p : Phase} (h : p.age = 1) : ∃ link, p.link? = some link := by
  cases p with
  | live link refs => exact ⟨link, rfl⟩
  | pending | orphaned | closed => simp [age] at h

namespace Outline

/-! ## Going forward -/

/-- The second outline is one that the first can become. -/
structure Later (o o' : Outline) : Prop where
  handles : ∀ k, o.handles k ≤ o'.handles k
  creation : ∀ id c, o.creation? id = some c → ∃ c', o'.creation? id = some c' ∧
    c'.owner = c.owner ∧ c'.link = c.link ∧
      (c.delivered = true → c'.delivered = true ∧ c'.making = c.making)
  age : ∀ h, o.HasMade h → (o.phase h).age ≤ (o'.phase h).age
  link : ∀ h link link', (o.phase h).link? = some link → (o'.phase h).link? = some link' →
    link' = link

namespace Later

variable {o o' o'' : Outline}

theorem refl (o : Outline) : Later o o where
  handles _ := Nat.le_refl _
  creation _ c hc := ⟨c, hc, rfl, rfl, fun hd => ⟨hd, rfl⟩⟩
  age _ _ := Nat.le_refl _
  link _ _ _ hl hl' := Option.some.inj (hl'.symm.trans hl)

theorem hasMade (hl : Later o o') {h : HandleId} (hm : o.HasMade h) : o'.HasMade h :=
  Nat.lt_of_lt_of_le hm (hl.handles _)

/-- A handle that is past waiting and offers a link offered it before. -/
theorem link_of_later (hl : Later o o') {h : HandleId} {link : Link} (hm : o.HasMade h)
    (past : ∀ queue, o.phase h ≠ .pending queue) (offered : (o'.phase h).link? = some link) :
    (o.phase h).link? = some link := by
  have hage := hl.age h hm
  rw [Phase.age_of_link? offered] at hage
  have hone : (o.phase h).age = 1 := by
    cases hp : o.phase h with
    | pending queue => exact absurd hp (past queue)
    | live link refs => rfl
    | orphaned refs => simp [hp, Phase.age] at hage
    | closed => simp [hp, Phase.age] at hage
  obtain ⟨link', hl'⟩ := Phase.link?_of_age hone
  rw [hl', hl.link h link' link hl' offered]

theorem trans (h : Later o o') (h' : Later o' o'') (tidy : o.Tidy) : Later o o'' where
  handles k := Nat.le_trans (h.handles k) (h'.handles k)
  creation id c hc := by
    obtain ⟨c₁, hc₁, ho₁, hl₁, hd₁⟩ := h.creation id c hc
    obtain ⟨c₂, hc₂, ho₂, hl₂, hd₂⟩ := h'.creation id c₁ hc₁
    refine ⟨c₂, hc₂, ho₂.trans ho₁, hl₂.trans hl₁, fun hd => ?_⟩
    obtain ⟨hd', hm'⟩ := hd₁ hd
    obtain ⟨hd'', hm''⟩ := hd₂ hd'
    exact ⟨hd'', hm''.trans hm'⟩
  age hd hm := Nat.le_trans (h.age hd hm) (h'.age hd (h.hasMade hm))
  link hd link link' hl hl' := by
    have hm : o.HasMade hd := tidy.made_of_ne (by intro e; simp [e, Phase.link?] at hl)
    have hage := h.age hd hm
    rw [Phase.age_of_link? hl] at hage
    have hmid := h'.link_of_later (h.hasMade hm) (fun queue e => by simp [e, Phase.age] at hage) hl'
    exact h.link hd link link' hl hmid

/-- Nothing has changed but what jobs there are and how often links were asked to close. -/
theorem of_eq (phase : o'.phase = o.phase) (handles : o'.handles = o.handles)
    (creation : o'.creation? = o.creation?) : Later o o' where
  handles k := Nat.le_of_eq (congrFun handles k).symm
  creation _ c hc := ⟨c, by rw [creation, hc], rfl, rfl, fun hd => ⟨hd, rfl⟩⟩
  age h _ := Nat.le_of_eq (congrArg Phase.age (congrFun phase h)).symm
  link _ _ _ hl hl' := by
    rw [phase] at hl'
    exact Option.some.inj (hl'.symm.trans hl)

/-- A handle has moved on. -/
theorem setPhase (o : Outline) {h : HandleId} {p : Phase} (age : (o.phase h).age ≤ p.age)
    (link : ∀ link link', (o.phase h).link? = some link → p.link? = some link' → link' = link) :
    Later o (o.setPhase h p) where
  handles _ := Nat.le_refl _
  creation _ c hc := ⟨c, hc, rfl, rfl, fun hd => ⟨hd, rfl⟩⟩
  age h' _ := by
    change _ ≤ (if h' = h then p else o.phase h').age
    split
    · rename_i he
      rw [he]
      exact age
    · exact Nat.le_refl _
  link h' l l' hl hl' := by
    rw [link?_setPhase] at hl'
    split at hl'
    · rename_i he
      rw [he] at hl
      exact link l l' hl hl'
    · exact Option.some.inj (hl'.symm.trans hl)

theorem onCreation (o : Outline) {id : LinkId} {f : Creation → Creation}
    (same : ∀ c, o.creation? id = some c → (f c).owner = c.owner ∧ (f c).link = c.link ∧
      (c.delivered = true → (f c).delivered = true ∧ (f c).making = c.making)) :
    Later o (o.onCreation id f) where
  handles _ := Nat.le_refl _
  creation i c hc := by
    change ∃ c', (if i = id then (o.creation? i).map f else o.creation? i) = some c' ∧ _
    split
    · rename_i hi
      rw [hc]
      subst hi
      exact ⟨f c, rfl, same c hc⟩
    · exact ⟨c, hc, rfl, rfl, fun hd => ⟨hd, rfl⟩⟩
  age _ _ := Nat.le_refl _
  link _ _ _ hl hl' := Option.some.inj (hl'.symm.trans hl)

end Later

theorem later_deliver (o : Outline) (id : LinkId) : Later o (o.deliver id) :=
  .onCreation o fun _ _ => ⟨rfl, rfl, fun _ => ⟨rfl, rfl⟩⟩

variable {o o' o'' : Outline} {kind : Kind} {kinds : List Kind}

theorem Works.later {j : Job} {left : Option Stage} (h : Works j o left o') (tidy : o.Tidy) :
    Later o o' := by
  have hset : ∀ {p : Phase} {queue : List TicketId}, o.phase j.owner = .pending queue →
      Later (o.deliver j.link.id) ((o.deliver j.link.id).setPhase j.owner p) := by
    intro p queue hp
    refine .setPhase _ ?_ ?_
    · rw [show (o.deliver j.link.id).phase j.owner = _ from hp]
      exact Nat.zero_le _
    · intro link link' hl
      rw [show (o.deliver j.link.id).phase j.owner = _ from hp] at hl
      contradiction
  have hdeliver := later_deliver o j.link.id
  cases h with
  | wait => exact .refl o
  | granted awaits found made pending => exact hdeliver.trans (hset pending) tidy
  | unwanted awaits found made pending =>
    exact (hdeliver.trans (hset pending) tidy).trans (.of_eq rfl rfl rfl) tidy
  | late => exact hdeliver.trans (.of_eq rfl rfl rfl) tidy
  | failed awaits found made pending => exact hdeliver.trans (hset pending) tidy
  | failedLate => exact hdeliver
  | close => exact .of_eq rfl rfl rfl
  | done => exact .refl o

theorem Step.later (h : Step kind o o') (tidy : o.Tidy) : Later o o' := by
  have hend : ∀ {hd : HandleId}, Later o (o.setPhase hd .closed) := by
    intro hd
    refine .setPhase o ?_ fun _ _ _ hl => absurd hl (by simp [Phase.link?])
    cases o.phase hd <;> simp [Phase.age]
  cases h with
  | tend alike =>
    refine .setPhase o (Nat.le_of_eq alike.age_eq.symm) fun link link' hl hl' => ?_
    rw [alike.link?_eq, hl] at hl'
    exact (Option.some.inj hl').symm
  | make _ k queue =>
    have hnew : ∀ h, o.HasMade h → (o.addHandle k (.pending queue)).phase h = o.phase h := by
      intro h hm
      refine if_neg ?_
      rintro rfl
      exact Nat.lt_irrefl _ hm
    constructor
    · intro j
      change _ ≤ if j = k then o.handles k + 1 else o.handles j
      split
      · rename_i hj
        rw [hj]
        exact Nat.le_succ _
      · exact Nat.le_refl _
    · exact fun id c hc => ⟨c, hc, rfl, rfl, fun hd => ⟨hd, rfl⟩⟩
    · exact fun h hm => Nat.le_of_eq (congrArg Phase.age (hnew h hm)).symm
    · intro h link link' hl hl'
      rw [hnew h (tidy.made_of_ne (by intro e; simp [e, Phase.link?] at hl))] at hl'
      exact Option.some.inj (hl'.symm.trans hl)
  | start owner link fresh undelivered key =>
    constructor
    · exact fun _ => Nat.le_refl _
    · intro id c hc
      refine ⟨c, ?_, rfl, rfl, fun hd => ⟨hd, rfl⟩⟩
      refine (if_neg ?_).trans hc
      rintro rfl
      rw [fresh] at hc
      contradiction
    · exact fun _ _ => Nat.le_refl _
    · exact fun h link link' hl hl' => Option.some.inj (hl'.symm.trans hl)
  | answer same answered =>
    refine .onCreation o fun c hc => ?_
    obtain ⟨howner, hlink, hdelivered⟩ := same c
    refine ⟨howner, hlink, fun hd => ⟨hdelivered.trans hd, answered c hc ?_⟩⟩
    exact (tidy.stands _ c hc).answered hd
  | work split works => exact (works.later tidy).trans (.of_eq rfl rfl rfl) tidy
  | release last => exact hend.trans (.of_eq rfl rfl rfl) tidy
  | drain last => exact hend
  | force live =>
    refine Later.trans (.setPhase o ?_ fun _ _ _ hl => absurd hl (by simp [Phase.link?]))
      (.of_eq rfl rfl rfl) tidy
    simp [live, Phase.age]
  | dismiss pending => exact hend
  | abort fewer => exact .of_eq rfl rfl rfl
  | discard rule fewer => exact .of_eq rfl rfl rfl

theorem Chain.later (chain : Chain kinds o o') (tidy : o.Tidy) : Later o o' := by
  induction chain with
  | refl => exact .refl o
  | tail chain step _ ih => exact ih.trans (step.later (chain.tidy tidy)) tidy

theorem Works.closings_le {j : Job} {left : Option Stage} (h : Works j o left o') (id : LinkId) :
    o.closings id ≤ o'.closings id := by
  cases h with
  | wait | granted | failed | failedLate | done => exact Nat.le_refl _
  | unwanted | late | close => exact closings_le_close o _ id

/-- A link that was asked to close stays so. -/
theorem Step.closings_le (step : Step kind o o') (id : LinkId) :
    o.closings id ≤ o'.closings id := by
  cases step with
  | work split works => exact works.closings_le id
  | force => exact closings_le_close o _ id
  | tend | make | start | answer | release | drain | dismiss | abort | discard => exact Nat.le_refl _

/-! ## Causes -/

/-- The provider's answer has reached the owner, and it was a link. -/
def Succeeded (o : Outline) (id : LinkId) : Prop :=
  ∃ c, o.creation? id = some c ∧ c.delivered = true ∧ c.making = .opened none

/-- The handle is live with this link. -/
def Holds (o : Outline) (h : HandleId) (id : LinkId) : Prop :=
  ∃ link, (o.phase h).link? = some link ∧ link.id = id

/-- The link was made, and no handle is live with it. -/
def Spent (o : Outline) (id : LinkId) : Prop := o.Succeeded id ∧ ∀ h, ¬ o.Holds h id

/-- The handle waits for its link, or is not made yet. -/
def Awaits (o : Outline) (h : HandleId) : Prop := o.HasMade h → ∃ queue, o.phase h = .pending queue

/-- The link of this creation reaches its handle in between. -/
structure Arrives (o o' : Outline) (id : LinkId) (c : Creation) : Prop where
  new : ¬ o.Succeeded id
  found : o'.creation? id = some c
  delivered : c.delivered = true
  made : c.making = .opened none

/-- Why a link has to be closed. -/
inductive Cause where
  /-- The last holder has released it. -/
  | lastRelease
  /-- It has arrived where nobody waits for it any more. -/
  | unwanted
  /-- It has arrived at a handle that does not wait for a link. -/
  | late
  /-- A teardown closes it. -/
  | forced
  deriving DecidableEq

/-- The link is asked to close in between, for the first time and once. -/
structure Asked (o o' : Outline) (id : LinkId) : Prop where
  before : o.closings id = 0
  after : o'.closings id = 1

/-- A new job that closes a link is taken up in between, and no other; the rule for new jobs says what
becomes of it. -/
def Entrusted (o o' : Outline) (j : Job) : Prop :=
  match o.dispatch with
  | .queue => o'.jobs = o.jobs ++ [j] ∧ o'.closings = o.closings
  | .inline => o.Asked o' j.link.id
  | .discard => o'.jobs = o.jobs ∧ o'.closings = o.closings

/-- Between the two outlines the link was handed over to be closed, for this cause. -/
inductive Hands (o o' : Outline) (id : LinkId) : Cause → Prop where
  | lastRelease {h : HandleId} {link : Link} (last : o.phase h = .live link 1) (is : link.id = id)
      (after : o'.phase h = .closed)
      (entrusted : o.Entrusted o' ⟨⟨link.id, .close⟩, h, link, .close⟩) : Hands o o' id .lastRelease
  | unwanted {c : Creation} (arrives : Arrives o o' id c) (awaited : o.Awaits c.owner)
      (after : o'.phase c.owner = .closed) (asked : o.Asked o' id) : Hands o o' id .unwanted
  | late {c : Creation} (arrives : Arrives o o' id c) (gone : ¬ o.Awaits c.owner)
      (asked : o.Asked o' id) : Hands o o' id .late
  | forced {h : HandleId} {refs : Nat}
      (held : o.Holds h id ∨ ∃ c, Arrives o o' id c ∧ c.owner = h ∧ o.Awaits h)
      (after : o'.phase h = .orphaned refs) (asked : o.Asked o' id) : Hands o o' id .forced

section Causes

variable {id : LinkId} {c : Creation} {cause cause' : Cause} {h : HandleId}

/-- A handle that is live with a link owns its creation, which has succeeded. -/
theorem Tidy.creation_of_holds (tidy : o.Tidy) (hh : o.Holds h id) :
    ∃ c, o.creation? id = some c ∧ c.owner = h ∧ (o.phase h).link? = some c.link ∧
      c.delivered = true ∧ c.making = .opened none := by
  obtain ⟨link, hl, rfl⟩ := hh
  obtain ⟨c, hc, rfl, rfl⟩ := tidy.offers h link hl
  obtain ⟨hd, hm, -⟩ := (tidy.stands _ c hc).of_kept hl
  exact ⟨c, hc, rfl, hl, hd, hm⟩

theorem Tidy.succeeded_of_holds (tidy : o.Tidy) (hh : o.Holds h id) : o.Succeeded id := by
  obtain ⟨c, hc, -, -, hd, hm⟩ := tidy.creation_of_holds hh
  exact ⟨c, hc, hd, hm⟩

theorem Tidy.eq_of_holds (tidy : o.Tidy) {h' : HandleId} (hh : o.Holds h id)
    (hh' : o.Holds h' id) : h' = h := by
  obtain ⟨c, hc, rfl, -⟩ := tidy.creation_of_holds hh
  obtain ⟨c', hc', rfl, -⟩ := tidy.creation_of_holds hh'
  obtain rfl := Option.some.inj (hc.symm.trans hc')
  rfl

theorem Tidy.closings_le (tidy : o.Tidy) (id : LinkId) : o.closings id ≤ 1 := by
  cases hc : o.creation? id with
  | none =>
    rw [tidy.unasked id hc]
    exact Nat.zero_le 1
  | some c => exact (tidy.stands id c hc).le_one

/-- A link that a handle keeps was not asked to close. -/
theorem Tidy.closings_of_holds (tidy : o.Tidy) (hh : o.Holds h id) : o.closings id = 0 := by
  obtain ⟨c, hc, rfl, hl, -⟩ := tidy.creation_of_holds hh
  exact ((tidy.stands id c hc).of_kept hl).2.2.1

/-- What was not made is not asked to close. -/
theorem Tidy.closings_of_not (tidy : o.Tidy) (hs : ¬ o.Succeeded id) : o.closings id = 0 := by
  cases hc : o.creation? id with
  | none => exact tidy.unasked id hc
  | some c => exact (tidy.stands id c hc).eq_zero fun hd => hs ⟨c, hc, hd.1, hd.2⟩

theorem Arrives.unique {c' : Creation} (ha : Arrives o o' id c) (ha' : Arrives o o' id c') :
    c' = c :=
  Option.some.inj (ha'.found.symm.trans ha.found)

theorem Later.succeeded (later : Later o o') (hs : o.Succeeded id) : o'.Succeeded id := by
  obtain ⟨c, hc, hd, hm⟩ := hs
  obtain ⟨c', hc', -, -, hd'⟩ := later.creation id c hc
  exact ⟨c', hc', (hd' hd).1, (hd' hd).2.trans hm⟩

/-- A link that is not kept any more is never kept again. -/
theorem Later.spent (later : Later o o') (tidy : o.Tidy) (tidy' : o'.Tidy) (hs : o.Spent id) :
    o'.Spent id := by
  refine ⟨later.succeeded hs.1, fun h hh => ?_⟩
  obtain ⟨c, hc, hd, hm⟩ := hs.1
  obtain ⟨c', hc', howner, hlink, -⟩ := later.creation id c hc
  obtain ⟨c₂, hc₂, rfl, hl, -⟩ := tidy'.creation_of_holds hh
  obtain rfl := Option.some.inj (hc'.symm.trans hc₂)
  rw [howner] at hl
  have := later.link_of_later (tidy.owner id c hc) (tidy.arrived id c hc hd) hl
  exact hs.2 c.owner ⟨c'.link, this, by rw [hlink, tidy.link id c hc]⟩

/-- A link is handed over for one cause only. -/
theorem Hands.unique (tidy : o.Tidy) (hh : Hands o o' id cause) (hh' : Hands o o' id cause') :
    cause' = cause := by
  have hlast : ∀ {h : HandleId} {link : Link}, o.phase h = .live link 1 → link.id = id →
      o.Holds h id := fun hp hid => ⟨_, by rw [hp]; rfl, hid⟩
  cases hh with
  | lastRelease last is after =>
    have hheld := hlast last is
    cases hh' with
    | lastRelease => rfl
    | unwanted arrives => exact absurd (tidy.succeeded_of_holds hheld) arrives.new
    | late arrives => exact absurd (tidy.succeeded_of_holds hheld) arrives.new
    | forced held after' =>
      rcases held with held | ⟨c, arrives, -⟩
      · rw [tidy.eq_of_holds hheld held, after] at after'
        contradiction
      · exact absurd (tidy.succeeded_of_holds hheld) arrives.new
  | unwanted arrives awaited after =>
    cases hh' with
    | lastRelease last is => exact absurd (tidy.succeeded_of_holds (hlast last is)) arrives.new
    | unwanted => rfl
    | late arrives' gone =>
      rw [arrives.unique arrives'] at gone
      exact absurd awaited gone
    | forced held after' =>
      rcases held with held | ⟨c', arrives', rfl, -⟩
      · exact absurd (tidy.succeeded_of_holds held) arrives.new
      · rw [arrives.unique arrives', after] at after'
        contradiction
  | late arrives gone =>
    cases hh' with
    | lastRelease last is => exact absurd (tidy.succeeded_of_holds (hlast last is)) arrives.new
    | unwanted arrives' awaited =>
      rw [arrives.unique arrives'] at awaited
      exact absurd awaited gone
    | late => rfl
    | forced held after' =>
      rcases held with held | ⟨c', arrives', rfl, awaited⟩
      · exact absurd (tidy.succeeded_of_holds held) arrives.new
      · rw [arrives.unique arrives'] at awaited
        exact absurd awaited gone
  | forced held after =>
    cases hh' with
    | lastRelease last is after' =>
      have hheld := hlast last is
      rcases held with held | ⟨c, arrives, -⟩
      · rw [tidy.eq_of_holds hheld held, after'] at after
        contradiction
      · exact absurd (tidy.succeeded_of_holds hheld) arrives.new
    | unwanted arrives awaited after' =>
      rcases held with held | ⟨c', arrives', rfl, -⟩
      · exact absurd (tidy.succeeded_of_holds held) arrives.new
      · rw [arrives.unique arrives', after'] at after
        contradiction
    | late arrives gone =>
      rcases held with held | ⟨c', arrives', rfl, awaited⟩
      · exact absurd (tidy.succeeded_of_holds held) arrives.new
      · rw [arrives.unique arrives'] at awaited
        exact absurd awaited gone
    | forced => rfl

/-- Who is handed over is kept no more. -/
theorem Hands.spent (hh : Hands o o' id cause) (tidy : o.Tidy) (tidy' : o'.Tidy)
    (later : Later o o') : o'.Spent id ∧ ¬ o.Spent id := by
  -- the link of a creation is kept by the owner or by nobody
  have hfree : ∀ {c : Creation}, o'.creation? id = some c → c.delivered = true →
      c.making = .opened none → (o'.phase c.owner).link? ≠ some c.link → o'.Spent id := by
    intro c hc hd hm hl
    refine ⟨⟨c, hc, hd, hm⟩, fun h hold => ?_⟩
    obtain ⟨c', hc', rfl, hl', -⟩ := tidy'.creation_of_holds hold
    obtain rfl := Option.some.inj (hc.symm.trans hc')
    exact hl hl'
  have hheld : ∀ {h : HandleId}, o.Holds h id → (o'.phase h).link? = none →
      o'.Spent id ∧ ¬ o.Spent id := by
    intro h hold hl
    obtain ⟨c, hc, rfl, -, hd, hm⟩ := tidy.creation_of_holds hold
    obtain ⟨c', hc', howner, -, hd'⟩ := later.creation id c hc
    refine ⟨hfree hc' (hd' hd).1 ((hd' hd).2.trans hm) (by simp [howner, hl]), ?_⟩
    exact fun hs => hs.2 _ hold
  cases hh with
  | @lastRelease h link last is after =>
    exact hheld (h := h) ⟨link, by rw [last]; rfl, is⟩ (by rw [after]; rfl)
  | unwanted arrives awaited after =>
    exact ⟨hfree arrives.found arrives.delivered arrives.made (by simp [after, Phase.link?]),
      fun hs => arrives.new hs.1⟩
  | @late c arrives gone =>
    refine ⟨hfree arrives.found arrives.delivered arrives.made ?_, fun hs => arrives.new hs.1⟩
    -- a handle that keeps the link now has kept it before
    rw [Awaits, Classical.not_imp] at gone
    intro hl
    have hbefore := later.link_of_later gone.1 (fun queue e => gone.2 ⟨queue, e⟩) hl
    exact arrives.new (tidy.succeeded_of_holds ⟨c.link, hbefore, tidy'.link id c arrives.found⟩)
  | @forced h refs held after =>
    rcases held with held | ⟨c, arrives, rfl, -⟩
    · exact hheld held (by rw [after]; rfl)
    · exact ⟨hfree arrives.found arrives.delivered arrives.made (by simp [after, Phase.link?]),
        fun hs => arrives.new hs.1⟩

end Causes

/-! ## Links that were kept -/

/-- Handles give links away to teardowns only, which ask them to close. -/
structure Guards (o o' : Outline) : Prop where
  closings : ∀ id, o.closings id ≤ o'.closings id
  link : ∀ h link, (o.phase h).link? = some link → (o'.phase h).link? = some link ∨
    (∃ refs, o'.phase h = .orphaned refs) ∧ 1 ≤ o'.closings link.id
  orphaned : ∀ h refs, o.phase h = .orphaned refs → ∃ refs', o'.phase h = .orphaned refs'

namespace Guards

theorem of_eq (phase : o'.phase = o.phase) (closings : ∀ id, o.closings id ≤ o'.closings id) :
    Guards o o' where
  closings := closings
  link h link hl := Or.inl (by rw [phase, hl])
  orphaned h refs hp := ⟨refs, by rw [phase, hp]⟩

theorem trans (h : Guards o o') (h' : Guards o' o'') : Guards o o'' where
  closings id := Nat.le_trans (h.closings id) (h'.closings id)
  link hd link hl := by
    rcases h.link hd link hl with hl' | ⟨⟨refs, hp⟩, hasked⟩
    · exact h'.link hd link hl'
    · exact Or.inr ⟨h'.orphaned hd refs hp, Nat.le_trans hasked (h'.closings link.id)⟩
  orphaned hd refs hp := by
    obtain ⟨refs', hp'⟩ := h.orphaned hd refs hp
    exact h'.orphaned hd refs' hp'

/-- One handle has moved on, and has given its link away to a teardown if at all. -/
theorem of_setPhase {h : HandleId} {p : Phase} (phase : o'.phase = (o.setPhase h p).phase)
    (closings : ∀ id, o.closings id ≤ o'.closings id)
    (link : ∀ link, (o.phase h).link? = some link →
      p.link? = some link ∨ (∃ refs, p = .orphaned refs) ∧ 1 ≤ o'.closings link.id)
    (orphaned : ∀ refs, o.phase h = .orphaned refs → ∃ refs', p = .orphaned refs') :
    Guards o o' where
  closings := closings
  link h' l hl := by
    rw [phase]
    change (if h' = h then p else o.phase h').link? = _ ∨
      (∃ refs, (if h' = h then p else o.phase h') = _) ∧ _
    split
    · rename_i he
      exact link l (he ▸ hl)
    · exact Or.inl hl
  orphaned h' refs hp := by
    rw [phase]
    change ∃ refs', (if h' = h then p else o.phase h') = _
    split
    · rename_i he
      exact orphaned refs (he ▸ hp)
    · exact ⟨refs, hp⟩

end Guards

theorem Works.guards {j : Job} {left : Option Stage} (h : Works j o left o') : Guards o o' := by
  have hle := h.closings_le
  have hset : ∀ {p : Phase} {queue : List TicketId}, o.phase j.owner = .pending queue →
      o'.phase = (o.setPhase j.owner p).phase → Guards o o' := by
    intro p queue hp hphase
    refine .of_setPhase hphase hle (fun link hl => ?_) fun refs hr => ?_
    · rw [hp] at hl
      contradiction
    · rw [hp] at hr
      contradiction
  cases h with
  | wait | late | failedLate | close | done => exact .of_eq rfl hle
  | granted awaits found made pending => exact hset pending rfl
  | unwanted awaits found made pending => exact hset pending rfl
  | failed awaits found made pending => exact hset pending rfl

theorem Step.guards (h : Step kind o o') (tidy : o.Tidy) (hr : kind ≠ .release)
    (hd : kind ≠ .drain) : Guards o o' := by
  have hle := h.closings_le
  cases h with
  | tend alike =>
    refine .of_setPhase rfl hle (fun link hl => Or.inl (alike.link?_eq.trans hl)) fun refs hp => ?_
    rw [hp] at alike
    cases alike with
    | orphaned _ refs' => exact ⟨refs', rfl⟩
  | make _ k queue =>
    have hnew : ∀ h, o.phase h ≠ .closed → (o.addHandle k (.pending queue)).phase h = o.phase h := by
      intro h hp
      refine if_neg ?_
      rintro rfl
      exact Nat.lt_irrefl _ (tidy.made_of_ne hp)
    refine ⟨hle, fun h link hl => ?_, fun h refs hp => ?_⟩
    · rw [hnew h (by intro e; simp [e, Phase.link?] at hl)]
      exact Or.inl hl
    · exact ⟨refs, (hnew h (by simp [hp])).trans hp⟩
  | start | answer | abort | discard => exact .of_eq rfl hle
  | work split works => exact works.guards.trans (.of_eq rfl fun _ => Nat.le_refl _)
  | release => exact absurd rfl hr
  | drain => exact absurd rfl hd
  | @force _ h link refs live =>
    refine .of_setPhase (p := .orphaned refs) rfl hle (fun l hl => Or.inr ⟨⟨refs, rfl⟩, ?_⟩) ?_
    · rw [live] at hl
      obtain rfl := Option.some.inj hl
      exact one_le_closings_close o _
    · intro refs' hp
      rw [live] at hp
      contradiction
  | dismiss pending =>
    refine .of_setPhase rfl hle (fun link hl => ?_) fun refs hp => ?_
    · rw [pending] at hl
      contradiction
    · rw [pending] at hp
      contradiction

theorem Chain.guards (chain : Chain kinds o o') (tidy : o.Tidy) (hr : .release ∉ kinds)
    (hd : .drain ∉ kinds) : Guards o o' := by
  induction chain with
  | refl => exact .of_eq rfl fun _ => Nat.le_refl _
  | tail chain step allowed ih =>
    exact ih.trans (step.guards (chain.tidy tidy) (fun e => hr (e ▸ allowed)) fun e => hd (e ▸ allowed))

/-- What a job does that has a link to close. -/
theorem Works.eq_of_close {j : Job} {left : Option Stage} (h : Works j o left o')
    (closes : j.stage = .close) : o' = o.close j.link.id := by
  cases h with
  | close => rfl
  | wait awaits | granted awaits | unwanted awaits | late awaits | failed awaits | failedLate awaits
  | done awaits => simp [closes] at awaits

/-- A new job that has a link to close leaves handles and creations alone. -/
theorem Spawns.same_of_close {j : Job} (h : Spawns j o o') (closes : j.stage = .close) :
    o'.phase = o.phase ∧ o'.creation? = o.creation? := by
  cases h with
  | kept | discarded => exact ⟨rfl, rfl⟩
  | run rule works =>
    rw [works.eq_of_close closes]
    exact ⟨rfl, rfl⟩

/-- A link that was never asked to close is entrusted to the new job that has it to close. -/
theorem Spawns.entrusted {j : Job} {h : HandleId} {p : Phase} (hs : Spawns j (o.setPhase h p) o')
    (closes : j.stage = .close) (unasked : o.closings j.link.id = 0) : o.Entrusted o' j := by
  unfold Entrusted
  cases hs with
  | kept rule =>
    rw [show o.dispatch = .queue from rule]
    exact ⟨rfl, rfl⟩
  | run rule works =>
    rw [show o.dispatch = .inline from rule, works.eq_of_close closes]
    exact ⟨unasked, (closings_close_self o _).trans (congrArg (· + 1) unasked)⟩
  | discarded rule =>
    rw [show o.dispatch = .discard from rule]
    exact ⟨rfl, rfl⟩

section Kept

variable {id : LinkId} {h : HandleId}

/-- Giving a reference back takes a link from its handle only if it was the last one. -/
theorem GivesBack.hands {hd : HandleId} (hg : GivesBack hd o o') (tidy : o.Tidy)
    (held : o.Holds h id) (lost : ¬ o'.Holds h id) : Hands o o' id .lastRelease := by
  have hunasked := tidy.closings_of_holds held
  obtain ⟨link, hl, hid⟩ := held
  have hkeep : (o'.phase h).link? ≠ some link := fun e => lost ⟨link, e, hid⟩
  cases hg with
  | vain => exact absurd hl hkeep
  | @tend p alike =>
    refine absurd ?_ hkeep
    rw [link?_setPhase]
    split
    · rename_i he
      rw [alike.link?_eq, ← he, hl]
    · exact hl
  | drain last =>
    refine absurd ?_ hkeep
    rw [link?_setPhase, if_neg, hl]
    rintro rfl
    rw [last] at hl
    contradiction
  | @release _ link' last spawns =>
    have hphase := (spawns.same_of_close rfl).1
    have hh : h = hd := by
      by_contra hne
      rw [hphase, link?_setPhase, if_neg hne] at hkeep
      exact hkeep hl
    subst hh
    rw [last] at hl
    obtain rfl := Option.some.inj hl
    rw [← hid] at hunasked
    exact .lastRelease last hid (by rw [hphase]; exact if_pos rfl) (spawns.entrusted rfl hunasked)

/-- Whatever call takes a link from its handle, hands it over. -/
theorem Does.hands_of_held (hdoes : Does kinds o o') (tidy : o.Tidy) (held : o.Holds h id)
    (lost : ¬ o'.Holds h id) : ∃ cause, Hands o o' id cause := by
  have hguards : Guards o o' → ∃ cause, Hands o o' id cause := by
    intro hg
    have hunasked := tidy.closings_of_holds held
    obtain ⟨link, hl, rfl⟩ := held
    rcases hg.link h link hl with hl' | ⟨⟨refs, hp⟩, hasked⟩
    · exact absurd ⟨link, hl', rfl⟩ lost
    · have hmost := (hdoes.chain.tidy tidy).closings_le link.id
      exact ⟨.forced, .forced (Or.inl ⟨link, hl, rfl⟩) hp ⟨hunasked, Nat.le_antisymm hmost hasked⟩⟩
  have hchain : .release ∉ kinds → .drain ∉ kinds → ∃ cause, Hands o o' id cause :=
    fun hr hd => hguards (hdoes.chain.guards tidy hr hd)
  cases hdoes with
  | rest => exact absurd held lost
  | gives gives => exact ⟨.lastRelease, gives.hands tidy held lost⟩
  | makes | starts | answers | works | aborts | asks | tears => exact hchain (by decide) (by decide)

end Kept

/-! ## Links that arrive -/

section Arrivals

variable {id : LinkId} {c : Creation} {j : Job} {left : Option Stage}

/-- The handle has waited for the link and keeps it, or ends, or it did not wait for the link. Unless it
keeps the link, that is asked to close. -/
def Lands (o o' : Outline) (h : HandleId) (link : Link) : Prop :=
  (∃ queue, o.phase h = .pending queue) ∧
      ((o'.phase h).link? = some link ∨ o'.phase h = .closed ∧ 1 ≤ o'.closings link.id) ∨
    (∀ queue, o.phase h ≠ .pending queue) ∧ 1 ≤ o'.closings link.id

/-- The link that a job brings is that of the job. -/
theorem Works.arrives (h : Works j o left o') (arrives : Arrives o o' id c) :
    id = j.link.id ∧ (∃ c₀, o.creation? id = some c₀ ∧ c = { c₀ with delivered := true }) ∧
      o.Lands o' j.owner j.link := by
  -- without a new creation nothing has arrived
  have hsame : o'.creation? = o.creation? → False := by
    intro e
    have hf := arrives.found
    rw [e] at hf
    exact arrives.new ⟨c, hf, arrives.delivered, arrives.made⟩
  have hdeliver : ∀ {c₀ : Creation}, o.creation? j.link.id = some c₀ →
      o'.creation? = (o.deliver j.link.id).creation? →
      id = j.link.id ∧ o.creation? id = some c₀ ∧ c = { c₀ with delivered := true } := by
    intro c₀ found e
    have hf := arrives.found
    rw [e] at hf
    change (if id = j.link.id then (o.creation? id).map _ else _) = _ at hf
    split at hf
    · rename_i hid
      subst hid
      rw [found] at hf
      exact ⟨rfl, found, (Option.some.inj hf).symm⟩
    · exact absurd ⟨c, hf, arrives.delivered, arrives.made⟩ arrives.new
  have hasked := one_le_closings_close o j.link.id
  cases h with
  | wait => exact absurd rfl hsame
  | close => exact absurd rfl hsame
  | done => exact absurd rfl hsame
  | granted awaits found made pending =>
    obtain ⟨hid, hc, he⟩ := hdeliver found rfl
    refine ⟨hid, ⟨_, hc, he⟩, Or.inl ⟨⟨_, pending⟩, Or.inl ?_⟩⟩
    rw [link?_setPhase, if_pos rfl]
    rfl
  | unwanted awaits found made pending rest =>
    obtain ⟨hid, hc, he⟩ := hdeliver found rfl
    exact ⟨hid, ⟨_, hc, he⟩, Or.inl ⟨⟨_, pending⟩, Or.inr ⟨if_pos rfl, hasked⟩⟩⟩
  | late awaits found made gone rest =>
    obtain ⟨hid, hc, he⟩ := hdeliver found rfl
    exact ⟨hid, ⟨_, hc, he⟩, Or.inr ⟨gone, hasked⟩⟩
  | failed awaits found made pending =>
    obtain ⟨-, -, rfl⟩ := hdeliver found rfl
    have := arrives.made
    rw [show Creation.making _ = _ from made] at this
    simp at this
  | failedLate awaits found made gone =>
    obtain ⟨-, -, rfl⟩ := hdeliver found rfl
    have := arrives.made
    rw [show Creation.making _ = _ from made] at this
    simp at this

/-- The link of a creation that was just requested may arrive at once. -/
theorem Starts.arrives {h : HandleId} {k : Key} (hs : Starts h k o o')
    (arrives : Arrives o o' id c) : c.owner = h ∧ o.Lands o' h c.link := by
  obtain ⟨howner, -, -, undelivered, -, spawns⟩ := hs
  rename_i c₁ r
  have hnew : ¬ (o.request c₁ r).Succeeded id := by
    rintro ⟨c₂, hc₂, hd, hm⟩
    change (if id = c₁.link.id then some c₁ else o.creation? id) = some c₂ at hc₂
    split at hc₂
    · rw [← Option.some.inj hc₂, undelivered] at hd
      contradiction
    · exact arrives.new ⟨c₂, hc₂, hd, hm⟩
  cases spawns with
  | kept => exact absurd ⟨c, arrives.found, arrives.delivered, arrives.made⟩ hnew
  | discarded => exact absurd ⟨c, arrives.found, arrives.delivered, arrives.made⟩ hnew
  | run rule works =>
    obtain ⟨rfl, ⟨c₀, hc₀, rfl⟩, hlands⟩ := works.arrives
      ⟨hnew, arrives.found, arrives.delivered, arrives.made⟩
    obtain rfl : c₁ = c₀ := Option.some.inj ((if_pos rfl).symm.trans hc₀)
    exact ⟨howner, hlands⟩

/-- Links arrive only at handles made in between. Those that do not keep them end, or a teardown has come
by, and their links are asked to close. -/
def Fresh (o o' : Outline) : Prop :=
  ∀ id c, Arrives o o' id c → ¬ o.HasMade c.owner ∧ ((o'.phase c.owner).link? = some c.link ∨
    (o'.phase c.owner = .closed ∨ ∃ refs, o'.phase c.owner = .orphaned refs) ∧
      1 ≤ o'.closings c.link.id)

theorem Fresh.of_eq (h : o'.creation? = o.creation?) : Fresh o o' := by
  intro id c arrives
  refine absurd ⟨c, ?_, arrives.delivered, arrives.made⟩ arrives.new
  rw [← h, arrives.found]

theorem Fresh.trans (h : Fresh o o') (h' : Fresh o' o'') (tidy' : o'.Tidy) (later : Later o o')
    (later' : Later o' o'') (guards : Guards o' o'') : Fresh o o'' := by
  intro id c arrives
  by_cases hs : o'.Succeeded id
  · -- the link was there before, and its handle may only have given it to a teardown
    obtain ⟨c₁, hc₁, hd, hm⟩ := hs
    obtain ⟨hunmade, hphase⟩ := h id c₁ ⟨arrives.new, hc₁, hd, hm⟩
    obtain ⟨c₂, hc₂, howner, hlink, -⟩ := later'.creation id c₁ hc₁
    obtain rfl := Option.some.inj (hc₂.symm.trans arrives.found)
    rw [howner, hlink]
    refine ⟨hunmade, ?_⟩
    rcases hphase with hl | ⟨hp | ⟨refs, hp⟩, hasked⟩
    · rcases guards.link _ _ hl with hl' | ⟨hp, hasked⟩
      · exact Or.inl hl'
      · exact Or.inr ⟨Or.inr hp, hasked⟩
    · refine Or.inr ⟨Or.inl ?_, Nat.le_trans hasked (guards.closings _)⟩
      have hage := later'.age _ (tidy'.owner id c₁ hc₁)
      rw [hp] at hage
      cases hp' : o''.phase c₁.owner with
      | closed => rfl
      | pending | live | orphaned => simp [hp', Phase.age] at hage
    · exact Or.inr ⟨Or.inr (guards.orphaned _ refs hp), Nat.le_trans hasked (guards.closings _)⟩
  · obtain ⟨hunmade, hphase⟩ := h' id c ⟨hs, arrives.found, arrives.delivered, arrives.made⟩
    exact ⟨fun hm => hunmade (later.hasMade hm), hphase⟩

theorem Asks.fresh (ha : Asks o o') : Fresh o o' := by
  cases ha with
  | rest => exact .of_eq rfl
  | tend => exact .of_eq rfl
  | @opened _ k queue starts =>
    intro id c arrives
    obtain ⟨howner, hlands⟩ := starts.arrives
      ⟨arrives.new, arrives.found, arrives.delivered, arrives.made⟩
    have hpending : (o.addHandle k (.pending queue)).phase ⟨k, o.handles k⟩ = .pending queue :=
      if_pos rfl
    rw [howner]
    refine ⟨Nat.lt_irrefl _, ?_⟩
    rcases hlands with ⟨-, hl | ⟨hp, hasked⟩⟩ | ⟨hne, -⟩
    · exact Or.inl hl
    · exact Or.inr ⟨Or.inl hp, hasked⟩
    · exact absurd hpending (hne queue)

theorem ForceCloses.fresh {h : HandleId} (hf : ForceCloses h o o') : Fresh o o' := by
  cases hf with
  | rest => exact .of_eq rfl
  | force => exact .of_eq rfl
  | dismiss pending asks =>
    intro id c arrives
    exact asks.fresh id c ⟨arrives.new, arrives.found, arrives.delivered, arrives.made⟩

theorem TearsDown.fresh {hs : List HandleId} (ht : TearsDown hs o o') (tidy : o.Tidy) :
    Fresh o o' := by
  induction ht with
  | nil => exact .of_eq rfl
  | cons first rest ih =>
    have htidy := first.chain.tidy tidy
    exact first.fresh.trans (ih htidy) htidy (first.chain.later tidy) (rest.chain.later htidy)
      (rest.chain.guards htidy (by decide) (by decide))

/-- Whatever call brings a link that no handle keeps, hands it over. -/
theorem Does.hands_of_arrives (hdoes : Does kinds o o') (tidy : o.Tidy) (tidy' : o'.Tidy)
    (arrives : Arrives o o' id c) (lost : ∀ h, ¬ o'.Holds h id) : ∃ cause, Hands o o' id cause := by
  have hkeep : (o'.phase c.owner).link? ≠ some c.link := fun e =>
    lost c.owner ⟨c.link, e, tidy'.link id c arrives.found⟩
  -- nobody asked a link to close that was not there, and nobody may ask it twice
  have hasked : 1 ≤ o'.closings c.link.id → o.Asked o' id := by
    intro hleast
    rw [tidy'.link id c arrives.found] at hleast
    exact ⟨tidy.closings_of_not arrives.new, Nat.le_antisymm (tidy'.closings_le id) hleast⟩
  have hfresh : Fresh o o' → ∃ cause, Hands o o' id cause := by
    intro hf
    obtain ⟨hunmade, hl | ⟨hp | ⟨refs, hp⟩, hleast⟩⟩ := hf id c arrives
    · exact absurd hl hkeep
    · exact ⟨.unwanted, .unwanted arrives (fun hm => absurd hm hunmade) hp (hasked hleast)⟩
    · exact ⟨.forced, .forced (Or.inr ⟨c, arrives, rfl, fun hm => absurd hm hunmade⟩) hp
        (hasked hleast)⟩
  have hone : o.HasMade c.owner → o.Lands o' c.owner c.link → ∃ cause, Hands o o' id cause := by
    rintro hm (⟨hp, hl | ⟨hp', hleast⟩⟩ | ⟨hne, hleast⟩)
    · exact absurd hl hkeep
    · exact ⟨.unwanted, .unwanted arrives (fun _ => hp) hp' (hasked hleast)⟩
    · refine ⟨.late, .late arrives (fun ha => ?_) (hasked hleast)⟩
      obtain ⟨queue, hp⟩ := ha hm
      exact hne queue hp
  cases hdoes with
  | rest => exact hfresh (.of_eq rfl)
  | makes => exact hfresh (.of_eq rfl)
  | aborts => exact hfresh (.of_eq rfl)
  | asks asks => exact hfresh asks.fresh
  | tears tears => exact hfresh (tears.fresh tidy)
  | starts made starts =>
    obtain ⟨rfl, hlands⟩ := starts.arrives arrives
    exact hone made hlands
  | @works _ o₁ j pre post left split works =>
    obtain ⟨hid, ⟨c₀, hc₀, hc⟩, hlands⟩ := works.arrives
      ⟨arrives.new, arrives.found, arrives.delivered, arrives.made⟩
    obtain ⟨-, c₁, hc₁, howner, hlink⟩ := tidy.job j (by rw [split]; simp)
    obtain rfl : c₁ = c₀ := by
      rw [← hid, hc₀] at hc₁
      exact (Option.some.inj hc₁).symm
    have ho : j.owner = c.owner := by rw [hc, howner]
    have hl : j.link = c.link := by rw [hc, hlink]
    rw [ho, hl] at hlands
    refine hone ?_ hlands
    rw [← ho, ← howner]
    exact tidy.owner id c₁ hc₀
  | @answers _ id' f same answered =>
    -- what was delivered after the answer was delivered and answered before
    have hf := arrives.found
    change (if id = id' then (o.creation? id).map f else o.creation? id) = some c at hf
    split at hf
    · rename_i hid
      subst hid
      obtain ⟨c₀, hc₀, rfl⟩ := Option.map_eq_some_iff.mp hf
      have hd : c₀.delivered = true := (same c₀).2.2.symm.trans arrives.delivered
      have hm := (answered c₀ hc₀ ((tidy.stands _ c₀ hc₀).answered hd)).symm.trans arrives.made
      exact absurd ⟨c₀, hc₀, hd, hm⟩ arrives.new
    · exact absurd ⟨c, hf, arrives.delivered, arrives.made⟩ arrives.new
  | @gives _ _ hd gives =>
    refine hfresh (.of_eq ?_)
    cases gives with
    | vain => rfl
    | tend => rfl
    | drain => rfl
    | release last spawns => exact (spawns.same_of_close rfl).2

/-- A call hands a link over if and only if it leaves it to nobody. -/
theorem Does.hands_iff (hdoes : Does kinds o o') (tidy : o.Tidy) (id : LinkId) :
    (∃ cause, Hands o o' id cause) ↔ o'.Spent id ∧ ¬ o.Spent id := by
  have tidy' := hdoes.chain.tidy tidy
  constructor
  · rintro ⟨cause, hh⟩
    exact hh.spent tidy tidy' (hdoes.chain.later tidy)
  · rintro ⟨hspent, hnew⟩
    obtain ⟨⟨c, hc, hd, hm⟩, hlost⟩ := hspent
    by_cases hs : o.Succeeded id
    · obtain ⟨h, held⟩ : ∃ h, o.Holds h id := by
        by_contra hno
        exact hnew ⟨hs, fun h hh => hno ⟨h, hh⟩⟩
      exact hdoes.hands_of_held tidy held (hlost h)
    · exact hdoes.hands_of_arrives tidy tidy' ⟨hs, hc, hd, hm⟩ hlost

end Arrivals

end Outline

end SharedLinks
