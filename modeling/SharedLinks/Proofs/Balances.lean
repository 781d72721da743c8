import SharedLinks.Proofs.Counting
import SharedLinks.Proofs.Deeds

/-!
# The counters balance

Between two moves the counters of a hub agree with its tickets, handles and creations, modulo the size
of a counter (`balances_play`): each of the four equations says that a hub has no weight under certain
`Weights`, and a hub never gets any (`weight_play`).
-/

namespace SharedLinks

/-! ## What is counted -/

/-- One for a live handle, and nothing for any other. -/
def Phase.lives : Phase → Nat
  | .live _ _ => 1
  | .pending _ | .orphaned _ | .closed => 0

namespace Shelf

/-- How many tickets had to wait and were settled with a link. -/
def served (s : Shelf) : Nat := s.tickets.countP fun t => t.waited && t.isServed

/-- How many live handles serve the key. -/
def established (s : Shelf) : Nat := (s.serving.map fun h => (s.phase h.index).lives).getD 0

/-- How many creations have brought their handles a link. -/
def made (s : Shelf) : Nat := s.creations.countP Creation.isMade

/-- How many creations have not reached their handles. -/
def due (s : Shelf) : Nat := s.creations.countP fun c => !c.delivered

/-- How many handles of the key are live, wherever they are. -/
def sumLives (s : Shelf) : Nat := (s.phases.map Phase.lives).sum

/-- On a shelf that is in order, every live handle serves the key. -/
theorem established_eq_sumLives {k : Key} {s : Shelf} (h : s.Placed k) :
    s.established = s.sumLives := by
  have horphans : (s.orphans.map fun hd => (s.phase hd.index).lives).sum = 0 := by
    refine List.sum_eq_zero_iff_forall_eq_nat.mpr fun n hn => ?_
    obtain ⟨hd, hm, rfl⟩ := List.mem_map.mp hn
    obtain ⟨-, refs, hp⟩ := (h.mem_orphans_iff hd).mp hm
    rw [hp, Phase.lives]
  have hkept := h.sum_kept (f := Phase.lives) rfl
  rw [kept, List.map_append, List.sum_append, horphans] at hkept
  rw [sumLives, ← hkept, established]
  cases s.serving <;> simp

end Shelf

namespace Hub

/-- The sum over all keys; a key that was never written has an empty shelf. -/
def sumOver (w : Hub) (f : Shelf → Nat) : Nat := (w.shelves.keys.map fun k => f (w.shelf k)).sum

theorem sumOver_congr {w : Hub} {f g : Shelf → Nat} (h : ∀ k, f (w.shelf k) = g (w.shelf k)) :
    w.sumOver f = w.sumOver g := by
  simp only [sumOver, h]

end Hub

/-! ## Weights are sums -/

namespace Weights

variable (W : Weights)

theorem sum_ticket (ts : List Ticket) : (ts.map W.ticket).sum =
    W.served * UInt64.ofNat (ts.countP fun t => t.waited && t.isServed) := by
  induction ts with
  | nil => simp
  | cons t ts ih =>
    rw [List.map_cons, List.sum_cons, ih, List.countP_cons, ticket]
    split
    · simp only [UInt64.ofNat_add]
      grind
    · simp

theorem sum_phase (ps : List Phase) : (ps.map W.phase).sum =
    W.live * UInt64.ofNat (ps.map Phase.lives).sum +
      W.ref * UInt64.ofNat (ps.map Phase.refs).sum := by
  induction ps with
  | nil => simp
  | cons p ps ih =>
    rw [List.map_cons, List.sum_cons, ih, List.map_cons, List.sum_cons, List.map_cons, List.sum_cons]
    cases p <;> simp only [phase, Phase.lives, Phase.refs, UInt64.ofNat_add] <;> grind

theorem sum_creation (cs : List Creation) : (cs.map W.creation).sum =
    W.made * UInt64.ofNat (cs.countP Creation.isMade) +
      W.due * UInt64.ofNat (cs.countP fun c => !c.delivered) := by
  induction cs with
  | nil => simp
  | cons c cs ih =>
    rw [List.map_cons, List.sum_cons, ih, List.countP_cons, List.countP_cons, creation]
    cases hd : c.delivered <;> cases hm : c.isMade <;> simp_all [Creation.isMade] <;> grind

theorem shelf_eq (s : Shelf) : W.shelf s =
    W.served * UInt64.ofNat s.served + (W.live * UInt64.ofNat s.sumLives +
      W.ref * UInt64.ofNat s.sumRefs) + (W.made * UInt64.ofNat s.made +
        W.due * UInt64.ofNat s.due) := by
  rw [shelf, sum_ticket, sum_phase, sum_creation]
  rfl

/-- The weight of a hub, from its counters and from what they count. -/
theorem hub_eq (w : Hub) : W.hub w = W.counters w.counters +
    (W.served * UInt64.ofNat (w.sumOver Shelf.served) +
      W.live * UInt64.ofNat (w.sumOver Shelf.sumLives) +
      W.ref * UInt64.ofNat (w.sumOver Shelf.sumRefs) +
      W.made * UInt64.ofNat (w.sumOver Shelf.made) +
      W.due * UInt64.ofNat (w.sumOver Shelf.due)) := by
  unfold hub Hub.sumOver
  congr 1
  induction w.shelves.keys with
  | nil => simp
  | cons k ks ih =>
    rw [List.map_cons, List.sum_cons, ih, shelf_eq]
    simp only [List.map_cons, List.sum_cons, UInt64.ofNat_add]
    grind

/-! ## The laws -/

/-- Calls for links, less hits and waits. -/
def ofCalls : Weights where
  counter
    | .acquires => 1
    | .hits | .waits => -1
    | _ => 0
  served := 0
  ref := 0
  live := 0
  made := 0
  due := 0

/-- Hits and served tickets, less releases and references. -/
def ofReferences : Weights where
  counter
    | .hits => 1
    | .releases => -1
    | _ => 0
  served := 1
  ref := -1
  live := 0
  made := 0
  due := 0

/-- Links that were made, less those that were closed and those that are kept. -/
def ofLinks : Weights where
  counter
    | .closes | .forceCloses => -1
    | _ => 0
  served := 0
  ref := 0
  live := -1
  made := 1
  due := 0

/-- Creations, less those that were made, have failed, or are due. -/
def ofCreations : Weights where
  counter
    | .creations => 1
    | .creationFailures => -1
    | _ => 0
  served := 0
  ref := 0
  live := 0
  made := -1
  due := -1

end Weights

namespace Hub

variable {w₀ : Hub}

section Build

variable {settings : Settings} {seed : UInt64} {ambient : Option Dispatch}

/-- A hub that was just made weighs nothing. -/
theorem weight_build (built : settings.build seed ambient = .ok w₀) (W : Weights) :
    w₀.Patient ∧ W.hub w₀ = 0 := by
  unfold Settings.build at built
  split at built
  · contradiction
  · contradiction
  · contradiction
  · obtain rfl := Except.ok.inj built
    refine ⟨⟨rfl, fun k t ht => ?_⟩, ?_⟩
    · contradiction
    · simp [Weights.hub, Weights.counters, Table.keys, Table.empty]

/-- A hub never gets any weight as long as somebody holds it. -/
theorem weight_play (built : settings.build seed ambient = .ok w₀) (W : Weights) (ms : List Move)
    (held : (w₀.play ms).isHeld = true) : W.hub (w₀.play ms) = 0 := by
  obtain ⟨hpatient, hzero⟩ := weight_build built W
  have hdrifts : Drifts W 0 w₀ (w₀.play ms) := by
    induction ms using List.reverseRecOn with
    | nil => exact .refl W w₀
    | append_singleton ms m ih =>
      rw [play_concat] at held ⊢
      have hbefore := isHeld_of_move held
      exact (ih hbefore).light
        (drifts_move W ((sound_build built).play hbefore) (tidy_play (tidy_build built) ms) m)
  rw [hdrifts.weight hpatient, hzero]
  rfl

/-- What the counters have to do with the hub. -/
structure Tallies (w : Hub) : Prop where
  /-- Every call for a link was a hit or had to wait. -/
  calls : w.counters.acquires = w.counters.hits + w.counters.waits
  /-- Every reference that was handed out was given back, or is counted by a handle. -/
  references : w.counters.hits + UInt64.ofNat (w.sumOver Shelf.served) =
    w.counters.releases + UInt64.ofNat (w.sumOver Shelf.total)
  /-- Every link that was made was closed, or is kept by the handle in service. -/
  links : UInt64.ofNat (w.sumOver Shelf.made) = w.counters.closes + w.counters.forceCloses +
    UInt64.ofNat (w.sumOver Shelf.established)
  /-- Every creation has brought a link, has failed, or has not come to an end. -/
  creations : w.counters.creations = UInt64.ofNat (w.sumOver Shelf.made) +
    w.counters.creationFailures + UInt64.ofNat (w.sumOver Shelf.due)

/-- Whatever happens to a hub, its counters agree with it as long as somebody holds it. -/
theorem balances_play (built : settings.build seed ambient = .ok w₀) (ms : List Move)
    (held : (w₀.play ms).isHeld = true) : (w₀.play ms).Tallies := by
  have hsound := (sound_build built).play held
  have hweight := fun W => weight_play built W ms held
  generalize w₀.play ms = w at hsound hweight
  have hrefs : w.sumOver Shelf.sumRefs = w.sumOver Shelf.total :=
    sumOver_congr fun k => (Shelf.total_eq_sumRefs (hsound.orderly k).placed).symm
  have hlives : w.sumOver Shelf.sumLives = w.sumOver Shelf.established :=
    sumOver_congr fun k => (Shelf.established_eq_sumLives (hsound.orderly k).placed).symm
  simp only [Weights.hub_eq, hrefs, hlives] at hweight
  constructor
  · have h := hweight .ofCalls
    simp only [Weights.counters, Weights.ofCalls] at h
    grind
  · have h := hweight .ofReferences
    simp only [Weights.counters, Weights.ofReferences] at h
    grind
  · have h := hweight .ofLinks
    simp only [Weights.counters, Weights.ofLinks] at h
    grind
  · have h := hweight .ofCreations
    simp only [Weights.counters, Weights.ofCreations] at h
    grind

end Build

/-- Two callers wait for a link and get it, a third one gets it at once, and one gives it back. The
link is closed nevertheless, the next link is never made, and one caller more gives its link back. -/
def askThrice : List Move :=
  [.acquire sampleKey, .acquire sampleKey, .runJob ⟨.made sampleKey 0, .create⟩, .poll sampleKey 0,
    .poll sampleKey 1, .acquire sampleKey, .poll sampleKey 2, .release sampleKey, .tearDown,
    .pollTeardown 0 [], .acquire sampleKey, .abortJob ⟨.made sampleKey 1, .create⟩,
    .release sampleKey]

/-- One reference of three is left on a link that was closed, and one of two creations is due. -/
theorem balances_play_askThrice :
    sampleSettings.build 0 none = .ok sample ∧ (sample.play askThrice).isHeld = true ∧
      (sample.play askThrice).Tallies ∧ (sample.play askThrice).sumOver Shelf.total = 1 ∧
        (sample.play askThrice).sumOver Shelf.due = 1 :=
  have hheld : (sample.play askThrice).isHeld = true := by decide
  ⟨build_sample, hheld, balances_play build_sample askThrice hheld, by decide, by decide⟩

end Hub

end SharedLinks
