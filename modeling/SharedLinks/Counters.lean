import SharedLinks.Percent
import SharedLinks.Text.Layout

/-!
# Counters

Ten counters tell what happened to the links of a hub. They are 64-bit words and start over at zero
after the largest one.
-/

namespace SharedLinks

/-- What is counted. -/
inductive Counter where
  /-- Calls that asked for a link. -/
  | acquires
  /-- Acquires served at once by an established link. -/
  | hits
  /-- Acquires that had to wait for a creation. -/
  | waits
  /-- References given back. -/
  | releases
  /-- Releases that found no reference to give back. -/
  | unbalancedReleases
  /-- Creations started. -/
  | creations
  /-- Creations that failed. -/
  | creationFailures
  /-- Links closed because nobody held them. -/
  | closes
  /-- Closes of either kind that failed. -/
  | closeFailures
  /-- Links closed by a teardown. -/
  | forceCloses
  deriving DecidableEq

/-- The values of the counters. -/
structure Counters where
  acquires : UInt64 := 0
  hits : UInt64 := 0
  waits : UInt64 := 0
  releases : UInt64 := 0
  unbalancedReleases : UInt64 := 0
  creations : UInt64 := 0
  creationFailures : UInt64 := 0
  closes : UInt64 := 0
  closeFailures : UInt64 := 0
  forceCloses : UInt64 := 0
  deriving DecidableEq, Inhabited

namespace Counters

/-- The value of one counter. -/
def get (m : Counters) : Counter → UInt64
  | .acquires => m.acquires
  | .hits => m.hits
  | .waits => m.waits
  | .releases => m.releases
  | .unbalancedReleases => m.unbalancedReleases
  | .creations => m.creations
  | .creationFailures => m.creationFailures
  | .closes => m.closes
  | .closeFailures => m.closeFailures
  | .forceCloses => m.forceCloses

/-- Raises one counter by `n`. -/
def add (m : Counters) (c : Counter) (n : UInt64) : Counters :=
  match c with
  | .acquires => { m with acquires := m.acquires + n }
  | .hits => { m with hits := m.hits + n }
  | .waits => { m with waits := m.waits + n }
  | .releases => { m with releases := m.releases + n }
  | .unbalancedReleases => { m with unbalancedReleases := m.unbalancedReleases + n }
  | .creations => { m with creations := m.creations + n }
  | .creationFailures => { m with creationFailures := m.creationFailures + n }
  | .closes => { m with closes := m.closes + n }
  | .closeFailures => { m with closeFailures := m.closeFailures + n }
  | .forceCloses => { m with forceCloses := m.forceCloses + n }

/-- Raising a counter changes that one only. -/
theorem get_add (m : Counters) (c d : Counter) (n : UInt64) :
    (m.add c n).get d = if d = c then m.get d + n else m.get d := by
  cases c <;> cases d <;> rfl

/-- Counters with equal values everywhere are equal. -/
theorem ext_get {m₁ m₂ : Counters} (h : ∀ c, m₁.get c = m₂.get c) : m₁ = m₂ := by
  cases m₁
  cases m₂
  simp only [Counters.mk.injEq]
  exact ⟨h .acquires, h .hits, h .waits, h .releases, h .unbalancedReleases, h .creations,
    h .creationFailures, h .closes, h .closeFailures, h .forceCloses⟩

/-- The values in the order of the counters. -/
def toList (m : Counters) : List UInt64 :=
  [m.acquires, m.hits, m.waits, m.releases, m.unbalancedReleases, m.creations,
    m.creationFailures, m.closes, m.closeFailures, m.forceCloses]

/-- The counters with the share of hits among the acquires, after an uptime in seconds. -/
def layout (m : Counters) (uptime : UInt64) : Text.Layout :=
  let count := fun (n : UInt64) => Text.Layout.number n.toNat
  .record "MetricsSnapshot" [
    ("acquires", count m.acquires),
    ("hits", count m.hits),
    ("hit_ratio", .quote (Percent.text m.hits m.acquires)),
    ("waits", count m.waits),
    ("releases", count m.releases),
    ("unbalanced_releases", count m.unbalancedReleases),
    ("creations", count m.creations),
    ("creation_failures", count m.creationFailures),
    ("closes", count m.closes),
    ("close_failures", count m.closeFailures),
    ("force_closes", count m.forceCloses),
    ("uptime_secs", count uptime)]

end Counters

end SharedLinks
