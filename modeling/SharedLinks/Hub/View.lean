import SharedLinks.Hub.Basic

/-!
# What a hub shows of itself

Readers may ask a hub how many keys it serves and how often a link is held, and may print it. The
surveys list the shelves by key, those of unused keys left out.
-/

namespace SharedLinks.Hub

/-- How many keys are served, those included whose link is still being created. -/
def size (w : Hub) : Nat := w.servedKeys.length

/-- A handle serves the key. -/
def contains (w : Hub) (k : Key) : Bool := (w.serving k).isSome

/-- How often a key's established link is held. -/
def refCount? (w : Hub) (k : Key) : Option Nat := (w.serving k).bind fun h => (w.phase h).refCount?

/-- The hub and its counters. -/
def layout (w : Hub) : Text.Layout :=
  .record "LinkCache" [
    ("shared", .partRecord "CacheShared" [
      ("cached_links", .number w.size),
      ("management_node", .quote w.node),
      ("metrics", w.counters.layout 0)])]

/-- All keys with a shelf, in order. -/
def sortedKeys (w : Hub) : List Key := w.shelves.keys.mergeSort Key.le

/-- The served keys in order, each with the phase of its handle. -/
def liveSurvey (w : Hub) : List (Key × Phase) :=
  w.sortedKeys.filterMap fun k => (w.serving k).map fun h => (k, w.phase h)

/-- The keys with orphans in order, each with their phases, the oldest first. -/
def orphanSurvey (w : Hub) : List (Key × List Phase) :=
  w.sortedKeys.filterMap fun k =>
    (w.shelf k).orphaned.map fun orphans => (k, orphans.map w.phase)

end SharedLinks.Hub
