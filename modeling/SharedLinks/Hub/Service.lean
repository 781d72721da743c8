import SharedLinks.Hub.Basic

/-!
# Handles in and out of service

A handle that has come to its end is taken out of the hub, by number, so that a newer handle of the
same key stays. A teardown takes all handles out of service and keeps them as orphans.
-/

namespace SharedLinks.Hub

/-- Takes a handle out of a key's shelf: out of service if it serves the key, else out of the
orphans. Once nobody holds the hub there is nothing to take it out of. -/
def forget (w : Hub) (k : Key) (h : HandleId) : Hub :=
  if w.isHeld then
    if w.serving k = some h then (w.setServing k none).note (.forgot k)
    else w.onShelf k fun s => s.dropOrphan h
  else w

/-- Takes a key's handle out of service if it takes no new callers. -/
def purgeKey (w : Hub) (k : Key) : Hub :=
  match w.serving k with
  | none => w
  | some h => if (w.phase h).isOpen then w else w.setServing k none

/-- Takes every handle out of service that takes no new callers. -/
def purge (w : Hub) : Hub := w.servedKeys.foldl purgeKey w

/-- Takes a key's handle out of service and keeps it as the newest orphan. -/
def unlink (w : Hub) (k : Key) : Hub :=
  match w.serving k with
  | none => w
  | some h => w.onShelf k fun s => { s with serving := none, orphaned := some (s.orphans ++ [h]) }

/-- The served keys, those of a wished order first and in that order. -/
def servedInOrder (w : Hub) (wish : List Key) : List Key :=
  wish.eraseDups.filter (· ∈ w.servedKeys) ++ w.servedKeys.filter (· ∉ wish)

/-- Takes all handles out of service, and lists them in the wished order. -/
def unlinkAll (w : Hub) (wish : List Key) : Hub × List HandleId :=
  let keys := w.servedInOrder wish
  (keys.foldl unlink w, keys.filterMap w.serving)

end SharedLinks.Hub
