import SharedLinks.Hub.Release
import SharedLinks.Hub.Teardown
import SharedLinks.Settings

/-!
# Runs of a hub

A `Move` is one thing that can happen to a hub between two moments at which somebody can look at it:
a call of a caller who holds the hub, a poll or the end of a ticket or of a teardown, a step or the
end of a job, an answer of the provider. `Hub.play` carries out moves in order. Nothing is assumed
about their order: jobs may be run at any time, ready or not, and given up at any time.

A thread that waits for a ticket parks it, parks it again when it was woken, and then drops it.
-/

namespace SharedLinks

/-- One thing that can happen to a hub. -/
inductive Move where
  /-- Asks for the link of a key. -/
  | acquire (key : Key)
  /-- Gives back one reference on the link of a key. -/
  | release (key : Key)
  /-- Polls a ticket of a key. -/
  | poll (key : Key) (ticket : Nat)
  /-- Asks a ticket of a key on behalf of a thread, which waits if there is no outcome. -/
  | park (key : Key) (ticket : Nat)
  /-- Gives a ticket of a key up. -/
  | drop (key : Key) (ticket : Nat)
  /-- Makes a teardown of everything. -/
  | tearDown
  /-- Polls a teardown; the wish tells in which order handles would be taken. -/
  | pollTeardown (index : Nat) (wish : List Key)
  /-- Gives a teardown up. -/
  | dropTeardown (index : Nat)
  /-- Runs a job once. -/
  | runJob (job : JobId)
  /-- Throws a job away. -/
  | abortJob (job : JobId)
  /-- The provider answers whether a link could be made. -/
  | answerMaking (link : LinkId) (failure : Option String)
  /-- The provider answers whether a link could be closed. -/
  | answerClosing (link : LinkId) (failure : Option String)
  /-- One more caller holds the hub. -/
  | clone
  /-- One caller fewer holds the hub. -/
  | dropClone
  deriving DecidableEq

namespace Hub

/-- Does what only a caller who holds the hub can ask for. -/
def asked (w : Hub) (f : Hub → Hub) : Hub := if w.clones = 0 then w else f w

theorem asked_induction {P : Hub → Prop} {w : Hub} {f : Hub → Hub} (stay : w.clones = 0 → P w)
    (go : 0 < w.clones → P (f w)) : P (w.asked f) := by
  unfold asked
  split
  · exact stay ‹_›
  · exact go (Nat.pos_of_ne_zero ‹_›)

/-- The hub after a move. -/
def move (w : Hub) : Move → Hub
  | .acquire k => w.asked fun w => (w.acquire k).1
  | .release k => w.asked fun w => (w.release k).1
  | .poll k n => (w.pollTicket (.forKey k n)).1
  | .park k n => (w.parkTicket (.forKey k n)).1
  | .drop k n => w.dropTicket (.forKey k n)
  | .tearDown => w.asked fun w => w.addTeardown .all
  | .pollTeardown i wish => (w.pollTeardown i wish).1
  | .dropTeardown i => w.dropTeardown i
  | .runJob id => (w.runJob id).1
  | .abortJob id => w.removeJob id
  | .answerMaking id failure => ((w.answerMaking id failure).map Prod.fst).getD w
  | .answerClosing id failure => ((w.answerClosing id failure).map Prod.fst).getD w
  | .clone => w.asked addClone
  | .dropClone => w.dropClone

/-- The hub after some moves in order. -/
def play (w : Hub) (ms : List Move) : Hub := ms.foldl move w

@[simp] theorem play_nil (w : Hub) : w.play [] = w := rfl

theorem play_cons (w : Hub) (m : Move) (ms : List Move) : w.play (m :: ms) = (w.move m).play ms :=
  rfl

theorem play_append (w : Hub) (ms ns : List Move) : w.play (ms ++ ns) = (w.play ms).play ns :=
  List.foldl_append

theorem play_concat (w : Hub) (ms : List Move) (m : Move) :
    w.play (ms ++ [m]) = (w.play ms).move m := by
  rw [play_append, play_cons, play_nil]

end Hub

end SharedLinks
