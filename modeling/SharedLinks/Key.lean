import SharedLinks.Text.Layout

/-!
# Keys

A link is shared under a key: the path of the entity it leads to and, for a transfer link, the path
that the transfer goes on to. A missing transfer path differs from an empty one. The text of a key
is for messages only, since different keys may print alike; its parts decide equality and order.
-/

namespace SharedLinks

/-- What a link is shared under. -/
structure Key where
  /-- The path of the entity. -/
  path : String
  /-- The path a transfer goes on to, if the link is for a transfer. -/
  transfer : Option String
  deriving DecidableEq, Inhabited

namespace Key

/-- The key as messages name it: path and transfer path joined by a colon. -/
def text (k : Key) : String :=
  match k.transfer with
  | none => k.path
  | some transfer => k.path ++ ":" ++ transfer

/-- The key with its parts told apart. -/
def layout (k : Key) : Text.Layout :=
  .record "LinkKey" [
    ("path", .quote k.path),
    ("transfer_path", .option (k.transfer.map .quote))]

/-- No transfer path comes before any, and two are compared as strings. -/
def transferLe : Option String → Option String → Bool
  | none, _ => true
  | some _, none => false
  | some a, some b => a ≤ b

/-- Keys are ordered by path, then by transfer path. -/
def le (a b : Key) : Bool :=
  if a.path = b.path then transferLe a.transfer b.transfer else a.path ≤ b.path

/-- The places of equal keys in a list, the earlier one first. -/
def equalPairs (ks : List Key) : List (Nat × Nat) :=
  (List.range ks.length).flatMap fun i =>
    ((List.range ks.length).filter fun j => i < j ∧ ks[i]? = ks[j]?).map fun j => (i, j)

/-- How many different keys are in a list. -/
def countDistinct (ks : List Key) : Nat := ks.eraseDups.length

end Key

/-- Different keys may print alike, so the text does not identify a key. -/
theorem Key.text_eq_text_of_joined (a b : String) :
    (Key.mk (a ++ ":" ++ b) none).text = (Key.mk a (some b)).text := rfl

end SharedLinks
