import SharedLinks.Text.Category

/-!
# Characters that are shown as they are

Quoted text shows a character as it is unless the reader could not see it there. `isShown` refuses
code points that carry no character, characters without a shape of their own, and combining marks,
which would attach themselves to the character before them.
-/

namespace SharedLinks.Text

/-- The character is visible where it stands. Most text is plain ASCII, which needs no table. -/
def isShown (c : Char) : Bool :=
  let n := c.toNat
  if n < 0x7f then 0x20 ≤ n
  else !(inRanges formless n || inRanges combining n || inRanges unassigned n)

end SharedLinks.Text
