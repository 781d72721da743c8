import SharedLinks.Text.Quoted

/-!
# Link names

Each creation gets a short name by which it can be followed through the records of both ends. The
names come from a counter that advances by a fixed odd step and is scrambled on the way out, so
neighbouring names have nothing in common to the eye. They are not secret.
-/

namespace SharedLinks

/-- The source of link names. -/
structure Namer where
  /-- The counter; it goes through every 64-bit word before it repeats. -/
  state : UInt64
  /-- What every name ends in. -/
  suffix : String
  deriving DecidableEq, Inhabited

namespace Namer

/-- The counter's step, the golden ratio scaled to 64 bits and made odd. -/
def step : UInt64 := 0x9E3779B97F4A7C15

/-- A source started at a seed; a seed of zero counts as one. -/
def ofSeed (seed : UInt64) (suffix : String) : Namer :=
  ⟨if seed = 0 then 1 else seed, suffix⟩

/-- Scrambles a word: two rounds of shift and multiplication and a last shift. -/
def mix (z : UInt64) : UInt64 :=
  let z := (z ^^^ (z >>> 30)) * 0xBF58476D1CE4E5B9
  let z := (z ^^^ (z >>> 27)) * 0x94D049BB133111EB
  z ^^^ (z >>> 31)

/-- The scrambled word that the next name is made from. -/
def word (n : Namer) : UInt64 := mix n.state

/-- The source after one name was drawn. -/
def advance (n : Namer) : Namer := { n with state := n.state + step }

/-- The next name: eight hexadecimal digits of the scrambled word's lower half, a dash and the
suffix. -/
def name (n : Namer) : String :=
  String.ofList (Text.hexFixed 8 n.word.toUInt32.toNat) ++ "-" ++ n.suffix

/-- The source after `count` names were drawn. -/
def skip (n : Namer) (count : Nat) : Namer :=
  { n with state := n.state + UInt64.ofNat count * step }

/-- Skipping one name more draws it first. -/
theorem skip_succ (n : Namer) (count : Nat) : n.skip (count + 1) = n.advance.skip count := by
  have h (a s : UInt64) : a + UInt64.ofNat (count + 1) * s = a + s + UInt64.ofNat count * s := by
    rw [UInt64.ofNat_add, UInt64.add_mul, UInt64.add_comm (_ * s), UInt64.ofNat_one, UInt64.one_mul,
      UInt64.add_assoc]
  unfold skip advance
  rw [h]

/-- The next `count` names in order. -/
def names (n : Namer) (count : Nat) : List String :=
  (List.range count).map fun i => (n.skip i).name

end Namer

end SharedLinks
