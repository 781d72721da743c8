import Mathlib.Data.Finset.Card
import Mathlib.Data.Nat.Digits.Defs
import Mathlib.Data.Set.Function
import Mathlib.Logic.Function.Iterate
import Mathlib.Tactic.Common
import SharedLinks.Namer

/-!
# The names of a whole period

The counter of a `Namer` advances by an odd step, so it takes every 64-bit word once before it repeats
(`bijOn_state`). Scrambling a word loses nothing, since a shift that is mixed in can be taken out
again and both factors have inverses (`mix_bijective`); so the scrambled words repeat no earlier, and
each half of a word comes as often as any other (`card_filter_toUInt32`). A name shows the lower half
of its word in hexadecimal digits. `Text.hexNumber` reads such digits, and each text of eight of them
is one half of a word (`hexFixed_eq_iff`). `period_ofSeed` puts that together.
-/

namespace SharedLinks

/-! ## Hexadecimal digits -/

namespace Text

/-- The hexadecimal digits in the order of their values, the letters in lower case. -/
def hexDigits : List Char :=
  ['0', '1', '2', '3', '4', '5', '6', '7', '8', '9', 'a', 'b', 'c', 'd', 'e', 'f']

/-- The value of a hexadecimal digit. -/
def hexValue (c : Char) : Nat := hexDigits.idxOf c

/-- The number that hexadecimal digits denote, the highest digit first. -/
def hexNumber (cs : List Char) : Nat := Nat.ofDigits 16 (cs.reverse.map hexValue)

theorem hexDigit_mem : ∀ n < 16, hexDigit n ∈ hexDigits := by decide

theorem hexValue_hexDigit : ∀ n < 16, hexValue (hexDigit n) = n := by decide

theorem exists_hexDigit {c : Char} (h : c ∈ hexDigits) : ∃ n < 16, hexDigit n = c := by
  have hall : hexDigits = (List.range 16).map hexDigit := rfl
  simpa [hall] using h

theorem hexValue_lt {c : Char} (h : c ∈ hexDigits) : hexValue c < 16 := by
  obtain ⟨n, hn, rfl⟩ := exists_hexDigit h
  rwa [hexValue_hexDigit n hn]

theorem hexDigit_hexValue {c : Char} (h : c ∈ hexDigits) : hexDigit (hexValue c) = c := by
  obtain ⟨n, hn, rfl⟩ := exists_hexDigit h
  rw [hexValue_hexDigit n hn]

@[simp] theorem length_hexFixed (width n : Nat) : (hexFixed width n).length = width := by
  induction width generalizing n with
  | zero => rfl
  | succ width ih => rw [hexFixed, List.length_append, ih, List.length_singleton]

theorem mem_hexDigits_of_mem_hexFixed {width n : Nat} {c : Char} (h : c ∈ hexFixed width n) :
    c ∈ hexDigits := by
  induction width generalizing n with
  | zero => exact absurd h List.not_mem_nil
  | succ width ih =>
    rw [hexFixed, List.mem_append, List.mem_singleton] at h
    rcases h with h | rfl
    · exact ih h
    · exact hexDigit_mem _ (Nat.mod_lt _ (by decide))

/-- The last digit counts once, all others sixteen times as much as without it. -/
theorem hexNumber_concat (cs : List Char) (c : Char) :
    hexNumber (cs ++ [c]) = hexValue c + 16 * hexNumber cs := by
  rw [hexNumber, List.reverse_append, List.reverse_singleton, List.singleton_append, List.map_cons,
    Nat.ofDigits_cons, hexNumber]

/-- The digits that are written denote the number, what does not fit aside. -/
theorem hexNumber_hexFixed (width n : Nat) : hexNumber (hexFixed width n) = n % 16 ^ width := by
  induction width generalizing n with
  | zero => rw [pow_zero, Nat.mod_one]; rfl
  | succ width ih =>
    have hlast := hexValue_hexDigit (n % 16) (Nat.mod_lt _ (by decide))
    rw [hexFixed, hexNumber_concat, ih, hlast, pow_succ', Nat.mod_mul]

/-- Digits are what is written for the number that they denote. -/
theorem hexFixed_hexNumber {cs : List Char} (h : ∀ c ∈ cs, c ∈ hexDigits) :
    hexFixed cs.length (hexNumber cs) = cs := by
  induction cs using List.reverseRecOn with
  | nil => rfl
  | append_singleton cs c ih =>
    have hc : c ∈ hexDigits := h c (by simp)
    have hlt := hexValue_lt hc
    have hdiv : (hexValue c + 16 * hexNumber cs) / 16 = hexNumber cs := by omega
    have hmod : (hexValue c + 16 * hexNumber cs) % 16 = hexValue c := by omega
    rw [List.length_append, List.length_singleton, hexNumber_concat, hexFixed, hdiv, hmod,
      ih fun d hd => h d (List.mem_append_left _ hd), hexDigit_hexValue hc]

/-- A text of digits is written for the one number below the bound that it denotes. -/
theorem hexFixed_eq_iff {cs : List Char} (h : ∀ c ∈ cs, c ∈ hexDigits) {n : Nat}
    (hn : n < 16 ^ cs.length) : hexFixed cs.length n = cs ↔ n = hexNumber cs := by
  constructor
  · intro e
    have hnumber := hexNumber_hexFixed cs.length n
    rwa [e, Nat.mod_eq_of_lt hn, eq_comm] at hnumber
  · rintro rfl
    exact hexFixed_hexNumber h

theorem hexNumber_lt {cs : List Char} (h : ∀ c ∈ cs, c ∈ hexDigits) :
    hexNumber cs < 16 ^ cs.length := by
  rw [← hexFixed_hexNumber h, hexNumber_hexFixed, length_hexFixed]
  exact Nat.mod_lt _ (by positivity)

end Text

namespace Namer

/-! ## The counter -/

/-- Skipping some names is drawing them. -/
theorem skip_eq_iterate (n : Namer) (count : Nat) : n.skip count = advance^[count] n := by
  induction count generalizing n with
  | zero =>
    change { n with state := n.state + 0 * step } = n
    rw [UInt64.zero_mul, UInt64.add_zero]
  | succ count ih => rw [skip_succ, ih, Function.iterate_succ_apply]

theorem state_iterate (n : Namer) (i : Nat) :
    (advance^[i] n).state = n.state + UInt64.ofNat i * step := by
  rw [← skip_eq_iterate, skip]

theorem suffix_iterate (n : Namer) (i : Nat) : (advance^[i] n).suffix = n.suffix := by
  rw [← skip_eq_iterate, skip]

/-- How many steps raise the counter by one. -/
def stepInverse : UInt64 := 0xF1DE83E19937733D

theorem step_mul_stepInverse : step * stepInverse = 1 := by decide

/-- The counter takes every word once in a period. -/
theorem bijOn_state (n : Namer) :
    Set.BijOn (fun i => (advance^[i] n).state) (Set.Iio (2 ^ 64)) Set.univ := by
  refine ⟨fun _ _ => Set.mem_univ _, ?_, ?_⟩
  · intro i hi j hj e
    rw [Set.mem_Iio] at hi hj
    have hsteps : UInt64.ofNat i * step = UInt64.ofNat j * step := by
      simpa only [state_iterate, UInt64.add_right_inj] using e
    have hword : UInt64.ofNat i = UInt64.ofNat j := by
      have := congrArg (· * stepInverse) hsteps
      simpa only [UInt64.mul_assoc, step_mul_stepInverse, UInt64.mul_one] using this
    have := congrArg UInt64.toNat hword
    rwa [UInt64.toNat_ofNat', UInt64.toNat_ofNat', Nat.mod_eq_of_lt hi, Nat.mod_eq_of_lt hj] at this
  · intro z _
    refine ⟨((z - n.state) * stepInverse).toNat, UInt64.toNat_lt _, ?_⟩
    have hsteps : (z - n.state) * stepInverse * step = z - n.state := by
      rw [UInt64.mul_assoc, UInt64.mul_comm stepInverse, step_mul_stepInverse, UInt64.mul_one]
    change (advance^[_] n).state = z
    rw [state_iterate, UInt64.ofNat_toNat, hsteps, UInt64.add_comm, UInt64.sub_add_cancel]

/-- After a period the source is where it was. -/
theorem iterate_period (n : Namer) {period : Nat} (h : UInt64.ofNat period = 0) :
    advance^[period] n = n := by
  rw [← skip_eq_iterate, skip, h, UInt64.zero_mul, UInt64.add_zero]

/-! ## Scrambling

A shift of the scrambler covers at least a third of the word and less than half of it: shifted twice
the word is still there in part, shifted three times it is gone. So a shift that was mixed in is taken
out again by mixing in two. -/

/-- Mixes a word with itself shifted to the right. -/
def mixShift (d z : UInt64) : UInt64 := z ^^^ (z >>> d)

/-- Takes a shift out again that was mixed in. -/
def unmixShift (d z : UInt64) : UInt64 := z ^^^ (z >>> d) ^^^ (z >>> (d + d))

/-- Two shifts do not reach over the word, and three do. -/
structure IsThird (d : UInt64) : Prop where
  two : 2 * d.toNat < 64
  three : 64 ≤ 3 * d.toNat

section Shifts

variable {d : UInt64} (h : IsThird d) (z : UInt64)

include h

theorem toNat_shiftRight_third :
    (z >>> d).toNat = z.toNat >>> d.toNat ∧
      (z >>> (d + d)).toNat = z.toNat >>> (d.toNat + d.toNat) := by
  have htwo := h.two
  have hone : d.toNat % 64 = d.toNat := Nat.mod_eq_of_lt (by omega)
  have hsum : (d + d).toNat % 64 = d.toNat + d.toNat := by
    rw [UInt64.toNat_add]
    omega
  rw [UInt64.toNat_shiftRight, UInt64.toNat_shiftRight, hone, hsum]
  exact ⟨rfl, rfl⟩

theorem shiftRight_twice : (z >>> d) >>> d = z >>> (d + d) := by
  apply UInt64.toNat_inj.mp
  rw [(toNat_shiftRight_third h _).1, (toNat_shiftRight_third h z).1, (toNat_shiftRight_third h z).2,
    Nat.shiftRight_add]

theorem shiftRight_thrice : (z >>> (d + d)) >>> d = 0 ∧ (z >>> d) >>> (d + d) = 0 := by
  have hgone : z.toNat >>> (d.toNat + d.toNat + d.toNat) = 0 := by
    have hthree := h.three
    rw [Nat.shiftRight_eq_div_pow, Nat.div_eq_of_lt]
    exact lt_of_lt_of_le (UInt64.toNat_lt z) (Nat.pow_le_pow_right (by decide) (by omega))
  constructor
  · apply UInt64.toNat_inj.mp
    rw [(toNat_shiftRight_third h _).1, (toNat_shiftRight_third h z).2, ← Nat.shiftRight_add]
    exact hgone
  · apply UInt64.toNat_inj.mp
    rw [(toNat_shiftRight_third h _).2, (toNat_shiftRight_third h z).1, ← Nat.shiftRight_add,
      ← Nat.add_assoc]
    exact hgone

theorem unmixShift_mixShift : unmixShift d (mixShift d z) = z := by
  unfold unmixShift mixShift
  rw [UInt64.shiftRight_xor, UInt64.shiftRight_xor, shiftRight_twice h, (shiftRight_thrice h z).2,
    UInt64.xor_zero]
  calc z ^^^ z >>> d ^^^ (z >>> d ^^^ z >>> (d + d)) ^^^ z >>> (d + d)
      = z ^^^ (z >>> d ^^^ z >>> d) ^^^ (z >>> (d + d) ^^^ z >>> (d + d)) := by ac_rfl
    _ = z := by simp only [UInt64.xor_self, UInt64.xor_zero]

theorem mixShift_unmixShift : mixShift d (unmixShift d z) = z := by
  unfold unmixShift mixShift
  rw [UInt64.shiftRight_xor, UInt64.shiftRight_xor, shiftRight_twice h, (shiftRight_thrice h z).1,
    UInt64.xor_zero]
  calc z ^^^ z >>> d ^^^ z >>> (d + d) ^^^ (z >>> d ^^^ z >>> (d + d))
      = z ^^^ (z >>> d ^^^ z >>> d) ^^^ (z >>> (d + d) ^^^ z >>> (d + d)) := by ac_rfl
    _ = z := by simp only [UInt64.xor_self, UInt64.xor_zero]

end Shifts

theorem isThird_shifts : IsThird 30 ∧ IsThird 27 ∧ IsThird 31 :=
  ⟨⟨by decide, by decide⟩, ⟨by decide, by decide⟩, ⟨by decide, by decide⟩⟩

/-- Undoes the scrambling, the last round first. -/
def unmix (z : UInt64) : UInt64 :=
  let z := unmixShift 31 z * 0x319642B2D24D8EC3
  let z := unmixShift 27 z * 0x96DE1B173F119089
  unmixShift 30 z

/-- The factors of the two rounds, each with its inverse. -/
theorem factors_mul_inverses : (0xBF58476D1CE4E5B9 * 0x96DE1B173F119089 : UInt64) = 1 ∧
    (0x94D049BB133111EB * 0x319642B2D24D8EC3 : UInt64) = 1 := by decide

theorem mix_eq (z : UInt64) : mix z =
    mixShift 31 (mixShift 27 (mixShift 30 z * 0xBF58476D1CE4E5B9) * 0x94D049BB133111EB) := rfl

theorem unmix_mix (z : UInt64) : unmix (mix z) = z := by
  obtain ⟨h30, h27, h31⟩ := isThird_shifts
  obtain ⟨hfirst, hsecond⟩ := factors_mul_inverses
  rw [mix_eq]
  unfold unmix
  simp only [unmixShift_mixShift h31, UInt64.mul_assoc, hsecond, UInt64.mul_one,
    unmixShift_mixShift h27, hfirst, unmixShift_mixShift h30]

theorem mix_unmix (z : UInt64) : mix (unmix z) = z := by
  obtain ⟨h30, h27, h31⟩ := isThird_shifts
  obtain ⟨hfirst, hsecond⟩ := factors_mul_inverses
  rw [UInt64.mul_comm] at hfirst hsecond
  rw [mix_eq]
  unfold unmix
  simp only [mixShift_unmixShift h30, UInt64.mul_assoc, hfirst, UInt64.mul_one,
    mixShift_unmixShift h27, hsecond, mixShift_unmixShift h31]

/-- No two words are scrambled into the same one, and every word comes out. -/
theorem mix_bijective : Function.Bijective mix :=
  Function.bijective_iff_has_inverse.mpr ⟨unmix, unmix_mix, mix_unmix⟩

/-! ## The words of a period -/

/-- Every word comes up once in a period. -/
theorem bijOn_word (n : Namer) :
    Set.BijOn (fun i => (advance^[i] n).word) (Set.Iio (2 ^ 64)) Set.univ :=
  (Set.bijOn_univ.mpr mix_bijective).comp (bijOn_state n)

/-- Each lower half comes up with every upper half. -/
theorem card_filter_toUInt32 (n : Namer) (low : UInt32) :
    ((Finset.range (2 ^ 64)).filter fun i => (advance^[i] n).word.toUInt32 = low).card = 2 ^ 32 := by
  have hlow : ∀ i, (advance^[i] n).word.toUInt32 = low →
      (advance^[i] n).word.toNat % 2 ^ 32 = low.toNat := by
    rintro i rfl
    rw [UInt64.toNat_toUInt32]
  have hbij := bijOn_word n
  rw [← Finset.card_range (2 ^ 32)]
  refine Finset.card_nbij (fun i => (advance^[i] n).word.toNat / 2 ^ 32) ?_ ?_ ?_
  · intro i _
    have hlt := UInt64.toNat_lt (advance^[i] n).word
    rw [Finset.coe_range, Set.mem_Iio]
    exact Nat.div_lt_of_lt_mul (by omega)
  · intro i hi j hj e
    rw [Finset.mem_coe, Finset.mem_filter, Finset.mem_range] at hi hj
    refine hbij.injOn hi.1 hj.1 (UInt64.toNat_inj.mp ?_)
    have hi' := hlow i hi.2
    have hj' := hlow j hj.2
    change (advance^[i] n).word.toNat / 2 ^ 32 = (advance^[j] n).word.toNat / 2 ^ 32 at e
    change (advance^[i] n).word.toNat = (advance^[j] n).word.toNat
    omega
  · intro high hhigh
    rw [Finset.coe_range, Set.mem_Iio] at hhigh
    have hlt := UInt32.toNat_lt low
    have hword : (UInt64.ofNat (high * 2 ^ 32 + low.toNat)).toNat = high * 2 ^ 32 + low.toNat := by
      rw [UInt64.toNat_ofNat', Nat.mod_eq_of_lt (by omega)]
    obtain ⟨i, hi, hz⟩ := hbij.surjOn (Set.mem_univ (UInt64.ofNat (high * 2 ^ 32 + low.toNat)))
    change (advance^[i] n).word = _ at hz
    refine ⟨i, ?_, ?_⟩
    · rw [Finset.mem_coe, Finset.mem_filter, Finset.mem_range]
      refine ⟨hi, UInt32.toNat_inj.mp ?_⟩
      rw [hz, UInt64.toNat_toUInt32, hword]
      omega
    · change (advance^[i] n).word.toNat / 2 ^ 32 = high
      rw [hz, hword]
      omega

/-! ## Names -/

/-- A name is the digits of the lower half of its word, a dash and the suffix. -/
theorem toList_name (n : Namer) :
    n.name.toList = Text.hexFixed 8 n.word.toUInt32.toNat ++ '-' :: n.suffix.toList := by
  rw [name, String.toList_append, String.toList_append, String.toList_ofList, List.append_assoc]
  rfl

/-- A name begins with the digits that denote the lower half of its word. -/
theorem take_name_eq_iff (n : Namer) {digits : List Char} (hlen : digits.length = 8)
    (h : ∀ c ∈ digits, c ∈ Text.hexDigits) :
    n.name.toList.take 8 = digits ↔ n.word.toUInt32 = UInt32.ofNat (Text.hexNumber digits) := by
  have hlt : Text.hexNumber digits < 2 ^ 32 := by
    have := Text.hexNumber_lt h
    rw [hlen] at this
    omega
  have hhalf := UInt32.toNat_lt n.word.toUInt32
  have hdigits := Text.hexFixed_eq_iff h (n := n.word.toUInt32.toNat) (by rw [hlen]; omega)
  rw [toList_name, List.take_left' (Text.length_hexFixed 8 _), ← UInt32.toNat_inj,
    UInt32.toNat_ofNat', Nat.mod_eq_of_lt hlt, ← hdigits, hlen]

/-- What holds of any `2 ^ 64` draws in a row. -/
structure Period (n : Namer) : Prop where
  /-- Each word is scrambled once. -/
  bijOn : Set.BijOn (fun i => (advance^[i] n).word) (Set.Iio (2 ^ 64)) Set.univ
  /-- The draw after them starts over. -/
  repeats : (advance^[2 ^ 64] n).word = n.word
  /-- Each text of eight digits begins as many names as any other. -/
  evenly : ∀ digits : List Char, digits.length = 8 → (∀ c ∈ digits, c ∈ Text.hexDigits) →
    ((Finset.range (2 ^ 64)).filter fun i =>
      (advance^[i] n).name.toList.take 8 = digits).card = 2 ^ 32

theorem period (n : Namer) : n.Period := by
  refine ⟨bijOn_word n, ?_, fun digits hlen h => ?_⟩
  · rw [iterate_period n (show UInt64.ofNat (2 ^ 64) = 0 by decide)]
  · rw [← card_filter_toUInt32 n (UInt32.ofNat (Text.hexNumber digits))]
    simp only [take_name_eq_iff _ hlen h]

/-- Wherever one starts to look at the names of a source, every 64-bit word is scrambled once before
words start over, and every beginning of eight digits comes equally often. Each name is eight lower-case
hexadecimal digits, which denote the lower half of the scrambled word, then a dash and the suffix. -/
theorem period_ofSeed (seed : UInt64) (suffix : String) (drawn : Nat) :
    (advance^[drawn] (ofSeed seed suffix)).Period ∧
    ∃ digits : List Char,
      (advance^[drawn] (ofSeed seed suffix)).name = String.ofList digits ++ "-" ++ suffix ∧
      digits.length = 8 ∧ (∀ c ∈ digits, c ∈ Text.hexDigits) ∧
      Text.hexNumber digits = (advance^[drawn] (ofSeed seed suffix)).word.toNat % 2 ^ 32 := by
  let half := (advance^[drawn] (ofSeed seed suffix)).word.toUInt32
  refine ⟨period _, Text.hexFixed 8 half.toNat, ?_, Text.length_hexFixed 8 _,
    fun c => Text.mem_hexDigits_of_mem_hexFixed, ?_⟩
  · rw [name, suffix_iterate]
    rfl
  · have hhalf := UInt32.toNat_lt half
    rw [Text.hexNumber_hexFixed, Nat.mod_eq_of_lt (by omega), UInt64.toNat_toUInt32]

end Namer

end SharedLinks
