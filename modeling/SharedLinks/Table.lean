/-!
# Tables with a value for every key

A table gives every key a value; all but finitely many keys have the default one. Only the written
keys are stored, in the order in which they were first written, and each of them once. `get` is the
view of a table: after `update` it differs at the updated key and nowhere else.
-/

namespace SharedLinks

/-- A value for every key, stored for the keys written so far. -/
structure Table (κ α : Type) where
  /-- The written keys with their values, the oldest key first. -/
  entries : List (κ × α)
  /-- Each written key is stored once. -/
  distinct : (entries.map Prod.fst).Nodup

namespace Table

variable {κ α : Type} [DecidableEq κ]

/-- The value stored for a key in a list of entries. -/
def find? (k : κ) : List (κ × α) → Option α
  | [] => none
  | (j, a) :: rest => if j = k then some a else find? k rest

/-- Stores a value in place of the key's old one, or at the end. -/
def put (k : κ) (a : α) : List (κ × α) → List (κ × α)
  | [] => [(k, a)]
  | (j, b) :: rest => if j = k then (k, a) :: rest else (j, b) :: put k a rest

theorem map_fst_put (k : κ) (a : α) (es : List (κ × α)) :
    (put k a es).map Prod.fst =
      if k ∈ es.map Prod.fst then es.map Prod.fst else es.map Prod.fst ++ [k] := by
  induction es with
  | nil => simp [put]
  | cons e rest ih =>
    obtain ⟨j, b⟩ := e
    by_cases h : j = k
    · simp [put, h]
    · have h' : k ≠ j := fun e => h e.symm
      simp only [put, h, if_false, List.map_cons, ih, List.mem_cons, h', false_or]
      split <;> simp

theorem nodup_put (k : κ) (a : α) {es : List (κ × α)} (h : (es.map Prod.fst).Nodup) :
    ((put k a es).map Prod.fst).Nodup := by
  rw [map_fst_put]
  split
  · exact h
  · next hk =>
    refine List.nodup_append.2 ⟨h, by simp, ?_⟩
    intro x hx y hy e
    rw [List.mem_singleton] at hy
    exact hk (hy ▸ e ▸ hx)

theorem find?_put_self (k : κ) (a : α) (es : List (κ × α)) :
    find? k (put k a es) = some a := by
  induction es with
  | nil => simp [put, find?]
  | cons e rest ih => by_cases h : e.1 = k <;> simp [put, find?, h, ih]

theorem find?_put_ne {k j : κ} (hj : j ≠ k) (a : α) (es : List (κ × α)) :
    find? j (put k a es) = find? j es := by
  induction es with
  | nil => simp [put, find?, hj.symm]
  | cons e rest ih =>
    by_cases h : e.1 = k
    · have : e.1 ≠ j := fun he => hj (he.symm.trans h)
      simp [put, find?, h, hj.symm]
    · simp [put, find?, h, ih]

/-- A value that is stored twice is the one that was stored last. -/
theorem put_put (k : κ) (a b : α) (es : List (κ × α)) : put k b (put k a es) = put k b es := by
  induction es with
  | nil => simp [put]
  | cons e rest ih => by_cases h : e.1 = k <;> simp [put, h, ih]

/-- The table in which no key was written. -/
def empty : Table κ α := ⟨[], by simp⟩

/-- The written keys, the oldest first. -/
def keys (t : Table κ α) : List κ := t.entries.map Prod.fst

variable [Inhabited α]

/-- The value of a key. -/
def get (t : Table κ α) (k : κ) : α := (find? k t.entries).getD default

/-- Changes the value of one key. -/
def update (t : Table κ α) (k : κ) (f : α → α) : Table κ α :=
  ⟨put k (f (t.get k)) t.entries, nodup_put _ _ t.distinct⟩

@[simp] theorem get_empty (k : κ) : (empty : Table κ α).get k = default := rfl

@[simp] theorem get_update_self (t : Table κ α) (k : κ) (f : α → α) :
    (t.update k f).get k = f (t.get k) := by
  simp [get, update, find?_put_self]

/-- An update leaves every other key alone. -/
theorem get_update_ne (t : Table κ α) {k j : κ} (h : j ≠ k) (f : α → α) :
    (t.update k f).get j = t.get j := by
  simp [get, update, find?_put_ne h]

/-- Two changes at one key are one. -/
theorem update_update (t : Table κ α) (k : κ) (f g : α → α) :
    (t.update k f).update k g = t.update k fun a => g (f a) := by
  simp [get, update, find?_put_self, put_put]

end Table

end SharedLinks
