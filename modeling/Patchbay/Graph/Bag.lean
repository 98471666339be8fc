import Patchbay.Graph.Value

/-!
# Property bags

A bag holds values under keys, in the order in which the keys first came in. That order is the
order of operands and of the properties in a snapshot.

* `Bag.getNamed?_eq_get?`: a name is a key like any other;
* `Bag.get?_set_self`, `Bag.get?_set_of_ne`: a write is read back, and no other key sees it;
* `Bag.keys_set`: a write keeps the order, and puts a new key last;
* `Bag.nodup_keys_set`: a write never makes two properties of one key.
-/

namespace Patchbay

/-- Values under keys, in the order of the first write of each key. -/
structure Bag where
  entries : List (Key × Value)
deriving DecidableEq

namespace Bag

/-- The bag without properties. -/
def empty : Bag := ⟨[]⟩

/-- The keys, in order. -/
def keys (b : Bag) : List Key := b.entries.map Prod.fst

/-- The values, in order. -/
def values (b : Bag) : List Value := b.entries.map Prod.snd

/-- The number of properties. -/
def size (b : Bag) : Nat := b.entries.length

/-- Whether there is no property. -/
def isEmpty (b : Bag) : Bool := b.entries.isEmpty

/-- The value under a key. -/
def get? (b : Bag) (key : Key) : Option Value :=
  (b.entries.find? (·.1 = key)).map Prod.snd

/-- The value under a name, which is looked for among the names alone. -/
def getNamed? (b : Bag) (name : String) : Option Value :=
  (b.entries.find? (·.1.isNamed name)).map Prod.snd

/-- Whether a key has a value. -/
def contains (b : Bag) (key : Key) : Bool := b.entries.any (·.1 = key)

/-- Entries with `value` put under `key`, in its old place if it has one. -/
def setEntry (key : Key) (value : Value) : List (Key × Value) → List (Key × Value)
  | [] => [(key, value)]
  | (k, v) :: rest => if k = key then (k, value) :: rest else (k, v) :: setEntry key value rest

/-- Puts a value under a key, in the old place of the key if it has one and last if not. -/
def set (b : Bag) (key : Key) (value : Value) : Bag := ⟨setEntry key value b.entries⟩

/-- Puts a value under a key, and says whether the key is new. -/
def insert (b : Bag) (key : Key) (value : Value) : Bool × Bag :=
  (!b.contains key, b.set key value)

/-- The bag that the given writes make. -/
def ofList (writes : List (Key × Value)) : Bag :=
  writes.foldl (fun b (key, value) => b.set key value) empty

/-- The values at the positions 0, 1, 2 and so on. -/
def positional (values : List Value) : Bag :=
  ofList (values.zipIdx.map fun (v, i) => (.index (UInt64.ofNat i), v))

theorem getNamed?_eq_get? (b : Bag) (name : String) : b.getNamed? name = b.get? (.named name) := by
  have hsame : (fun e : Key × Value => e.1.isNamed name) = fun e => decide (e.1 = .named name) := by
    funext e
    obtain ⟨key, value⟩ := e
    cases key with
    | index n => rfl
    | named other => simp [Key.isNamed]
  rw [getNamed?, get?, hsame]

/-! ## What a write changes -/

theorem find?_setEntry_self (key : Key) (value : Value) (es : List (Key × Value)) :
    (setEntry key value es).find? (·.1 = key) = some (key, value) := by
  induction es with
  | nil => simp [setEntry]
  | cons e es ih =>
    obtain ⟨k, v⟩ := e
    by_cases h : k = key <;> simp [setEntry, h, ih]

theorem find?_setEntry_of_ne {key other : Key} (h : other ≠ key) (value : Value)
    (es : List (Key × Value)) :
    (setEntry key value es).find? (·.1 = other) = es.find? (·.1 = other) := by
  induction es with
  | nil => simp [setEntry, Ne.symm h]
  | cons e es ih =>
    obtain ⟨k, v⟩ := e
    by_cases hk : k = key
    · simp [setEntry, hk, Ne.symm h]
    · by_cases ho : k = other
      · subst ho
        simp [setEntry, h]
      · simp [setEntry, hk, ho, ih]

theorem map_fst_setEntry (key : Key) (value : Value) (es : List (Key × Value)) :
    (setEntry key value es).map Prod.fst =
      if key ∈ es.map Prod.fst then es.map Prod.fst else es.map Prod.fst ++ [key] := by
  induction es with
  | nil => simp [setEntry]
  | cons e es ih =>
    obtain ⟨k, v⟩ := e
    by_cases hk : k = key
    · simp [setEntry, hk]
    · have hk' : key ≠ k := Ne.symm hk
      by_cases hm : key ∈ es.map Prod.fst
      · simp only [hm, if_true] at ih
        simp [setEntry, hk, ih, hm]
      · simp only [hm, if_false] at ih
        simp [setEntry, hk, ih, hk', hm]

@[simp] theorem get?_set_self (b : Bag) (key : Key) (value : Value) :
    (b.set key value).get? key = some value := by
  simp [set, get?, find?_setEntry_self]

theorem get?_set_of_ne (b : Bag) {key other : Key} (h : other ≠ key) (value : Value) :
    (b.set key value).get? other = b.get? other := by
  simp [set, get?, find?_setEntry_of_ne h]

theorem keys_set (b : Bag) (key : Key) (value : Value) :
    (b.set key value).keys = if key ∈ b.keys then b.keys else b.keys ++ [key] :=
  map_fst_setEntry key value b.entries

theorem nodup_keys_set {b : Bag} (h : b.keys.Nodup) (key : Key) (value : Value) :
    (b.set key value).keys.Nodup := by
  rw [keys_set]
  split
  · exact h
  · rename_i hm
    refine List.nodup_append.2 ⟨h, by simp, ?_⟩
    intro a ha c hc hac
    simp only [List.mem_singleton] at hc
    subst hac hc
    exact hm ha

theorem contains_eq_true_iff {b : Bag} {key : Key} : b.contains key = true ↔ key ∈ b.keys := by
  simp [contains, keys]

end Bag

end Patchbay
