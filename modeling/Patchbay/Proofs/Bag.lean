import Mathlib.Data.List.Forall2
import Mathlib.Data.List.Nodup
import Patchbay.Graph.Bag

/-!
# Bags that match, and bags made by position

* `Bag.Matches`: two bags have the same keys in the same order, and under each key values that
  correspond; writes under the same key keep that;
* `Bag.ofList_of_nodup`: writes under different keys are the entries of the bag;
* `Bag.Positional`: the keys are the positions from 0 on, as in any bag that `Bag.positional`
  makes, and such a bag is made again from its values (`Bag.Positional.positional_values`).
-/

namespace Patchbay.Bag

/-! ## Entries -/

theorem values_length (b : Bag) : b.values.length = b.size := List.length_map ..

theorem keys_length (b : Bag) : b.keys.length = b.size := List.length_map ..

theorem ext_keys_values {b b' : Bag} (hk : b.keys = b'.keys) (hv : b.values = b'.values) :
    b = b' := by
  obtain ⟨es⟩ := b
  obtain ⟨es'⟩ := b'
  congr 1
  exact (List.zip_of_prod hk hv).trans (List.zip_of_prod rfl rfl).symm

theorem setEntry_of_not_mem {key : Key} (value : Value) {es : List (Key × Value)}
    (h : key ∉ es.map Prod.fst) : setEntry key value es = es ++ [(key, value)] := by
  induction es with
  | nil => rfl
  | cons e es ih =>
    obtain ⟨k, v⟩ := e
    rw [List.map_cons, List.mem_cons, not_or] at h
    rw [setEntry, if_neg (Ne.symm h.1), ih h.2]
    rfl

theorem set_of_not_mem {b : Bag} {key : Key} (h : key ∉ b.keys) (value : Value) :
    b.set key value = ⟨b.entries ++ [(key, value)]⟩ := by
  rw [set, setEntry_of_not_mem value h]

theorem keys_set_of_mem {b : Bag} {key : Key} (h : key ∈ b.keys) (value : Value) :
    (b.set key value).keys = b.keys := by
  rw [keys_set, if_pos h]

theorem keys_set_of_not_mem {b : Bag} {key : Key} (h : key ∉ b.keys) (value : Value) :
    (b.set key value).keys = b.keys ++ [key] := by
  rw [keys_set, if_neg h]

theorem mem_values_setEntry {key : Key} {value v : Value} {es : List (Key × Value)}
    (h : v ∈ (setEntry key value es).map Prod.snd) : v = value ∨ v ∈ es.map Prod.snd := by
  induction es with
  | nil => simpa [setEntry] using h
  | cons e es ih =>
    obtain ⟨k, w⟩ := e
    rw [setEntry] at h
    split at h <;> rcases List.mem_cons.1 h with h | h
    · exact Or.inl h
    · exact Or.inr (List.mem_cons_of_mem w h)
    · exact Or.inr (List.mem_cons.2 (Or.inl h))
    · exact (ih h).imp_right (List.mem_cons_of_mem w)

/-- A write brings in no value but the one that is written. -/
theorem mem_values_set {b : Bag} {key : Key} {value v : Value} (h : v ∈ (b.set key value).values) :
    v = value ∨ v ∈ b.values := mem_values_setEntry h

/-- A bag holds under each of its keys what stands beside it, if no key stands twice. -/
theorem get?_of_mem {b : Bag} (h : b.keys.Nodup) {key : Key} {value : Value}
    (hmem : (key, value) ∈ b.entries) : b.get? key = some value := by
  obtain ⟨es⟩ := b
  simp only [keys, get?] at h hmem ⊢
  induction es with
  | nil => cases hmem
  | cons e es ih =>
    obtain ⟨hnot, hnodup⟩ := List.nodup_cons.1 h
    rcases List.mem_cons.1 hmem with rfl | hmem
    · simp
    · have hne : e.1 ≠ key := fun heq => hnot (heq ▸ List.mem_map_of_mem hmem)
      rw [List.find?_cons_of_neg (by simpa using hne)]
      exact ih hnodup hmem

/-! ## Writes -/

/-- The bag after some writes. -/
def write (b : Bag) (writes : List (Key × Value)) : Bag :=
  writes.foldl (fun b (key, value) => b.set key value) b

@[simp] theorem write_nil (b : Bag) : b.write [] = b := rfl

@[simp] theorem write_cons (b : Bag) (e : Key × Value) (writes : List (Key × Value)) :
    b.write (e :: writes) = (b.set e.1 e.2).write writes := rfl

/-- Writes under new keys go to the end. -/
theorem write_of_nodup {b : Bag} {writes : List (Key × Value)}
    (h : (b.keys ++ writes.map Prod.fst).Nodup) : b.write writes = ⟨b.entries ++ writes⟩ := by
  induction writes generalizing b with
  | nil => simp
  | cons e writes ih =>
    have hnew : e.1 ∉ b.keys := fun hmem =>
      (List.nodup_append.1 h).2.2 e.1 hmem e.1 (by simp) rfl
    rw [write_cons, ih]
    · simp [set_of_not_mem hnew]
    · rw [keys_set_of_not_mem hnew]
      simpa using h

theorem ofList_of_nodup {writes : List (Key × Value)} (h : (writes.map Prod.fst).Nodup) :
    ofList writes = ⟨writes⟩ := write_of_nodup (b := empty) h

theorem nodup_keys_write {b : Bag} (h : b.keys.Nodup) (writes : List (Key × Value)) :
    (b.write writes).keys.Nodup := by
  induction writes generalizing b with
  | nil => exact h
  | cons e writes ih => exact ih (nodup_keys_set h e.1 e.2)

theorem mem_keys_write {b : Bag} {writes : List (Key × Value)} {key : Key}
    (h : key ∈ (b.write writes).keys) : key ∈ b.keys ∨ key ∈ writes.map Prod.fst := by
  induction writes generalizing b with
  | nil => exact Or.inl h
  | cons e writes ih =>
    rw [List.map_cons, List.mem_cons]
    rcases ih h with h | h
    · rw [keys_set] at h
      split at h
      · exact Or.inl h
      · rcases List.mem_append.1 h with h | h
        · exact Or.inl h
        · exact Or.inr (Or.inl (List.mem_singleton.1 h))
    · exact Or.inr (Or.inr h)

theorem mem_values_write {b : Bag} {writes : List (Key × Value)} {v : Value}
    (h : v ∈ (b.write writes).values) : v ∈ b.values ∨ v ∈ writes.map Prod.snd := by
  induction writes generalizing b with
  | nil => exact Or.inl h
  | cons e writes ih =>
    rw [List.map_cons, List.mem_cons]
    rcases ih h with h | h
    · rcases mem_values_set h with h | h
      · exact Or.inr (Or.inl h)
      · exact Or.inl h
    · exact Or.inr (Or.inr h)

theorem mem_values_ofList {writes : List (Key × Value)} {v : Value}
    (h : v ∈ (ofList writes).values) : v ∈ writes.map Prod.snd :=
  (mem_values_write (b := empty) h).resolve_left List.not_mem_nil

theorem mem_values_positional {values : List Value} {v : Value}
    (h : v ∈ (positional values).values) : v ∈ values := by
  obtain ⟨e, he, rfl⟩ := List.mem_map.1 (mem_values_ofList h)
  obtain ⟨⟨w, i⟩, hw, rfl⟩ := List.mem_map.1 he
  exact List.fst_mem_of_mem_zipIdx hw

theorem mem_values_of_get? {b : Bag} {key : Key} {v : Value} (h : b.get? key = some v) :
    v ∈ b.values := by
  obtain ⟨e, he, rfl⟩ := Option.map_eq_some_iff.1 h
  exact List.mem_map_of_mem (List.mem_of_find?_eq_some he)

theorem mem_values_of_getNamed? {b : Bag} {name : String} {v : Value}
    (h : b.getNamed? name = some v) : v ∈ b.values :=
  mem_values_of_get? ((b.getNamed?_eq_get? name).symm.trans h)

/-- Writes under other keys leave the first entry where it is. -/
theorem write_cons_of_ne {e : Key × Value} {es writes : List (Key × Value)}
    (h : ∀ w ∈ writes, w.1 ≠ e.1) :
    (⟨e :: es⟩ : Bag).write writes = ⟨e :: ((⟨es⟩ : Bag).write writes).entries⟩ := by
  induction writes generalizing es with
  | nil => rfl
  | cons w writes ih =>
    have hset : (⟨e :: es⟩ : Bag).set w.1 w.2 = ⟨e :: ((⟨es⟩ : Bag).set w.1 w.2).entries⟩ := by
      rw [set, setEntry, if_neg (Ne.symm (h w List.mem_cons_self))]
      rfl
    rw [write_cons, hset, ih fun w hw => h w (List.mem_cons_of_mem _ hw)]
    rfl

theorem nodup_keys_ofList (writes : List (Key × Value)) : (ofList writes).keys.Nodup :=
  nodup_keys_write (b := empty) List.nodup_nil writes

/-! ## Positions -/

/-- The keys are the positions from 0 on. -/
def Positional (b : Bag) : Prop :=
  b.size ≤ 2 ^ 64 ∧ b.keys = (List.range b.size).map fun i => .index (UInt64.ofNat i)

theorem index_inj {i j : Nat} (hi : i < 2 ^ 64) (hj : j < 2 ^ 64)
    (h : Key.index (UInt64.ofNat i) = Key.index (UInt64.ofNat j)) : i = j := by
  have h := congrArg UInt64.toNat (Key.index.inj h)
  rwa [UInt64.toNat_ofNat_of_lt' hi, UInt64.toNat_ofNat_of_lt' hj] at h

theorem mem_positions {i n : Nat} (hi : i < 2 ^ 64) (hn : n ≤ 2 ^ 64) :
    Key.index (UInt64.ofNat i) ∈ (List.range n).map (fun j => Key.index (UInt64.ofNat j)) ↔
      i < n := by
  rw [List.mem_map]
  constructor
  · rintro ⟨j, hj, heq⟩
    have hj := List.mem_range.1 hj
    rw [← index_inj (Nat.lt_of_lt_of_le hj hn) hi heq]
    exact hj
  · intro h
    exact ⟨i, List.mem_range.2 h, rfl⟩

theorem nodup_positions {n : Nat} (hn : n ≤ 2 ^ 64) :
    ((List.range n).map fun j => Key.index (UInt64.ofNat j)).Nodup := by
  refine List.Nodup.map_on ?_ List.nodup_range
  intro i hi j hj h
  exact index_inj (Nat.lt_of_lt_of_le (List.mem_range.1 hi) hn)
    (Nat.lt_of_lt_of_le (List.mem_range.1 hj) hn) h

theorem size_eq_of_keys {b : Bag} {n : Nat} {f : Nat → Key} (h : b.keys = (List.range n).map f) :
    b.size = n := by
  rw [← keys_length, h, List.length_map, List.length_range]

theorem Positional.of_keys {b : Bag} {n : Nat} (hn : n ≤ 2 ^ 64)
    (h : b.keys = (List.range n).map fun i => .index (UInt64.ofNat i)) : b.Positional := by
  rw [Positional, size_eq_of_keys h]
  exact ⟨hn, h⟩

/-- Values written from position `k` on, up to the last position that there is. -/
theorem keys_write_positions (values : List Value) {k : Nat} {b : Bag}
    (h : b.keys = (List.range (min k (2 ^ 64))).map fun i => .index (UInt64.ofNat i)) :
    (b.write ((values.zipIdx k).map fun (v, i) => (.index (UInt64.ofNat i), v))).keys =
      (List.range (min (k + values.length) (2 ^ 64))).map fun i => .index (UInt64.ofNat i) := by
  induction values generalizing k b with
  | nil => exact h
  | cons v values ih =>
    rw [List.zipIdx_cons, List.map_cons, write_cons, List.length_cons, ← Nat.add_assoc,
      Nat.add_right_comm]
    refine ih ?_
    rcases Nat.lt_or_ge k (2 ^ 64) with hk | hk
    · rw [keys_set_of_not_mem, h, Nat.min_eq_left (Nat.le_of_lt hk), Nat.min_eq_left hk,
        List.range_succ, List.map_append]
      · rfl
      · rw [h, mem_positions hk (Nat.min_le_right ..)]
        omega
    · rw [keys_set_of_mem, h, Nat.min_eq_right hk, Nat.min_eq_right (by omega)]
      have hwrap : UInt64.ofNat k = UInt64.ofNat (k % 2 ^ 64) := by
        refine UInt64.toNat_inj.1 ?_
        simp
      rw [h]
      show Key.index (UInt64.ofNat k) ∈ _
      rw [hwrap, mem_positions (Nat.mod_lt _ (by decide)) (Nat.min_le_right ..)]
      have := Nat.mod_lt k (show 0 < 2 ^ 64 by decide)
      omega

theorem keys_positional (values : List Value) :
    (positional values).keys =
      (List.range (min values.length (2 ^ 64))).map fun i => .index (UInt64.ofNat i) := by
  have h := keys_write_positions values (k := 0) (b := empty) rfl
  rw [Nat.zero_add] at h
  exact h

theorem positional_positional (values : List Value) : (positional values).Positional :=
  .of_keys (Nat.min_le_right ..) (keys_positional values)

theorem size_positional (values : List Value) :
    (positional values).size = min values.length (2 ^ 64) :=
  size_eq_of_keys (keys_positional values)

/-- A bag made by position is made again from its values. -/
theorem Positional.positional_values {b : Bag} (h : b.Positional) : positional b.values = b := by
  have hkeys : (b.values.zipIdx.map fun (v, i) => (Key.index (UInt64.ofNat i), v)).map Prod.fst =
      b.keys := by
    rw [List.map_map, h.2, ← values_length, List.range_eq_range', ← List.zipIdx_map_snd 0 b.values,
      List.map_map]
    rfl
  have hvalues : (b.values.zipIdx.map fun (v, i) => (Key.index (UInt64.ofNat i), v)).map Prod.snd =
      b.values := by
    rw [List.map_map]
    exact List.zipIdx_map_fst 0 b.values
  rw [positional, ofList_of_nodup]
  · exact ext_keys_values hkeys hvalues
  · rw [hkeys, h.2]
    exact nodup_positions h.1

/-! ## Matching -/

theorem exists_of_forall₂ {α β : Type} {P : α → β → Prop} {as : List α} {bs : List β}
    (h : List.Forall₂ P as bs) {b : β} (hb : b ∈ bs) : ∃ a ∈ as, P a b := by
  induction h with
  | nil => cases hb
  | cons hhead _ ih =>
    rcases List.mem_cons.1 hb with rfl | hb
    · exact ⟨_, List.mem_cons_self, hhead⟩
    · obtain ⟨a, ha, hab⟩ := ih hb
      exact ⟨a, List.mem_cons_of_mem _ ha, hab⟩

/-- The same keys in the same order, with values that correspond. -/
def Matches (R : Value → Value → Prop) (b b' : Bag) : Prop :=
  List.Forall₂ (fun e e' => e'.1 = e.1 ∧ R e.2 e'.2) b.entries b'.entries

variable {R S : Value → Value → Prop} {b b' : Bag}

theorem Matches.imp (h : Matches R b b') (himp : ∀ v ∈ b.values, ∀ v', R v v' → S v v') :
    Matches S b b' := by
  obtain ⟨es⟩ := b
  obtain ⟨es'⟩ := b'
  simp only [Matches, values] at h himp ⊢
  induction h with
  | nil => exact .nil
  | cons hhead _ ih =>
    refine .cons ⟨hhead.1, himp _ (by simp) _ hhead.2⟩ (ih fun v hv => himp v ?_)
    exact List.mem_cons_of_mem _ hv

theorem Matches.keys_eq (h : Matches R b b') : b'.keys = b.keys := by
  obtain ⟨es⟩ := b
  obtain ⟨es'⟩ := b'
  simp only [Matches, keys] at h ⊢
  induction h with
  | nil => rfl
  | cons hhead _ ih => rw [List.map_cons, List.map_cons, hhead.1, ih]

theorem Matches.size_eq (h : Matches R b b') : b'.size = b.size := by
  rw [← keys_length, h.keys_eq, keys_length]

theorem Matches.set (h : Matches R b b') (key : Key) {value value' : Value}
    (hvalue : R value value') : Matches R (b.set key value) (b'.set key value') := by
  obtain ⟨es⟩ := b
  obtain ⟨es'⟩ := b'
  simp only [Matches, Bag.set] at h ⊢
  induction h with
  | nil => exact .cons ⟨rfl, hvalue⟩ .nil
  | @cons e e' es es' hhead htail ih =>
    obtain ⟨k, v⟩ := e
    obtain ⟨k', v'⟩ := e'
    obtain ⟨rfl, hv⟩ := hhead
    rw [setEntry, setEntry]
    split
    · exact .cons ⟨rfl, hvalue⟩ htail
    · exact .cons ⟨rfl, hv⟩ ih

theorem Matches.symm (h : Matches R b b') : Matches (fun v' v => R v v') b' b := by
  have hflip := List.Forall₂.flip h
  exact hflip.imp fun _ _ he => ⟨he.1.symm, he.2⟩

/-- What the second bag holds matches something in the first. -/
theorem Matches.exists_left (h : Matches R b b') {e' : Key × Value} (he' : e' ∈ b'.entries) :
    ∃ e ∈ b.entries, e'.1 = e.1 ∧ R e.2 e'.2 := exists_of_forall₂ h he'

end Patchbay.Bag
