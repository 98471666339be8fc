import Patchbay.Proofs.Formed
import Patchbay.Proofs.Identity
import Patchbay.Proofs.Insertion

/-!
# Keys on the way

Keys travel as texts, and one key has many spellings: of a position all of `7`, `+7` and `007`, but
not `-7`. What is read back is the same key only if its text is none of another key's, and this is
so for the keys of all nodes, since no other keys come in.

* `Key.Spells`, `Key.parse_eq_index_iff`: the texts that a position is read from;
* `Key.readable_parse`: a key that was read from a text is read back from its own;
* `Store.Copied`: the properties in a snapshot of a node;
* `Receiver.exists_write_of_buildBag`: what a receiver makes of properties has the keys read;
* `Identity.keys_survive`: so the keys of each node in a session come through, each as it is.
-/

namespace Patchbay

namespace Key

/-- The text spells the position: in decimal digits, after one plus or none. -/
def Spells (text : String) (n : UInt64) : Prop :=
  ∃ digits : List Char, digits ≠ [] ∧ (∀ c ∈ digits, c.isDigit = true) ∧
    Nat.ofDigitChars 10 digits 0 = n.toNat ∧
    (text.toList = digits ∨ text.toList = '+' :: digits)

variable {text : String} {n : UInt64} {digits : List Char}

theorem position?_eq_some_iff : position? digits = some n ↔
    digits ≠ [] ∧ (∀ c ∈ digits, c.isDigit = true) ∧ Double.digitsValue digits = n.toNat := by
  unfold position?
  simp only [Option.ite_none_right_eq_some, Bool.and_eq_true, Bool.not_eq_true',
    List.isEmpty_eq_false_iff, List.all_eq_true, decide_eq_true_eq, Option.some.injEq, and_assoc]
  refine and_congr_right fun _ => and_congr_right fun _ => ?_
  constructor
  · rintro ⟨hlt, rfl⟩
    exact (UInt64.toNat_ofNat_of_lt' hlt).symm
  · intro hvalue
    rw [hvalue, UInt64.ofNat_toNat]
    exact ⟨n.toNat_lt, rfl⟩

/-- What is behind a plus, or all of it if there is none. Digits have no plus before them. -/
theorem dropPlus_eq_iff {cs : List Char} (h : ∀ c ∈ digits, c.isDigit = true) :
    dropPlus cs = digits ↔ cs = digits ∨ cs = '+' :: digits := by
  constructor
  · rintro rfl
    unfold dropPlus
    split
    · exact .inr rfl
    · exact .inl rfl
  · rintro (rfl | rfl)
    · unfold dropPlus
      split
      · exact absurd (h '+' List.mem_cons_self) (by decide)
      · rfl
    · rfl

theorem parse_eq_index_iff : parse text = .index n ↔ Spells text n := by
  have hparse : parse text = .index n ↔ position? (dropPlus text.toList) = some n := by
    unfold parse
    split <;> rename_i heq <;> simp [heq]
  rw [hparse, position?_eq_some_iff]
  constructor
  · rintro ⟨hne, hdigits, hvalue⟩
    exact ⟨_, hne, hdigits, hvalue, (dropPlus_eq_iff hdigits).1 rfl⟩
  · rintro ⟨digits, hne, hdigits, hvalue, htext⟩
    rw [(dropPlus_eq_iff hdigits).2 htext]
    exact ⟨hne, hdigits, hvalue⟩

theorem parse_eq_named (h : ∀ n, ¬ Spells text n) : parse text = .named text := by
  cases hparse : parse text with
  | index n => exact absurd (parse_eq_index_iff.1 hparse) (h n)
  | named name =>
    unfold parse at hparse
    split at hparse
    · cases hparse
    · cases hparse
      rfl

theorem readable_parse (text : String) : (parse text).Readable :=
  readable_of_key? (v := .text text) rfl

-- One position, in three spellings, and near misses of it.
example : parse "7" = .index 7 ∧ parse "+7" = .index 7 ∧ parse "007" = .index 7 ∧
    parse "-0" = .named "-0" ∧ parse "++7" = .named "++7" ∧ parse "+" = .named "+" ∧
    parse "" = .named "" ∧ parse "18446744073709551615" = .index (2 ^ 64 - 1) ∧
    parse "18446744073709551616" = .named "18446744073709551616" := by
  decide +kernel

/-- Keys that are read back have different texts if they are different. -/
theorem nodup_map_text {keys : List Key} (h : keys.Nodup) (hreadable : ∀ key ∈ keys, key.Readable) :
    (keys.map Key.text).Nodup :=
  h.map_on fun key hkey other hother heq => by
    rw [← hreadable key hkey, ← hreadable other hother, heq]

theorem map_parse_map_text {keys : List Key} (hreadable : ∀ key ∈ keys, key.Readable) :
    (keys.map Key.text).map parse = keys := by
  rw [List.map_map]
  exact (List.map_congr_left hreadable).trans (List.map_id keys)

end Key

/-! ## Snapshots -/

namespace Store

/-- The properties in a snapshot of the node: in a full copy, at any depth of a snapshot, or in the
announcement of the node as it is. -/
inductive Copied (s : Store) (id : NodeId) : List (String × Snapshot) → Prop
  | full {levels : Nat} {path : List NodeId} {name : String}
    {properties : List (String × Snapshot)}
    (h : s.fullCopy levels path id = .ok (.node id name properties)) : Copied s id properties
  | announced {maxDepth : Nat} {announcement? : NodeId → Option Create} {node : Node}
    {properties : List (String × Snapshot)} (hnode : s.get? id = some node)
    (h : s.encodeProperties maxDepth announcement? id node.properties = .ok properties) :
    Copied s id properties

variable {s : Store} {id : NodeId} {node : Node} {properties : List (String × Snapshot)}

theorem map_fst_encodeEntries {encode : Value → Except Fault Snapshot} {es : List (Key × Value)}
    (h : encodeEntries encode es = .ok properties) :
    properties.map Prod.fst = (es.map Prod.fst).map Key.text := by
  induction es generalizing properties with
  | nil =>
    cases h
    rfl
  | cons e es ih =>
    obtain ⟨key, value⟩ := e
    obtain ⟨snapshot, -, h⟩ := Task.exists_of_bind_eq_ok h
    obtain ⟨snapshots, hrest, h⟩ := Task.exists_of_bind_eq_ok h
    cases h
    rw [List.map_cons, ih hrest]
    rfl

/-- The names in a snapshot are the texts of the keys, in order. -/
theorem Copied.map_fst (h : s.Copied id properties) (hnode : s.get? id = some node) :
    properties.map Prod.fst = node.properties.keys.map Key.text := by
  cases h with
  | @full levels path name properties h =>
    cases levels with
    | zero => cases h
    | succ levels =>
      rw [fullCopy] at h
      split at h
      · cases h
      · rw [hnode] at h
        obtain ⟨copied, hcopied, h⟩ := Task.exists_of_bind_eq_ok h
        cases h
        exact map_fst_encodeEntries hcopied
  | announced hnode' h =>
    cases hnode.symm.trans hnode'
    exact map_fst_encodeEntries h

end Store

/-- The properties that a receiver builds are written under the keys read from their names. -/
theorem Receiver.exists_write_of_buildBag {properties : List (String × Snapshot)} {bag bag' : Bag}
    {r r' : Receiver} (h : (buildBag properties bag).exec r = (.ok bag', r')) :
    ∃ writes : List (Key × Value), bag' = bag.write writes ∧
      writes.map Prod.fst = (properties.map Prod.fst).map Key.parse := by
  induction properties generalizing bag r with
  | nil =>
    rw [buildBag] at h
    cases h
    exact ⟨[], rfl, rfl⟩
  | cons entry properties ih =>
    obtain ⟨name, snapshot⟩ := entry
    rw [buildBag, Task.exec_bind_ok_iff] at h
    obtain ⟨value, r₁, -, hrest⟩ := h
    obtain ⟨writes, rfl, hkeys⟩ := ih hrest
    refine ⟨(Key.parse name, value) :: writes, rfl, ?_⟩
    rw [List.map_cons, hkeys]
    rfl

namespace Identity

/-- **Keys come through.** A text is read as a position exactly if it is that position in digits,
after one plus or none, and as a name of its own otherwise; and what was read is read back. So is
each key of each node, in every session that comes of actions. The names in a snapshot of the node
are different, they are read as its keys, in order, and so are the properties that any receiver
builds from them. -/
theorem keys_survive :
    (∀ text n, Key.parse text = .index n ↔ Key.Spells text n) ∧
    (∀ text, (∀ n, ¬ Key.Spells text n) → Key.parse text = .named text) ∧
    (∀ text, Key.parse (Key.parse text).text = Key.parse text) ∧
    ∀ (s : Session) (others : List Replica) (answers : List Value), Reached s others answers →
      ∀ (id : NodeId) (node : Node), s.store.get? id = some node →
        (∀ key ∈ node.properties.keys, Key.parse key.text = key) ∧
        ∀ properties, s.store.Copied id properties →
          (properties.map Prod.fst).Nodup ∧
          (properties.map Prod.fst).map Key.parse = node.properties.keys ∧
          ∀ r r' bag, (Receiver.buildBag properties .empty).exec r = (.ok bag, r') →
            bag.keys = node.properties.keys := by
  refine ⟨fun _ _ => Key.parse_eq_index_iff, fun _ => Key.parse_eq_named, Key.readable_parse,
    fun s others answers h id node hnode => ?_⟩
  obtain ⟨refs, hrefs⟩ := h.intact.store.history
  have hallows : node.kind.Allows node.properties := hrefs.each Kind.lasting_allows id node hnode
  refine ⟨hallows.readable, fun properties hcopied => ?_⟩
  have hread : (properties.map Prod.fst).map Key.parse = node.properties.keys := by
    rw [hcopied.map_fst hnode, Key.map_parse_map_text hallows.readable]
  refine ⟨?_, hread, fun r r' bag hbag => ?_⟩
  · rw [hcopied.map_fst hnode]
    exact Key.nodup_map_text hallows.nodup_keys hallows.readable
  · obtain ⟨writes, rfl, hkeys⟩ := Receiver.exists_write_of_buildBag hbag
    rw [hread] at hkeys
    rw [show Bag.empty.write writes = ⟨writes⟩ from
      Bag.ofList_of_nodup (hkeys ▸ hallows.nodup_keys)]
    exact hkeys

/-- A sum with a seventh property and a gain. -/
def seventh : Node :=
  .fresh (.chain .add) ⟨[(.index 0, .bool true), (.index 1, .unset), (.index 7, .text "high"),
    (.named "gain", .unset)]⟩

/-- The properties of the sum in its announcement. -/
def copied : List (String × Snapshot) :=
  [("0", .bool true), ("1", .unset), ("7", .text "high"), ("gain", .unset)]

/-- A property that was set under two spellings of its key, and one under a name. -/
theorem keys_survive_seventh :
    ∃ s others answers, Reached s others answers ∧ s.store.get? 1 = some seventh ∧
      ∃ properties, s.store.Copied 1 properties ∧
        properties.map Prod.fst = ["0", "1", "7", "gain"] ∧
        (properties.map Prod.fst).map Key.parse =
          [.index 0, .index 1, .index 7, .named "gain"] := by
  have hread (s : Session) (answers : List Value) (h : Reached s [] answers)
      (hnode : s.store.get? 1 = some seventh) :
      ∃ properties, s.store.Copied 1 properties ∧
        properties.map Prod.fst = ["0", "1", "7", "gain"] ∧
        (properties.map Prod.fst).map Key.parse =
          [.index 0, .index 1, .index 7, .named "gain"] := by
    have hcopied : s.store.Copied 1 copied :=
      .announced hnode (show s.store.encodeProperties 32 (fun _ => none) 1 _ = _ from rfl)
    obtain ⟨-, -, -, hnodes⟩ := keys_survive
    obtain ⟨-, hproperties⟩ := hnodes s [] answers h 1 seventh hnode
    exact ⟨copied, hcopied, rfl, (hproperties copied hcopied).2.1⟩
  have h₁ := Reached.start.step (.make (.chain .add [.bool true, .unset]))
    (held_of_answers (by decide +kernel))
  have h₂ := h₁.step (.invoke 1 "set" [.text "+7", .text "low"])
    (held_of_answers (by decide +kernel))
  have h₃ := h₂.step (.invoke 1 "set" [.text "gain", .unset])
    (held_of_answers (by decide +kernel))
  have h₄ := h₃.step (.invoke 1 "set" [.text "007", .text "high"])
    (held_of_answers (by decide +kernel))
  exact ⟨_, _, _, h₄, by decide +kernel, hread _ _ h₄ (by decide +kernel)⟩

end Identity

end Patchbay
