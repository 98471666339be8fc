import Patchbay.Proofs.Copy
import Patchbay.Proofs.Genuine

/-!
# Trees of sequences, rebuilt

What a replica builds from a full copy is made by the constructor of sequences, which takes the rate
first and leaves out what is no step. So a copy can have other properties than the sequence. But the
rate of a sequence comes first whatever is done to it, and if it holds nothing else than steps, all
that was built from its properties is in the copy, in the same order. Then the copy is the sequence
once more, and so is the copy of each sequence in it.

* `Node.Genuine.rateFirst`: what the keys of a sequence are;
* `Receiver.Rebuilt`: a value stands for another one all the way down, each sequence by a new node
  of its own;
* `Receiver.BuiltFrom.rebuilt`: so does what has been built from a value whose sequences hold
  nothing but their rates and steps;
* `Receiver.rebuilt_of_encode`: and whatever can be encoded is built.
-/

namespace Patchbay

open Relation

/-! ## The keys of sequences -/

/-- The key of a step, or of the rate. -/
def Key.OfSequence : Key → Prop
  | .index _ => True
  | .named name => name = "rate"

instance : (key : Key) → Decidable key.OfSequence
  | .index _ => inferInstanceAs (Decidable True)
  | .named name => inferInstanceAs (Decidable (name = "rate"))

theorem Key.OfSequence.readable {key : Key} (h : key.OfSequence) : key.Readable := by
  cases key with
  | index n => exact readable_index n
  | named name =>
    obtain rfl : name = "rate" := h
    exact readable_rate

/-- The rate comes first, and no key comes twice. -/
def RateFirst (keys : List Key) : Prop := keys.Nodup ∧ ∃ rest, keys = .named "rate" :: rest

theorem RateFirst.concat {keys : List Key} {key : Key} (h : RateFirst keys) (hkey : key ∉ keys) :
    RateFirst (keys ++ [key]) := by
  obtain ⟨hnodup, rest, rfl⟩ := h
  exact ⟨List.nodup_append_comm.1 (List.nodup_cons.2 ⟨hkey, hnodup⟩), rest ++ [key], rfl⟩

/-- Whatever is done to a sequence, its rate comes first. -/
theorem Node.Genuine.rateFirst {n : Node} (h : n.Genuine) (hkind : n.kind = .sequence) :
    RateFirst n.properties.keys := by
  induction h with
  | made h =>
    obtain ⟨b, hmakes, hkeys⟩ := Maker.exists_makes h
    rw [hkind] at hmakes
    obtain ⟨-, hnodup, rate, steps, hentries, -⟩ := hmakes
    rw [← hkeys]
    exact ⟨hnodup, steps.map Prod.fst, by rw [Bag.keys, hentries]; rfl⟩
  | @called n _ _ method args _ _ h ih =>
    obtain ⟨hkind', hproperties⟩ := edit_of_call h
    rw [hproperties]
    rcases n.properties.keys_edit method args with heq | ⟨v, key, -, hnew, heq⟩
    · rw [heq]
      exact ih (hkind'.symm.trans hkind)
    · rw [heq]
      exact (ih (hkind'.symm.trans hkind)).concat hnew
  | @changed n _ key value ih =>
    show RateFirst (n.properties.set key value).keys
    rw [Bag.keys_set]
    split
    · exact ih hkind
    · rename_i hnew
      exact (ih hkind).concat hnew
  | @processed n _ inputs ih =>
    rw [(n.process_keeps inputs).2]
    exact ih ((n.process_keeps inputs).1.symm.trans hkind)
  | written _ _ ih => exact ih hkind

/-- A sequence has more than its rate. -/
theorem Node.Genuine.two_le_size {n : Node} (h : n.Genuine) (hkind : n.kind = .sequence) :
    2 ≤ n.properties.size := by
  have hleast := h.leastSize_le
  rw [hkind] at hleast
  exact hleast

/-- A rate with steps after it is such as the constructor makes. -/
theorem RateFirst.makes {b : Bag} (h : RateFirst b.keys) (hsize : 2 ≤ b.size)
    (hkeys : ∀ key ∈ b.keys, key.OfSequence) : Kind.sequence.Makes b := by
  obtain ⟨hnodup, rest, hrest⟩ := h
  obtain ⟨⟨key, rate⟩, steps, hentries, hkey, hsteps⟩ := List.map_eq_cons_iff.1 hrest
  obtain rfl : key = .named "rate" := hkey
  refine ⟨hsize, hnodup, rate, steps, hentries, fun e he => ?_⟩
  obtain ⟨key, v⟩ := e
  have hmem : key ∈ rest := hsteps ▸ List.mem_map_of_mem he
  have hof := hkeys key (hrest ▸ List.mem_cons_of_mem _ hmem)
  cases key with
  | index n => rfl
  | named name =>
    obtain rfl : name = "rate" := hof
    rw [hrest] at hnodup
    exact absurd hmem (List.nodup_cons.1 hnodup).1

/-- What it makes is taken as it is. -/
theorem Node.sequenceOf_of_makes {b : Bag} (h : Kind.sequence.Makes b) :
    sequenceOf b = .ok (fresh (.sequence .start) b) := by
  obtain ⟨node, hnode, -, hproperties⟩ := h.rebuild
  have hnode : sequenceOf b = .ok node := hnode
  rw [hnode, ← hproperties]
  unfold sequenceOf freshSequence at hnode
  split at hnode
  · cases hnode
  · cases hnode
    rfl

/-! ## Sequences of steps alone -/

namespace Store

variable {s : Store} {id : NodeId} {node : Node} {v : Value}

/-- All sequences that the value leads to have nothing but a rate and steps. -/
def OnlySteps (s : Store) (v : Value) : Prop :=
  ∀ id node, s.Meets v id → s.get? id = some node → ∀ key ∈ node.properties.keys, key.OfSequence

/-- So do those that a property of such a sequence leads to. -/
theorem OnlySteps.property (h : s.OnlySteps (.node ⟨id, true⟩)) (hnode : s.get? id = some node)
    (hv : v ∈ node.properties.values) : s.OnlySteps v :=
  fun other node' hmeets => h other node' (hmeets.of_property hnode hv)

/-- A copy of such a sequence can be built. -/
theorem Sound.portable (hs : s.Sound) (hnode : s.get? id = some node)
    (hkind : node.kind = .sequence) (hkeys : ∀ key ∈ node.properties.keys, key.OfSequence) :
    s.Portable node := by
  have hgenuine := hs.genuine id node hnode
  have hfirst := hgenuine.rateFirst hkind
  have hmakes := hfirst.makes (hgenuine.two_le_size hkind) hkeys
  exact ⟨fun key hkey => (hkeys key hkey).readable, hfirst.1, hmakes.exists_step,
    denotes_iff.2 (hs.linked id node hnode)⟩

end Store

/-! ## Building -/

namespace Receiver

/-- A value of the replica stands for one of the store `s`, and has been made with the numbers from
`lo` to below `hi` of the store `t`. What is no node is the same; a node that is no sequence is the
one in the table; and a sequence is a new one, with the same keys, of values that stand for those of
the sequence in `s`, each in turn made with numbers of its own. -/
inductive Rebuilt (s : Store) (table : NodeId → Option NodeRef) (t : Store) :
    Nat → Nat → Value → Value → Prop
  | same {lo : Nat} {v : Value} (h : v.node? = none) : Rebuilt s table t lo lo v v
  | held {lo : Nat} {id : NodeId} {ref : NodeRef} (h : table id = some ref) :
    Rebuilt s table t lo lo (.node ⟨id, false⟩) (.node ref)
  | copied {lo hi : Nat} {id : NodeId} {node : Node} {es : List (Key × Value)}
    (hnode : s.get? id = some node)
    (hentries : Consecutive (Rebuilt s table t) lo hi node.properties.entries es)
    (hmade : t.get? hi = some (.fresh (.sequence .start) ⟨es⟩)) :
    Rebuilt s table t lo (hi + 1) (.node ⟨id, true⟩) (.node ⟨hi, true⟩)

section

variable {s t : Store} {table : NodeId → Option NodeRef} {lo hi : Nat} {r : Receiver} {v v' : Value}
  {snapshot : Snapshot}

/-- The constructor takes what has been built from a rate and steps as it is. -/
theorem BuiltFrom.rebuilt (h : BuiltFrom s table t lo hi v v') (hs : s.Sound)
    (hsteps : s.OnlySteps v) : Rebuilt s table t lo hi v v' := by
  induction h with
  | same h => exact .same h
  | held h => exact .held h
  | @copied lo hi id node es bag R hR hnode hkind hentries hmade hfiled ih =>
    have hkeys : (⟨es⟩ : Bag).keys = node.properties.keys := hentries.keys_eq
    have hof : ∀ key ∈ node.properties.keys, key.OfSequence :=
      hsteps id node ⟨id, rfl, .refl⟩ hnode
    have hgenuine := hs.genuine id node hnode
    have hsize : 2 ≤ (⟨es⟩ : Bag).size := by
      rw [← Bag.keys_length, hkeys, Bag.keys_length]
      exact hgenuine.two_le_size hkind
    have hmakes : Kind.sequence.Makes ⟨es⟩ :=
      RateFirst.makes (hkeys ▸ hgenuine.rateFirst hkind) hsize (hkeys ▸ hof)
    cases hmade.symm.trans (Node.sequenceOf_of_makes hmakes)
    have hle (lo hi : Nat) (v v' : Value) (h : R lo hi v v') : lo ≤ hi := (hR lo hi v v' h).le
    exact .copied hnode (hentries.imp hle fun lo' hi' w w' _ hw hR' =>
      ih lo' hi' w w' hR' (hsteps.property hnode hw)) hfiled

/-- **Copies rebuild the whole tree of sequences.** In any store that has come about, let a value be
encoded, whose sequences have nothing but their rates and steps; and let a replica make sequences
under their name and have all nodes that the snapshot refers to. Then it builds the snapshot to a
value that stands for the one encoded: each time that a sequence occurs in the tree there is a new
node for it, with the same keys in the same order, of the same numbers, truth values, texts and
nothing, of the nodes in the table for those that are no sequences, and of sequences that stand for
those inside. No node that the replica had is changed by that, and its table has another entry for
no node but sequences. -/
theorem rebuilt_of_encode (hs : s.Sound) (hv : s.Denotes [v]) {maxDepth : Nat}
    (h : s.encode maxDepth v = .ok snapshot) (hsteps : s.OnlySteps v)
    (hr : r.replica.constructor? "sequence" = some Node.sequenceOf)
    (hneeds : ∀ id ∈ snapshot.needs, r.replica.get? id ≠ none) :
    ∃ v' r', (build snapshot).exec r = (.ok v', r') ∧ r.store.Remains r'.store ∧
      (∀ id node, s.get? id = some node → node.isSequence = false →
        r'.replica.get? id = r.replica.get? id) ∧
      Rebuilt s r.replica.get? r'.store r.store.nextId r'.store.nextId v v' := by
  have hcopies : Copies s r v snapshot := by
    refine copies_encodeWith h hv hneeds ?_
    rintro id rfl hcopied
    exact copies_fullCopy hr hcopied (hv _ List.mem_cons_self) (fun other node hmeets hnode hkind =>
      hs.portable hnode hkind (hsteps other node hmeets hnode)) hneeds
  obtain ⟨v', r', hexec, hr', hremains, -, hbuilt⟩ := hcopies r (.refl s r)
  refine ⟨v', r', hexec, hremains, fun id node hnode hplain => hr'.plain ?_,
    (hbuilt r' (.refl _)).rebuilt hs hsteps⟩
  rw [hnode, Option.map_some, hplain]

end

/-- A sequence that another one holds twice. -/
def sharing : Store :=
  [Maker.function .merge [.bool true, .bool false],
    .sequence [.node ⟨1, false⟩, .unset] (.bool true),
    .sequence [.node ⟨2, true⟩, .text "a", .node ⟨2, true⟩] (.scalar 1.0)].foldl
      (fun s m => ((Store.build m.make).exec s).2) .empty

/-- The copy of the sequence inside. -/
def insideCopy : Snapshot :=
  .node 2 "sequence" [("rate", .bool true), ("0", .reference 1), ("1", .unset)]

/-- The copy of the sequence around it. -/
def sharingCopy : Snapshot :=
  .node 3 "sequence" [("rate", .scalar 1.0), ("0", insideCopy), ("1", .text "a"), ("2", insideCopy)]

theorem sound_sharing : sharing.Sound := by
  refine Store.Proper.sound (((Store.proper_empty.build ?_).build ?_).build ?_)
  · decide +kernel
  · decide +kernel
  · decide +kernel

theorem onlySteps_sharing (v : Value) : sharing.OnlySteps v := by
  have hkeys : ∀ id < sharing.nextId, ∀ node ∈ sharing.get? id, ∀ key ∈ node.properties.keys,
      key.OfSequence := by
    decide +kernel
  exact fun id node _ hnode => hkeys id (Store.lt_nextId hnode) node hnode

theorem rebuilt_of_sharing :
    sharing.encode 64 (.node ⟨3, true⟩) = .ok sharingCopy ∧
    (∀ id ∈ sharingCopy.needs, holder.replica.get? id ≠ none) ∧
    ∃ v' r', (build sharingCopy).exec holder = (.ok v', r') ∧
      Rebuilt sharing holder.replica.get? r'.store holder.store.nextId r'.store.nextId
        (.node ⟨3, true⟩) v' := by
  have hcopy : sharing.encode 64 (.node ⟨3, true⟩) = .ok sharingCopy := rfl
  have hneeds : ∀ id ∈ sharingCopy.needs, holder.replica.get? id ≠ none := by decide +kernel
  obtain ⟨v', r', hexec, -, -, hrebuilt⟩ := rebuilt_of_encode sound_sharing (by decide +kernel)
    hcopy (onlySteps_sharing _) rfl hneeds
  exact ⟨hcopy, hneeds, v', r', hexec, hrebuilt⟩

-- The sequence inside is made twice, and the last of the two is the one in the table.
example : ∃ r', (build sharingCopy).exec holder = (.ok (.node ⟨4, true⟩), r') ∧
    (r'.store.get? 4).map (·.properties.values) =
      some [.scalar 1.0, .node ⟨2, true⟩, .text "a", .node ⟨3, true⟩] ∧
    r'.replica.get? 2 = some ⟨3, true⟩ :=
  ⟨_, rfl, rfl, rfl⟩

end Receiver

end Patchbay
