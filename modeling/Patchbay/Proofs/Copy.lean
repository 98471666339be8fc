import Patchbay.Proofs.Formed
import Patchbay.Proofs.Leftover
import Patchbay.Proofs.Snapshots

/-!
# Copies of sequences

A full copy of a sequence carries its properties, and among them full copies of the sequences in it,
down to those that hold none. A replica that has the nodes referred to can build it: it makes a node
of each sequence, the inner ones first, and files each under the number that the sequence has at the
other side, in the place of what it filed there before. So the table that a copy is built in changes
while it is built, but only under the numbers of sequences, and a copy refers to the table only for
nodes that are none. What is built has played nothing yet: a copy does not say where the sequence
stands.

* `Store.Portable`: a sequence of which a copy can be built;
* `Receiver.BuiltFrom`: how a value of the replica came of one that was copied, all the way down,
  and which numbers were taken for it;
* `Receiver.Since`: what is in the table while copies are built;
* `Receiver.exec_buildBag`: properties are built one after another;
* `Receiver.copies_fullCopy`: a full copy is built, by induction on the levels of it;
* `Receiver.start_of_copy`: whatever was done to a sequence, its copy is at the start.
-/

namespace Patchbay

open Relation

mutual

/-- The nodes that must be in the table if the snapshot is to be built. What an announcement is made
of is not built if the node is there. -/
def Snapshot.needs : Snapshot → List NodeId
  | .reference id | .created _ _ id => [id]
  | .node _ _ properties => needsOf properties
  | _ => []

/-- The same for properties. -/
def Snapshot.needsOf : List (String × Snapshot) → List NodeId
  | [] => []
  | (_, snapshot) :: rest => snapshot.needs ++ needsOf rest

end

/-- The constructor of sequences takes every bag that has a step. -/
theorem Node.sequenceOf_of_step {bag : Bag} (hnodup : bag.keys.Nodup) {n : UInt64}
    (hn : .index n ∈ bag.keys) : ∃ b, sequenceOf bag = .ok (fresh (.sequence .start) b) := by
  have hsteps : ((bag.entries.filter isStep).map Prod.fst).Nodup :=
    hnodup.sublist (List.filter_sublist.map Prod.fst)
  have hrate : Key.named "rate" ∉ (bag.entries.filter isStep).map Prod.fst := by
    intro hmem
    obtain ⟨e, he, hkey⟩ := List.mem_map.1 hmem
    have hstep := (List.mem_filter.1 he).2
    rw [isStep, hkey] at hstep
    cases hstep
  have hpos : 0 < (bag.entries.filter isStep).length := by
    obtain ⟨e, he, hkey⟩ := List.mem_map.1 hn
    refine List.length_pos_of_mem (List.mem_filter.2 ⟨he, ?_⟩)
    rw [isStep, hkey]
  rw [sequenceOf, freshSequence, Bag.ofList_of_nodup (by exact List.nodup_cons.2 ⟨hrate, hsteps⟩),
    if_neg]
  · exact ⟨_, rfl⟩
  · rw [Bag.size, List.length_cons]
    omega

namespace Store

variable {s s' t : Store} {id other : NodeId} {node : Node} {v : Value}

/-- All nodes of the one store are in the other, in the same state. -/
def Remains (s t : Store) : Prop := ∀ id node, s.get? id = some node → t.get? id = some node

theorem Remains.refl (s : Store) : Remains s s := fun _ _ h => h

theorem Remains.trans (h : Remains s s') (h' : Remains s' t) : Remains s t :=
  fun id node hnode => h' id node (h id node hnode)

theorem remains_add (s : Store) (node : Node) : Remains s (s.add node).2 :=
  fun _ _ hnode => (get?_add_of_lt (lt_nextId hnode) node).trans hnode

/-- The value is the sequence, or leads to it through sequences alone. -/
def Meets (s : Store) (v : Value) (id : NodeId) : Prop :=
  ∃ root, v.sequence? = some root ∧ ReflTransGen s.Unfolds root id

/-- What a property of a sequence leads to, the sequence leads to. -/
theorem Meets.of_property (hnode : s.get? id = some node) (hv : v ∈ node.properties.values)
    (h : s.Meets v other) : s.Meets (.node ⟨id, true⟩) other := by
  obtain ⟨root, hroot, hreach⟩ := h
  exact ⟨id, rfl, .head ⟨node, hnode, v, hv, hroot⟩ hreach⟩

/-- A copy of the sequence can be built: its keys are read back from their texts and differ, it has
a step, and the nodes in it are there. -/
structure Portable (s : Store) (node : Node) : Prop where
  readable : ∀ key ∈ node.properties.keys, key.Readable
  nodup_keys : node.properties.keys.Nodup
  exists_step : ∃ n, .index n ∈ node.properties.keys
  denotes : s.Denotes node.properties.values

end Store

namespace Receiver

/-! ## Values built one after another -/

/-- Entries with the same keys in the same order, each value taking the numbers from where the one
before has ended. -/
inductive Consecutive (R : Nat → Nat → Value → Value → Prop) :
    Nat → Nat → List (Key × Value) → List (Key × Value) → Prop
  | nil (lo : Nat) : Consecutive R lo lo [] []
  | cons {lo mid hi : Nat} {key : Key} {v v' : Value} {es es' : List (Key × Value)}
    (head : R lo mid v v') (tail : Consecutive R mid hi es es') :
    Consecutive R lo hi ((key, v) :: es) ((key, v') :: es')

theorem Consecutive.keys_eq {R : Nat → Nat → Value → Value → Prop} {lo hi : Nat}
    {es es' : List (Key × Value)} (h : Consecutive R lo hi es es') :
    es'.map Prod.fst = es.map Prod.fst := by
  induction h with
  | nil => rfl
  | cons _ _ ih => rw [List.map_cons, List.map_cons, ih]

section Consecutive

variable {R S : Nat → Nat → Value → Value → Prop} {lo hi : Nat} {es es' : List (Key × Value)}

theorem Consecutive.le (h : Consecutive R lo hi es es')
    (hR : ∀ lo hi v v', R lo hi v v' → lo ≤ hi) : lo ≤ hi := by
  induction h with
  | nil => exact Nat.le_refl _
  | cons head _ ih => exact Nat.le_trans (hR _ _ _ _ head) ih

theorem Consecutive.imp (h : Consecutive R lo hi es es')
    (hR : ∀ lo hi v v', R lo hi v v' → lo ≤ hi)
    (himp : ∀ lo' hi' v v', lo ≤ lo' → v ∈ es.map Prod.snd → R lo' hi' v v' → S lo' hi' v v') :
    Consecutive S lo hi es es' := by
  induction h with
  | nil => exact .nil _
  | cons head _ ih =>
    refine .cons (himp _ _ _ _ (Nat.le_refl _) List.mem_cons_self head) (ih fun lo' hi' v v' => ?_)
    exact fun hle hv => himp lo' hi' v v' (Nat.le_trans (hR _ _ _ _ head) hle)
      (List.mem_cons_of_mem _ hv)

theorem Consecutive.forall₂ {T : Value → Value → Prop}
    (h : Consecutive (fun _ _ => T) lo hi es es') :
    List.Forall₂ (fun e e' => e'.1 = e.1 ∧ T e.2 e'.2) es es' := by
  induction h with
  | nil => exact .nil
  | cons head _ ih => exact .cons ⟨rfl, head⟩ ih

end Consecutive

/-- A value of the replica has been built from a copy of one of the store `s`, and the nodes in it
have been made with the numbers from `lo` to below `hi` of the store `t`. What is no node is the
same; a node that is no sequence is the one in the table; and a sequence is a new one, made by its
constructor of what was built from the properties of the sequence in `s`, in order. -/
inductive BuiltFrom (s : Store) (table : NodeId → Option NodeRef) (t : Store) :
    Nat → Nat → Value → Value → Prop
  | same {lo : Nat} {v : Value} (h : v.node? = none) : BuiltFrom s table t lo lo v v
  | held {lo : Nat} {id : NodeId} {ref : NodeRef} (h : table id = some ref) :
    BuiltFrom s table t lo lo (.node ⟨id, false⟩) (.node ref)
  | copied {lo hi : Nat} {id : NodeId} {node : Node} {es : List (Key × Value)} {bag : Bag}
    {R : Nat → Nat → Value → Value → Prop}
    (hR : ∀ lo hi v v', R lo hi v v' → BuiltFrom s table t lo hi v v')
    (hnode : s.get? id = some node) (hkind : node.kind = .sequence)
    (hentries : Consecutive R lo hi node.properties.entries es)
    (hmade : Node.sequenceOf ⟨es⟩ = .ok (.fresh (.sequence .start) bag))
    (hfiled : t.get? hi = some (.fresh (.sequence .start) bag)) :
    BuiltFrom s table t lo (hi + 1) (.node ⟨id, true⟩) (.node ⟨hi, true⟩)

section BuiltFrom

variable {s t : Store} {table : NodeId → Option NodeRef} {lo hi : Nat} {v v' : Value}

theorem BuiltFrom.le (h : BuiltFrom s table t lo hi v v') : lo ≤ hi := by
  induction h with
  | same | held => exact Nat.le_refl _
  | copied _ _ _ hentries _ _ ih => exact Nat.le_succ_of_le (hentries.le ih)

/-- What has been built from a sequence is one that has played nothing. -/
theorem BuiltFrom.of_sequence {id : NodeId} (h : BuiltFrom s table t lo hi (.node ⟨id, true⟩) v') :
    ∃ node ref bag, s.get? id = some node ∧ node.kind = .sequence ∧ v' = .node ref ∧
      t.get? ref.id = some (.fresh (.sequence .start) bag) := by
  cases h with
  | same h => cases h
  | copied _ hnode hkind _ _ hfiled => exact ⟨_, _, _, hnode, hkind, rfl, hfiled⟩

end BuiltFrom

/-! ## Building -/

variable {s : Store} {r₀ r : Receiver} {v : Value} {snapshot : Snapshot}
  {R : Receiver → Nat → Nat → Value → Value → Prop}

/-- The replica while copies of nodes of the store `s` are built, from `r₀` on. What the table has
under a number is what it had, or a sequence that was built from the one of that number. -/
structure Since (s : Store) (r₀ r : Receiver) : Prop where
  constructors : r.replica.constructors = r₀.replica.constructors
  nextId_le : r₀.store.nextId ≤ r.store.nextId
  table : ∀ id, r.replica.get? id = r₀.replica.get? id ∨
    ∃ ref lo hi, r.replica.get? id = some ref ∧ r₀.store.nextId ≤ lo ∧
      ∀ t, r.store.Remains t →
        BuiltFrom s r₀.replica.get? t lo hi (.node ⟨id, true⟩) (.node ref)

theorem Since.refl (s : Store) (r₀ : Receiver) : Since s r₀ r₀ :=
  ⟨rfl, Nat.le_refl _, fun _ => .inl rfl⟩

/-- Nothing has been filed under the number of a node that is no sequence. -/
theorem Since.plain (h : Since s r₀ r) {id : NodeId}
    (hid : (s.get? id).map Node.isSequence = some false) :
    r.replica.get? id = r₀.replica.get? id := by
  rcases h.table id with hsame | ⟨ref, lo, hi, -, -, hbuilt⟩
  · exact hsame
  · obtain ⟨node, -, -, hnode, hkind, -⟩ := (hbuilt r.store (.refl _)).of_sequence
    rw [hnode, Option.map_some, Node.isSequence_eq, hkind] at hid
    cases hid

/-- A sequence that was built from the one of a number is filed under it. -/
theorem Since.filed (h : Since s r₀ r) {id : NodeId} {made : Node} {lo hi : Nat}
    (hlo : r₀.store.nextId ≤ lo)
    (hbuilt : ∀ t, (r.filed id made).store.Remains t →
      BuiltFrom s r₀.replica.get? t lo hi (.node ⟨id, true⟩) (.node (r.store.add made).1)) :
    Since s r₀ (r.filed id made) := by
  refine ⟨h.constructors, r.nextId_filed id made ▸ Nat.le_succ_of_le h.nextId_le, fun other => ?_⟩
  rw [get?_filed]
  split
  · rename_i heq
    exact .inr ⟨_, lo, hi, rfl, hlo, heq ▸ hbuilt⟩
  · rcases h.table other with hsame | ⟨ref, lo, hi, href, hlo, hother⟩
    · exact .inl hsame
    · exact .inr ⟨ref, lo, hi, href, hlo, fun t ht =>
        hother t ((Store.remains_add _ made).trans ht)⟩

/-- The snapshot is built to a value that has the relation `R` to `v`, whatever is made after it. If
`v` is a node, it is what the table has under its number then. -/
def Recovers (s : Store) (r₀ : Receiver) (R : Receiver → Nat → Nat → Value → Value → Prop)
    (v : Value) (snapshot : Snapshot) : Prop :=
  ∀ r, Since s r₀ r → ∃ v' r', (build snapshot).exec r = (.ok v', r') ∧ Since s r₀ r' ∧
    r.store.Remains r'.store ∧ (∀ n, v = .node n → r'.replica.get? n.id = v'.node?) ∧
    ∀ t, r'.store.Remains t.store → R t r.store.nextId r'.store.nextId v v'

/-- Properties are built one after another. -/
theorem exec_buildBag {encode : Value → Except Fault Snapshot} {entries : List (Key × Value)}
    {properties : List (String × Snapshot)}
    (h : Store.encodeEntries encode entries = .ok properties)
    (hreadable : ∀ key ∈ entries.map Prod.fst, key.Readable)
    (hneeds : ∀ id ∈ Snapshot.needsOf properties, r₀.replica.get? id ≠ none)
    (hvalue : ∀ v ∈ entries.map Prod.snd, ∀ snapshot, encode v = .ok snapshot →
      (∀ id ∈ snapshot.needs, r₀.replica.get? id ≠ none) → Recovers s r₀ R v snapshot)
    (hr : Since s r₀ r) (bag : Bag) :
    ∃ es r', (buildBag properties bag).exec r = (.ok (bag.write es), r') ∧ Since s r₀ r' ∧
      r.store.Remains r'.store ∧ ∀ t, r'.store.Remains t.store →
        Consecutive (R t) r.store.nextId r'.store.nextId entries es := by
  induction entries generalizing properties r bag with
  | nil =>
    cases h
    rw [buildBag]
    exact ⟨[], r, rfl, hr, .refl _, fun _ _ => .nil _⟩
  | cons entry entries ih =>
    obtain ⟨key, v⟩ := entry
    obtain ⟨snapshot, hsnapshot, h⟩ := Task.exists_of_bind_eq_ok h
    obtain ⟨rest, hrest, h⟩ := Task.exists_of_bind_eq_ok h
    cases h
    rw [Snapshot.needsOf] at hneeds
    have hkey : Key.parse key.text = key := hreadable key List.mem_cons_self
    obtain ⟨v', r₁, hexec, hr₁, hremains, -, hbuilt⟩ := hvalue v List.mem_cons_self snapshot
      hsnapshot (fun id hid => hneeds id (List.mem_append_left _ hid)) r hr
    obtain ⟨es, r', hexec', hr', hremains', hbuilt'⟩ := ih hrest
      (fun key' hkey' => hreadable key' (List.mem_cons_of_mem key hkey'))
      (fun id hid => hneeds id (List.mem_append_right _ hid))
      (fun w hw => hvalue w (List.mem_cons_of_mem v hw)) hr₁ (bag.set key v')
    refine ⟨(key, v') :: es, r', ?_, hr', hremains.trans hremains', fun t ht => ?_⟩
    · rw [buildBag, Task.exec_bind_ok hexec, hkey, hexec']
      rfl
    · exact .cons (hbuilt t (hremains'.trans ht)) (hbuilt' t ht)

/-- The properties of a node are built to a bag with the same keys in the same order. -/
theorem exec_buildBag_empty {encode : Value → Except Fault Snapshot} {b : Bag}
    {properties : List (String × Snapshot)}
    (h : Store.encodeEntries encode b.entries = .ok properties)
    (hreadable : ∀ key ∈ b.keys, key.Readable) (hnodup : b.keys.Nodup)
    (hneeds : ∀ id ∈ Snapshot.needsOf properties, r₀.replica.get? id ≠ none)
    (hvalue : ∀ v ∈ b.values, ∀ snapshot, encode v = .ok snapshot →
      (∀ id ∈ snapshot.needs, r₀.replica.get? id ≠ none) → Recovers s r₀ R v snapshot)
    (hr : Since s r₀ r) :
    ∃ es r', (buildBag properties .empty).exec r = (.ok ⟨es⟩, r') ∧
      (⟨es⟩ : Bag).keys = b.keys ∧ Since s r₀ r' ∧ r.store.Remains r'.store ∧
      ∀ t, r'.store.Remains t.store →
        Consecutive (R t) r.store.nextId r'.store.nextId b.entries es := by
  obtain ⟨es, r', hexec, hr', hremains, hbuilt⟩ :=
    exec_buildBag h hreadable hneeds hvalue hr .empty
  have hkeys : (⟨es⟩ : Bag).keys = b.keys := (hbuilt r' (.refl _)).keys_eq
  have hbag : Bag.empty.write es = ⟨es⟩ := Bag.ofList_of_nodup (show (⟨es⟩ : Bag).keys.Nodup from
    hkeys ▸ hnodup)
  exact ⟨es, r', hbag ▸ hexec, hkeys, hr', hremains, hbuilt⟩

/-! ## Copies -/

/-- A snapshot is built to what has been built from the value that it is of. -/
def Copies (s : Store) (r₀ : Receiver) (v : Value) (snapshot : Snapshot) : Prop :=
  Recovers s r₀ (fun t => BuiltFrom s r₀.replica.get? t.store) v snapshot

/-- What is no sequence is built as it is, or is the node in the table. -/
theorem copies_encodeWith {copy : NodeId → Except Fault Snapshot}
    (h : Store.encodeWith copy v = .ok snapshot) (hv : s.Denotes [v])
    (hneeds : ∀ id ∈ snapshot.needs, r₀.replica.get? id ≠ none)
    (hcopy : ∀ id, v = .node ⟨id, true⟩ → copy id = .ok snapshot → Copies s r₀ v snapshot) :
    Copies s r₀ v snapshot := by
  cases v with
  | node n =>
    obtain ⟨id, isSequence⟩ := n
    cases isSequence with
    | true => exact hcopy id rfl h
    | false =>
      cases h
      intro r hr
      obtain ⟨ref, href⟩ := Option.ne_none_iff_exists'.1 (hneeds id List.mem_cons_self)
      have hfound := (hr.plain (hv _ List.mem_cons_self)).trans href
      refine ⟨.node ref, r, ?_, hr, .refl _, fun n hn => ?_, fun _ _ => .held href⟩
      · rw [build, Task.exec_bind_ok (exec_lookup hfound)]
        rfl
      · cases hn
        exact hfound
  | scalar | bool | text | unset =>
    cases h
    intro r hr
    refine ⟨_, r, ?_, hr, .refl _, nofun, fun _ _ => .same rfl⟩
    rw [build]
    rfl

/-- A sequence is made and filed, if its properties have been built. -/
theorem exec_construct_sequence (hmaker : r₀.replica.constructor? "sequence" = some Node.sequenceOf)
    {id : NodeId} {node : Node} (hnode : s.get? id = some node) (hkind : node.kind = .sequence)
    (hportable : s.Portable node) {lo : Nat} (hlo : r₀.store.nextId ≤ lo) (hr : Since s r₀ r)
    {es : List (Key × Value)} (hkeys : (⟨es⟩ : Bag).keys = node.properties.keys)
    (hbuilt : ∀ t, r.store.Remains t → Consecutive (BuiltFrom s r₀.replica.get? t) lo
      r.store.nextId node.properties.entries es) :
    ∃ bag r', (construct id "sequence" ⟨es⟩).exec r = (.ok ⟨r.store.nextId, true⟩, r') ∧
      r' = r.filed id (.fresh (.sequence .start) bag) ∧ Since s r₀ r' ∧
      ∀ t, r'.store.Remains t → BuiltFrom s r₀.replica.get? t lo r'.store.nextId
        (.node ⟨id, true⟩) (.node ⟨r.store.nextId, true⟩) := by
  obtain ⟨n, hn⟩ := hportable.exists_step
  obtain ⟨bag, hmade⟩ := Node.sequenceOf_of_step (hkeys ▸ hportable.nodup_keys) (hkeys ▸ hn)
  have hfrom (t : Store) (ht : (r.filed id (.fresh (.sequence .start) bag)).store.Remains t) :
      BuiltFrom s r₀.replica.get? t lo (r.store.nextId + 1) (.node ⟨id, true⟩)
        (.node ⟨r.store.nextId, true⟩) :=
    .copied (fun _ _ _ _ h => h) hnode hkind (hbuilt t ((Store.remains_add _ _).trans ht)) hmade
      (ht _ _ (Store.get?_add_self _ _))
  have hname : r.replica.constructor? "sequence" = some Node.sequenceOf := by
    rw [Replica.constructor?, hr.constructors]
    exact hmaker
  refine ⟨bag, _, exec_construct hname hmade, rfl, hr.filed hlo hfrom, ?_⟩
  rw [nextId_filed]
  exact hfrom

/-- **A full copy is built, all the way down.** -/
theorem copies_fullCopy (hmaker : r₀.replica.constructor? "sequence" = some Node.sequenceOf)
    {levels : Nat} {path : List NodeId} {id : NodeId}
    (h : s.fullCopy levels path id = .ok snapshot)
    (hid : (s.get? id).map Node.isSequence = some true)
    (hportable : ∀ other node, s.Meets (.node ⟨id, true⟩) other → s.get? other = some node →
      node.kind = .sequence → s.Portable node)
    (hneeds : ∀ i ∈ snapshot.needs, r₀.replica.get? i ≠ none) :
    Copies s r₀ (.node ⟨id, true⟩) snapshot := by
  -- a sequence inside another one is copied with one level less, also if they form a ring
  induction levels generalizing path id snapshot with
  | zero => cases h
  | succ levels ih =>
    obtain ⟨node, hnode, hsequence⟩ := Option.map_eq_some_iff.1 hid
    have hkind := Node.kind_of_isSequence hsequence
    have hnodePortable := hportable id node ⟨id, rfl, .refl⟩ hnode hkind
    rw [Store.fullCopy] at h
    split at h
    · cases h
    rw [hnode] at h
    obtain ⟨properties, hproperties, h⟩ := Task.exists_of_bind_eq_ok h
    cases h
    have hvalue (v : Value) (hv : v ∈ node.properties.values) (snapshot : Snapshot)
        (hsnapshot : Store.encodeWith (s.fullCopy levels (id :: path)) v = .ok snapshot)
        (hneeds : ∀ i ∈ snapshot.needs, r₀.replica.get? i ≠ none) : Copies s r₀ v snapshot := by
      have hdenotes : s.Denotes [v] := hnodePortable.denotes.of_mem hv
      refine copies_encodeWith hsnapshot hdenotes hneeds ?_
      rintro child rfl hcopied
      exact ih hcopied (hdenotes _ List.mem_cons_self)
        (fun other node' hmeets => hportable other node' (hmeets.of_property hnode hv)) hneeds
    intro r hr
    obtain ⟨es, r₁, hbag, hkeys, hr₁, hremains, hbuilt⟩ := exec_buildBag_empty hproperties
      hnodePortable.readable hnodePortable.nodup_keys hneeds hvalue hr
    obtain ⟨bag, r', hconstruct, rfl, hr', hfrom⟩ := exec_construct_sequence hmaker hnode hkind
      hnodePortable hr.nextId_le hr₁ hkeys fun t ht => hbuilt ⟨t, r₁.replica⟩ ht
    refine ⟨.node ⟨r₁.store.nextId, true⟩, _, ?_, hr',
      hremains.trans (Store.remains_add _ _), fun n hn => ?_, fun t => hfrom t.store⟩
    · rw [build, Node.name_of_isSequence hsequence, Task.exec_bind_ok hbag,
        Task.exec_bind_ok hconstruct]
      rfl
    · cases hn
      rw [get?_filed, if_pos rfl]
      rfl

open Transparency

theorem portable_of_formed {s : Session} (hs : Formed s) {id : NodeId} {node : Node}
    (hnode : s.store.get? id = some node) (hkind : node.kind = .sequence) :
    s.store.Portable node :=
  ⟨(hs.allows hnode).readable, (hs.allows hnode).nodup_keys, (hs.allows hnode).exists_step hkind,
    hs.store.denotes hnode⟩

/-- **A copy of a sequence does not say where it stands.** Whatever has been done in a session, and
wherever a sequence stands: if it can be copied, then a replica that has the nodes referred to
builds the copy, and what it builds is at the start. So it stands where the sequence does only if
that is at the start itself. -/
theorem start_of_copy (relay : Relay) {script : List Action}
    (hscript : Along (fun s a => a.Denotes s) (session relay .empty) script) {id : NodeId}
    {node : Node} {p : Playback} {maxDepth : Nat} {snapshot : Snapshot}
    (hnode : (run Action.task script (session relay .empty)).2.store.get? id = some node)
    (hbody : node.body = .sequence p)
    (hcopy : (run Action.task script (session relay .empty)).2.store.encode maxDepth
      (.node ⟨id, true⟩) = .ok snapshot)
    {r : Receiver} (hr : r.replica.constructors = Replica.builtins)
    (hneeds : ∀ i ∈ snapshot.needs, r.replica.get? i ≠ none) :
    ∃ ref r' node', (build snapshot).exec r = (.ok (.node ref), r') ∧
      r'.replica.get? id = some ref ∧ r'.store.get? ref.id = some node' ∧
      node'.body = .sequence .start ∧ (node'.body = node.body ↔ p = .start) := by
  have hs := formed_run relay hscript
  have hid : ((run Action.task script (session relay .empty)).2.store.get? id).map
      Node.isSequence = some true := by
    rw [hnode, Option.map_some, Node.isSequence, hbody]
  have hmaker : r.replica.constructor? "sequence" = some Node.sequenceOf :=
    Replica.constructor?_kind hr (k := .sequence) (by decide +kernel)
  obtain ⟨v, r', hexec, -, -, hfiled, hbuilt⟩ := copies_fullCopy hmaker hcopy hid
    (fun _ _ _ => portable_of_formed hs) hneeds r (.refl _ r)
  obtain ⟨-, ref, bag, -, -, rfl, hmade⟩ := (hbuilt r' (.refl _)).of_sequence
  refine ⟨ref, r', _, hexec, hfiled _ rfl, hmade, rfl, ?_⟩
  rw [hbody]
  exact ⟨fun heq => (Body.sequence.inj heq).symm, fun heq => heq ▸ rfl⟩

section Stopped

/-- A sequence of two steps is played for one sample, and stopped. -/
def stopping : List Action :=
  [.make (.function .merge [.bool true, .bool false]),
    .make (.sequence [.node ⟨1, false⟩, .bool false] (.bool true)), .tick 8 2, .invoke 2 "stop" []]

/-- The nodes after that. -/
def stopped : Store :=
  (run Action.task stopping (session (.start .silent .nowhere []) .empty)).2.store

/-- A replica that has the node that the sequence holds. -/
def holder : Receiver :=
  ((apply (.create ⟨["Merge"], [("0", .bool true), ("1", .bool false)], 1⟩)).exec start).2

/-- The copy of the sequence. -/
def stoppedCopy : Snapshot :=
  .node 2 "sequence" [("rate", .bool true), ("0", .reference 1), ("1", .bool false)]

/-- The sequence stands at its second step, and its copy runs from the first. -/
theorem body_of_stoppedCopy :
    stopped.encode 64 (.node ⟨2, true⟩) = .ok stoppedCopy ∧
    (∀ i ∈ stoppedCopy.needs, holder.replica.get? i ≠ none) ∧
    (stopped.get? 2).map Node.body = some (.sequence ⟨0.0, 1, false, 1.0⟩) ∧
    ∃ ref r', (build stoppedCopy).exec holder = (.ok (.node ref), r') ∧
      (r'.store.get? ref.id).map Node.body = some (.sequence ⟨0.0, 0, true, 0.0⟩) :=
  ⟨rfl, by decide +kernel, rfl, _, _, rfl, rfl⟩

theorem start_of_stoppedCopy :
    Along (fun s a => a.Denotes s) (session (.start .silent .nowhere []) .empty) stopping ∧
    ∃ ref r' node', (build stoppedCopy).exec holder = (.ok (.node ref), r') ∧
      r'.store.get? ref.id = some node' ∧ node'.body = .sequence .start := by
  have hscript : Along (fun s a => a.Denotes s) (session (.start .silent .nowhere []) .empty)
      stopping := by
    decide +kernel
  obtain ⟨node, hnode, hbody⟩ : ∃ node, stopped.get? 2 = some node ∧
      node.body = .sequence ⟨0.0, 1, false, 1.0⟩ := ⟨_, rfl, rfl⟩
  have hcopy : stopped.encode 64 (.node ⟨2, true⟩) = .ok stoppedCopy := rfl
  have hneeds : ∀ i ∈ stoppedCopy.needs, holder.replica.get? i ≠ none := by decide +kernel
  obtain ⟨ref, r', node', hbuild, -, hnode', hbody', -⟩ :=
    start_of_copy (.start .silent .nowhere []) hscript hnode hbody hcopy rfl hneeds
  exact ⟨hscript, ref, r', node', hbuild, hnode', hbody'⟩

end Stopped

end Receiver

end Patchbay
