import Patchbay.Proofs.Picture

/-!
# What a message that fails leaves behind

A receiver makes the nodes that a message carries one after the other, and files each of them at
once. A message that fails later on leaves those that were filed. It leaves nothing else.

* `Receiver.Grows`: a receiver that has new nodes under some numbers, and is otherwise as before;
* `Receiver.grows_build`: so is a receiver in which a snapshot was built, or failed to build;
* `Receiver.grows_of_rejected`: so is a receiver to which a failing message was applied, and the
  numbers are among those that the message carries inside;
* `Receiver.table_of_nestedCopy`: there are such numbers.
-/

namespace Patchbay

mutual

/-- The snapshot, and all that it is made of. -/
def Snapshot.parts : Snapshot → List Snapshot
  | .created path properties id => .created path properties id :: partsOf properties
  | .node id name properties => .node id name properties :: partsOf properties
  | snapshot => [snapshot]

/-- The same of all properties. -/
def Snapshot.partsOf : List (String × Snapshot) → List Snapshot
  | [] => []
  | (_, snapshot) :: rest => snapshot.parts ++ partsOf rest

end

/-- The snapshots that a message carries. The node that it announces is none of them. -/
def Message.parts : Message → List Snapshot
  | .create c => Snapshot.partsOf c.properties
  | .call c => c.args.flatMap Snapshot.parts

namespace Receiver

/-- The snapshots bring a node for the number: a full copy of it, or the announcement of one that
the table does not have. -/
def Brings (parts : List Snapshot) (r : Receiver) (id : NodeId) : Prop :=
  (∃ name properties, .node id name properties ∈ parts) ∨
    r.replica.get? id = none ∧ ∃ path properties, .created path properties id ∈ parts

/-- A receiver after another one: it has new nodes under numbers that the snapshots bring, and
otherwise the same. -/
structure Grows (parts : List Snapshot) (r r' : Receiver) : Prop where
  constructors : r'.replica.constructors = r.replica.constructors
  nextId_le : r.store.nextId ≤ r'.store.nextId
  /-- each node is in the state that it was in -/
  kept : ∀ id node, r.store.get? id = some node → r'.store.get? id = some node
  /-- each number has the node that it had, or one that has been made since -/
  table : ∀ id, r'.replica.get? id = r.replica.get? id ∨ Brings parts r id ∧
    ∃ ref node, r'.replica.get? id = some ref ∧ r.store.nextId ≤ ref.id ∧
      r'.store.get? ref.id = some node

variable {r₀ r r' : Receiver} {parts : List Snapshot} {id : NodeId}

theorem Grows.refl (parts : List Snapshot) (r : Receiver) : Grows parts r r :=
  ⟨rfl, Nat.le_refl _, fun _ _ h => h, fun _ => .inl rfl⟩

/-- No number leaves the table. -/
theorem Grows.get?_eq_none (h : Grows parts r r') (hid : r'.replica.get? id = none) :
    r.replica.get? id = none := by
  rcases h.table id with heq | ⟨-, ref, node, href, -⟩
  · exact heq.symm.trans hid
  · rw [hid] at href
    cases href

theorem Grows.filed (h : Grows parts r₀ r) (hid : Brings parts r₀ id) (node : Node) :
    Grows parts r₀ (r.filed id node) := by
  have hkept {other : NodeId} {node' : Node} (hother : r.store.get? other = some node') :
      (r.filed id node).store.get? other = some node' :=
    (Store.get?_add_of_lt (Store.lt_nextId hother) node).trans hother
  have hnextId := r.nextId_filed id node
  refine ⟨h.constructors, hnextId ▸ Nat.le_succ_of_le h.nextId_le,
    fun other node' hother => hkept (h.kept other node' hother), fun other => ?_⟩
  rw [r.get?_filed]
  split
  · rename_i heq
    subst heq
    exact .inr ⟨hid, _, node, rfl, h.nextId_le, Store.get?_add_self r.store node⟩
  · rcases h.table other with heq | ⟨hbrings, ref, node', href, hnew, hnode⟩
    · exact .inl heq
    · exact .inr ⟨hbrings, ref, node', href, hnew, hkept hnode⟩

/-! ## Building -/

/-- A constructor files a node that it makes. If it fails, or there is none of that name, all is
left as it is. -/
theorem exec_construct_cases (id : NodeId) (name : String) (bag : Bag) (r : Receiver) :
    (∃ constructor node, r.replica.constructor? name = some constructor ∧
      constructor bag = .ok node ∧
      (construct id name bag).exec r = (.ok (r.store.add node).1, r.filed id node)) ∨
    ∃ e, (construct id name bag).exec r = (.error e, r) ∧ (e = .unknownConstructor name ∨
      ∃ constructor, r.replica.constructor? name = some constructor ∧
        constructor bag = .error e) := by
  cases hname : r.replica.constructor? name with
  | none =>
    refine .inr ⟨.unknownConstructor name, ?_, .inl rfl⟩
    rw [construct, Task.exec_get_bind, hname]
    rfl
  | some constructor =>
    cases hmade : constructor bag with
    | ok node => exact .inl ⟨constructor, node, rfl, hmade, exec_construct hname hmade⟩
    | error e =>
      refine .inr ⟨e, ?_, .inr ⟨constructor, rfl, hmade⟩⟩
      rw [construct, Task.exec_get_bind, hname]
      refine Task.exec_bind_error ?_
      rw [hmade, onStore, Task.exec_onPart, Store.exec_build_error]

theorem exec_construct_error {name : String} {bag : Bag} {e : Fault}
    (h : (construct id name bag).exec r = (.error e, r')) : r' = r := by
  rcases exec_construct_cases id name bag r with ⟨_, node, -, -, hexec⟩ | ⟨e', hexec, -⟩
  · rw [hexec] at h
    cases h
  · rw [hexec] at h
    cases h
    rfl

theorem exec_lookup {ref : NodeRef} (h : r.replica.get? id = some ref) :
    (lookup id).exec r = (.ok ref, r) := by
  rw [lookup, Task.exec_get_bind, h]
  rfl

theorem exec_lookup_none (h : r.replica.get? id = none) :
    (lookup id).exec r = (.error (.unknownReference id), r) := by
  rw [lookup, Task.exec_get_bind, h]
  rfl

theorem keeps_lookup (P : Receiver → Prop) (id : NodeId) : (lookup id).Keeps P := by
  refine Task.keeps_get_bind fun r _ => ?_
  split
  · exact Task.keeps_pure _
  · exact Task.keeps_throw _

theorem grows_construct (hid : Brings parts r₀ id) (name : String) (bag : Bag) :
    (construct id name bag).Keeps (Grows parts r₀) := by
  intro r hr
  rcases exec_construct_cases id name bag r with ⟨_, node, -, -, hexec⟩ | ⟨e, hexec, -⟩
  · rw [hexec]
    exact hr.filed hid node
  · rw [hexec]
    exact hr

mutual

/-- A snapshot brings what it is made of, also if it fails to build. -/
theorem grows_build : ∀ {snapshot : Snapshot}, snapshot.parts ⊆ parts →
    (build snapshot).Keeps (Grows parts r₀)
  | .scalar _, _ | .bool _, _ | .text _, _ | .unset, _ => by
    rw [build]
    exact Task.keeps_pure _
  | .reference id, _ => by
    rw [build]
    exact (keeps_lookup _ id).bind fun _ => Task.keeps_pure _
  | .created path properties id, h => by
    rw [Snapshot.parts, List.cons_subset] at h
    rw [build]
    refine Task.keeps_get_bind fun r hr => ?_
    split
    · exact Task.keeps_pure _
    · rename_i hnone
      exact (grows_buildBag h.2 _).bind fun bag =>
        (grows_construct (.inr ⟨hr.get?_eq_none hnone, path, properties, h.1⟩) _ bag).bind
          fun _ => Task.keeps_pure _
  | .node id name properties, h => by
    rw [Snapshot.parts, List.cons_subset] at h
    rw [build]
    exact (grows_buildBag h.2 _).bind fun bag =>
      (grows_construct (.inl ⟨name, properties, h.1⟩) _ bag).bind fun _ => Task.keeps_pure _

/-- So do properties. -/
theorem grows_buildBag : ∀ {properties : List (String × Snapshot)},
    Snapshot.partsOf properties ⊆ parts → ∀ bag : Bag,
      (buildBag properties bag).Keeps (Grows parts r₀)
  | [], _, _ => by
    rw [buildBag]
    exact Task.keeps_pure _
  | (_, _) :: _, h, _ => by
    rw [Snapshot.partsOf, List.append_subset] at h
    rw [buildBag]
    exact (grows_build h.1).bind fun _ => grows_buildBag h.2 _

end

theorem grows_buildAll {snapshots : List Snapshot} (h : snapshots.flatMap Snapshot.parts ⊆ parts) :
    (buildAll snapshots).Keeps (Grows parts r₀) := by
  induction snapshots with
  | nil => exact Task.keeps_pure _
  | cons snapshot rest ih =>
    rw [List.flatMap_cons, List.append_subset] at h
    exact (grows_build h.1).bind fun _ => (ih h.2).bind fun _ => Task.keeps_pure _

/-! ## Messages -/

/-- A call that fails changes no node. -/
theorem exec_onStore_call_error {method : String} {args : List Value} {e : Fault}
    (h : (onStore (Store.call id method args)).exec r = (.error e, r')) : r' = r := by
  rw [onStore, Task.exec_onPart] at h
  cases hnode : r.store.get? id with
  | none =>
    rw [Store.call, Task.exec_bind_error (Store.exec_fetch_none hnode)] at h
    cases h
    rfl
  | some node =>
    rw [Store.exec_call hnode] at h
    split at h
    · cases h
    · cases h
      rfl

/-- **A message that fails leaves what it brought.** A receiver to which a failing message has been
applied has each node in the state that it was in, and each number in its table that was there.
A number has another node than before only if the message carries a full copy of it, or its
announcement and the number was not in the table; and the node is a new one. The number that a
failing announcement is about is no exception. -/
theorem grows_of_rejected {m : Message} {e : Fault} (h : (apply m).exec r = (.error e, r')) :
    Grows m.parts r r' := by
  have hrefl := Grows.refl m.parts r
  cases m with
  | create c =>
    have hbuild : (buildBag c.properties .empty).Keeps (Grows (Message.create c).parts r) :=
      grows_buildBag (List.Subset.refl _) .empty
    rw [apply, Task.exec_bind_error_iff] at h
    rcases h with h | ⟨ref, r₁, -, h⟩
    · rw [create, Task.exec_bind_error_iff] at h
      rcases h with h | ⟨bag, r₁, hbag, h⟩
      · exact hbuild.of_exec h hrefl
      · rw [exec_construct_error h]
        exact hbuild.of_exec hbag hrefl
    · cases h
  | call c =>
    have hbuild : (buildAll c.args).Keeps (Grows (Message.call c).parts r) :=
      grows_buildAll (List.Subset.refl _)
    rw [apply, call, Task.exec_bind_error_iff] at h
    rcases h with h | ⟨target, r₁, htarget, h⟩
    · exact (keeps_lookup _ _).of_exec h hrefl
    · have hr₁ := (keeps_lookup _ _).of_exec htarget hrefl
      rw [Task.exec_bind_error_iff] at h
      rcases h with h | ⟨args, r₂, hargs, h⟩
      · exact hbuild.of_exec h hr₁
      · rw [exec_onStore_call_error h]
        exact hbuild.of_exec hargs hr₁

/-- The announcement of a node that has no constructor, and carries a full copy of a sequence. -/
def nestedCopy : Message :=
  .create ⟨["Sine"], [("0", .node 2 "sequence" [("rate", .scalar 1.0), ("0", .scalar 1.0)])], 1⟩

/-- The sequence stays in the table, although the message has failed. -/
theorem table_of_nestedCopy : ∃ e r', (apply nestedCopy).exec start = (.error e, r') ∧
    r'.replica.get? 2 ≠ start.replica.get? 2 := by
  refine ⟨.unknownConstructor "Sine", ((apply nestedCopy).exec start).2, Prod.ext ?_ rfl, ?_⟩
  · decide +kernel
  · decide +kernel

theorem grows_of_nestedCopy :
    Grows nestedCopy.parts start ((apply nestedCopy).exec start).2 := by
  have h : ((apply nestedCopy).exec start).1 = .error (.unknownConstructor "Sine") := by
    decide +kernel
  exact grows_of_rejected (Prod.ext h rfl)

end Receiver

end Patchbay
