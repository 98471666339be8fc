import Patchbay.Proofs.Founded
import Patchbay.Proofs.History

/-!
# Tables that name nodes

A value that is a node has its number, and what kind of node it is, from the constructor that made
the node, also if a message made it.

* `Replica.Intact`, `Receiver.Intact`: tables and the values at hand name nodes of the store as they
  are, and no two numbers of a table name the same node;
* `Receiver.handling_intact`, `Receiver.intact_apply`: snapshots and messages keep that, also those
  that fail.
-/

namespace Patchbay

/-! ## What constructors and methods give -/

/-- The constructor that a replica has for a kind is one that is given the values of the bag. -/
theorem Kind.exists_maker (k : Kind) (bag : Bag) :
    ∃ m : Maker, k.constructor bag = m.make ∧ m.values = bag.values := by
  cases k with
  | chain op => exact ⟨.chain op bag.values, rfl, rfl⟩
  | function f => exact ⟨.function f bag.values, rfl, rfl⟩
  | map => exact ⟨.mapOf bag, rfl, rfl⟩
  | sequence => exact ⟨.sequenceOf bag, rfl, rfl⟩

namespace Node

variable {n n' : Node} {id : NodeId} {method : String} {args : List Value} {m : NodeRef}

theorem mem_values_of_callCommon (h : callCommon id n method args = .ok (.node m, n')) :
    .node m ∈ n.properties.values := by
  unfold callCommon at h
  split at h
  · unfold callSet at h
    split at h
    · split at h <;> cases h
    · cases h
  · split at h
    · unfold callGet at h
      split at h
      · rename_i key _
        cases hkey : n.properties.get? key with
        | none =>
          rw [hkey] at h
          cases h
        | some v =>
          rw [hkey] at h
          cases h
          exact Bag.mem_values_of_get? hkey
      · cases h
    · cases h

theorem node?_of_callPlayback? {p p' : Playback} {answer : Value}
    (h : callPlayback? p method = some (answer, p')) : answer.node? = none := by
  unfold callPlayback? at h
  repeat' split at h
  all_goals cases h
  all_goals rfl

/-- A node that a method answers is one of the properties. -/
theorem mem_values_of_call (h : n.call id method args = .ok (.node m, n')) :
    .node m ∈ n.properties.values := by
  unfold call at h
  split at h
  · split at h
    · cases h
    · exact mem_values_of_callCommon h
  · split at h
    · rename_i hplayback
      cases h
      cases node?_of_callPlayback? hplayback
    · exact mem_values_of_callCommon h
  · exact mem_values_of_callCommon h

end Node

/-- A method answers a node that the one called holds, if it answers a node. -/
theorem Store.knows_of_call {s : Store} {id : NodeId} {n : NodeRef} {method : String}
    {args : List Value} (h : s.Proper)
    (hcall : ((call id method args).exec s).1 = .ok (.node n)) : s.Knows n := by
  cases hnode : s.get? id with
  | none =>
    rw [call, Task.exec_bind_error (exec_fetch_none hnode)] at hcall
    cases hcall
  | some node =>
    rw [exec_call hnode] at hcall
    split at hcall
    · rename_i hanswer
      cases hcall
      exact h.linked id node hnode n (Node.mem_values_of_call hanswer)
    · cases hcall

/-! ## Receivers -/

/-- The table names nodes of the store as they are, each under one number, and is in order. -/
structure Replica.Intact (s : Store) (replica : Replica) : Prop where
  constructors : replica.constructors = builtins
  ascending : replica.ids.Pairwise (· < ·)
  table : ∀ wire n, replica.get? wire = some n → s.Knows n
  distinct : ∀ wire wire' n n', replica.get? wire = some n → replica.get? wire' = some n' →
    n.id = n'.id → wire = wire'

theorem Replica.intact_empty (s : Store) : Intact s .empty := ⟨rfl, .nil, nofun, nofun⟩

theorem Replica.Intact.mono {s s' : Store} {replica : Replica} (h : replica.Intact s)
    (hs : Store.Outlasts s s') : replica.Intact s' :=
  { h with table := fun wire n hn => (h.table wire n hn).mono hs }

namespace Receiver

/-- The store came about by constructors, and the values at hand name nodes of it as they are. So do
the tables of the replica and of others that share the store. -/
structure Intact (others : List Replica) (values : List Value) (r : Receiver) : Prop where
  store : r.store.Proper
  replica : r.replica.Intact r.store
  others : ∀ replica ∈ others, replica.Intact r.store
  values : r.store.Denotes values

variable {r : Receiver} {others : List Replica} {values values' : List Value}

theorem intact_start : Intact [] [] start :=
  ⟨Store.proper_empty, Replica.intact_empty _, nofun, nofun⟩

theorem Intact.mono (h : Intact others values r) (hsub : values' ⊆ values) :
    Intact others values' r :=
  { h with values := fun n hn => h.values n (hsub hn) }

theorem Intact.cons_node (h : Intact others values r) {n : NodeRef} (hn : r.store.Knows n) :
    Intact others (.node n :: values) r := by
  refine { h with values := Store.denotes_iff.2 fun m hm => ?_ }
  rcases List.mem_cons.1 hm with heq | hm
  · cases heq
    exact hn
  · exact Store.denotes_iff.1 h.values m hm

theorem Intact.cons_of_node?_eq_none (h : Intact others values r) {v : Value}
    (hv : v.node? = none) : Intact others (v :: values) r := by
  refine { h with values := fun n hn => ?_ }
  rcases List.mem_cons.1 hn with rfl | hn
  · cases hv
  · exact h.values n hn

/-- The store may go on. -/
theorem Intact.outlasted (h : Intact others values r) {s : Store}
    (hlasts : Store.Outlasts r.store s) (hs : s.Proper) :
    Intact others values { r with store := s } where
  store := hs
  replica := h.replica.mono hlasts
  others replica hreplica := (h.others replica hreplica).mono hlasts
  values := h.values.mono hlasts

/-- A constructor that is given values at hand makes a node of its own. -/
theorem Intact.built (h : Intact others values r) {m : Maker} (hm : r.store.Denotes m.values)
    {node : Node} (hmake : m.make = .ok node) :
    Intact others (.node (r.store.add node).1 :: values)
      { r with store := (r.store.add node).2 } :=
  (h.outlasted (Store.outlasts_add r.store node) (h.store.add hmake hm)).cons_node
    (Store.knows_add r.store node)

/-- Filed under any number, it is not the node of another number. -/
theorem Intact.filed {bag : Bag} (h : Intact others (bag.values ++ values) r) {k : Kind}
    {node : Node} (hmade : k.constructor bag = .ok node) (id : NodeId) :
    Intact others (.node (r.store.add node).1 :: values) (r.filed id node) := by
  obtain ⟨m, hmake, hm⟩ := k.exists_maker bag
  have hvalues : r.store.Denotes m.values :=
    fun n hn => h.values n (List.mem_append_left values (hm ▸ hn))
  have hbuilt := (h.mono (List.subset_append_right _ _)).built hvalues (hmake ▸ hmade)
  have hne {wire : NodeId} {n : NodeRef} (hn : r.replica.get? wire = some n) :
      n.id ≠ r.store.nextId := Nat.ne_of_lt (h.replica.table wire n hn).lt_nextId
  refine { hbuilt with replica := ⟨h.replica.constructors,
    Replica.file_ascending h.replica.ascending id _, fun wire n hn => ?_,
    fun wire wire' n n' hn hn' heq => ?_⟩ }
  · rcases eq_or_ne wire id with rfl | hwire
    · rw [get?_filed, if_pos rfl] at hn
      cases hn
      exact Store.knows_add r.store node
    · rw [get?_filed, if_neg hwire] at hn
      exact hbuilt.replica.table wire n hn
  · rcases of_get?_filed hn with ⟨rfl, hid⟩ | hold
    · rcases of_get?_filed hn' with ⟨rfl, -⟩ | hold'
      · rfl
      · exact absurd (heq.symm.trans hid) (hne hold')
    · rcases of_get?_filed hn' with ⟨rfl, hid'⟩ | hold'
      · exact absurd (heq.trans hid') (hne hold)
      · exact h.replica.distinct wire wire' n n' hold hold' heq

theorem handling_intact : Handling (Intact others) fun _ => True where
  mono := Intact.mono
  plain hr hv := hr.cons_of_node?_eq_none hv
  table hr hn := hr.cons_node (hr.replica.table _ _ hn)
  filed hr hname hmade id := by
    obtain ⟨k, -, rfl⟩ := Replica.exists_kind hr.replica.constructors hname
    exact hr.filed hmade id
  unknownReference _ := trivial
  unknownConstructor _ := trivial
  refused _ _ _ := trivial

/-- A call that answers a node answers one that is at hand. -/
theorem intact_called (id : NodeId) (method : String) (args : List Value) :
    (onStore (Store.call id method args)).Ends (Intact others (args ++ values))
      (Lands (Intact others) (fun _ => True) values fun v => [v]) := by
  intro r hr
  have hvalues : Intact others values r := hr.mono (List.subset_append_right _ _)
  have hlasts := Store.outlasts_call r.store id method args
  have hafter := hvalues.outlasted hlasts (hr.store.call id method fun n hn =>
    hr.values n (List.mem_append_left _ hn))
  rw [onStore, Task.exec_onPart]
  rcases hcall : ((Store.call id method args).exec r.store).1 with e | v
  · exact ⟨hafter, trivial⟩
  · cases v with
    | node m => exact hafter.cons_node ((Store.knows_of_call hr.store hcall).mono hlasts)
    | scalar | bool | text | unset => exact hafter.cons_of_node?_eq_none rfl

theorem intact_apply (m : Message) :
    (apply m).Ends (Intact others values)
      (Lands (Intact others) (fun _ => True) values fun v => [v]) := by
  cases m with
  | create c =>
    exact (handling_intact.ends_create c).bind (fun _ => Task.ends_pure fun _ hr => hr)
      fun _ _ hr => hr
  | call c => exact handling_intact.ends_call c fun target args => intact_called target.id _ args

theorem Intact.applyAll (h : Intact others values r) (messages : List Message) :
    Intact others values ((applyAll messages).run r).2 := by
  induction messages generalizing r with
  | nil => exact h
  | cons m messages ih =>
    have hend := intact_apply m r h
    rw [applyAll_cons]
    rcases hexec : (apply m).exec r with ⟨e | v, r'⟩
    · rw [hexec] at hend
      exact ih hend.1
    · rw [hexec] at hend
      exact ih (hend.mono (List.subset_cons_self _ _))

end Receiver

end Patchbay
