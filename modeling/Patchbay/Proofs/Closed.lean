import Patchbay.Proofs.Meaning
import Patchbay.Relay.Encode

/-!
# Stores that hold what they name

A store is closed if all nodes that stand in properties are in it. Whoever uses a store has its
nodes from the store, and so every operation is given such nodes, and keeps the store closed. The
same goes for whatever else is said of a node that stands in a property, if it stays true while the
store goes on (`Store.Stable`).

* `Store.Linked`: what is said of all nodes in properties, which operations that are given such
  nodes keep (`Store.linked_build`, `Store.linked_call`, `Store.Linked.of_alike`);
* `Store.isOverflow_of_encodeArgs`, `Store.isOverflow_of_encodeProperties`: in a closed store there
  is one thing that can go wrong with a copy of a value, that it nests too deep. No method goes
  wrong in that way (`Node.not_isOverflow_of_call`).
-/

namespace Patchbay

/-! ## What constructors are given -/

/-- The values that a constructor is given. -/
def Maker.values : Maker → List Value
  | chain _ operands => operands
  | function _ args => args
  | applying _ first second => [first, second]
  | map input _ => [input]
  | mapOf given => given.values
  | sequence steps rate => rate :: steps
  | sequenceOf given => given.values

theorem Node.mem_values_mapProperty {given : Bag} {name : String} {n : NodeRef}
    (h : mapProperty given name = .ok (.node n)) : .node n ∈ given.values := by
  unfold mapProperty at h
  split at h
  · rename_i hgiven
    cases h
    exact Bag.mem_values_of_getNamed? (Option.filter_eq_some_iff.1 hgiven).1
  · rename_i hdefault
    cases h
    unfold mapDefault? at hdefault
    split at hdefault
    · cases hdefault
    · split at hdefault
      · cases hdefault
      · cases hdefault
  · cases h

theorem Node.mem_values_mapOf {given : Bag} {node : Node} (h : mapOf given = .ok node)
    {n : NodeRef} (hn : .node n ∈ node.properties.values) : .node n ∈ given.values := by
  obtain ⟨values, hvalues, h⟩ := Task.exists_of_bind_eq_ok h
  cases h
  obtain ⟨e, he, heq⟩ := List.mem_map.1 (Bag.mem_values_ofList hn)
  obtain ⟨name, -, hname⟩ :=
    Bag.exists_of_forall₂ (Task.forall₂_of_mapM hvalues) (heq ▸ (List.of_mem_zip he).2)
  exact mem_values_mapProperty hname

/-- What a sequence holds is its rate or one of its steps. -/
theorem Node.mem_values_freshSequence {rate v : Value} {steps : List (Key × Value)} {node : Node}
    (h : freshSequence (.ofList ((.named "rate", rate) :: steps)) = .ok node)
    (hv : v ∈ node.properties.values) : v = rate ∨ ∃ e ∈ steps, e.2 = v := by
  unfold freshSequence at h
  split at h
  · cases h
  · cases h
    rcases List.mem_cons.1 (Bag.mem_values_ofList hv) with hrate | hstep
    · exact .inl hrate
    · exact .inr (List.mem_map.1 hstep)

theorem Node.mem_values_sequenceOf {given : Bag} {node : Node} (h : sequenceOf given = .ok node)
    {n : NodeRef} (hn : .node n ∈ node.properties.values) : .node n ∈ given.values := by
  rcases mem_values_freshSequence h hn with hrate | ⟨e, he, heq⟩
  · cases hgiven : given.getNamed? "rate" with
    | none =>
      rw [hgiven] at hrate
      cases hrate
    | some v =>
      rw [hgiven] at hrate
      exact Bag.mem_values_of_getNamed? (hgiven.trans (congrArg some hrate.symm))
  · exact heq ▸ List.mem_map_of_mem (List.mem_filter.1 he).1

/-- The nodes in the properties of a new node are those that its constructor was given. -/
theorem Maker.mem_values {m : Maker} {node : Node} (h : m.make = .ok node) {n : NodeRef}
    (hn : .node n ∈ node.properties.values) : .node n ∈ m.values := by
  cases m with
  | chain op operands =>
    simp only [make, Node.chain] at h
    split at h
    · cases h
    · cases h
      exact Bag.mem_values_positional hn
  | function f args =>
    simp only [make, Node.function] at h
    split at h
    · cases h
      exact Bag.mem_values_positional hn
    · cases h
  | applying f first second =>
    cases h
    exact List.mem_of_mem_take (Bag.mem_values_positional hn)
  | map input range =>
    cases h
    simpa [Node.mapNames, values] using Bag.mem_values_ofList hn
  | mapOf given => exact Node.mem_values_mapOf h hn
  | sequence steps rate =>
    rcases Node.mem_values_freshSequence h hn with rfl | ⟨e, he, heq⟩
    · exact List.mem_cons_self
    · obtain ⟨⟨v, i⟩, hv, rfl⟩ := List.mem_map.1 he
      exact List.mem_cons_of_mem rate (heq ▸ List.fst_mem_of_mem_zipIdx hv)
  | sequenceOf given => exact Node.mem_values_sequenceOf h hn

/-! ## Overflows -/

/-- Whether a copy nests too deep. -/
def Fault.isOverflow : Fault → Bool
  | overflow .. => true
  | _ => false

namespace Node

variable {n : Node} {id : NodeId} {method : String} {args : List Value} {e : Fault}

theorem isRecoverable_of_callCommon (h : callCommon id n method args = .error e) :
    e.isRecoverable = true := by
  unfold callCommon at h
  split at h
  · unfold callSet at h
    split at h
    · split at h
      · cases h
      · cases h
        rfl
    · cases h
      rfl
  · split at h
    · unfold callGet at h
      split at h
      · cases h
      · cases h
        rfl
    · cases h
      rfl

/-- A method that fails leaves the graph as good as before. -/
theorem isRecoverable_of_call (h : n.call id method args = .error e) : e.isRecoverable = true := by
  unfold call at h
  split at h
  · split at h
    · cases h
    · exact isRecoverable_of_callCommon h
  · split at h
    · cases h
    · exact isRecoverable_of_callCommon h
  · exact isRecoverable_of_callCommon h

/-- No method copies anything. -/
theorem not_isOverflow_of_call (h : n.call id method args = .error e) : e.isOverflow = false := by
  have hrecoverable := isRecoverable_of_call h
  cases e with
  | overflow => cases hrecoverable
  | _ => rfl

end Node

namespace Store

variable {s s' s₀ : Store} {id : NodeId} {e : Fault}

theorem not_isOverflow_of_call {method : String} {args : List Value}
    (h : ((call id method args).exec s).1 = .error e) : e.isOverflow = false := by
  cases hnode : s.get? id with
  | none =>
    rw [call, Task.exec_bind_error (exec_fetch_none hnode)] at h
    cases h
    rfl
  | some node =>
    rw [exec_call hnode] at h
    split at h
    · cases h
    · rename_i hcall
      cases h
      exact Node.not_isOverflow_of_call hcall

/-! ## What holds of nodes in properties -/

/-- The store after another one: no node is gone, and each is of the same kind. -/
def Outlasts (s s' : Store) : Prop :=
  ∀ id node, s.get? id = some node → ∃ node', s'.get? id = some node' ∧ node'.kind = node.kind

theorem outlasts_add (s : Store) (node : Node) : Outlasts s (s.add node).2 :=
  fun _ node' hnode' => ⟨node', (get?_add_of_lt (lt_nextId hnode') node).trans hnode', rfl⟩

theorem outlasts_put {node node' : Node} (hnode : s.get? id = some node)
    (hkind : node'.kind = node.kind) : Outlasts s (s.put id node') := by
  intro other node'' hother
  rw [get?_put hnode]
  split
  · rename_i heq
    rw [heq, hnode] at hother
    cases hother
    exact ⟨node', rfl, hkind⟩
  · exact ⟨node'', hother, rfl⟩

theorem outlasts_call (s : Store) (id : NodeId) (method : String) (args : List Value) :
    Outlasts s ((call id method args).exec s).2 := by
  intro other node hnode
  obtain ⟨node', hnode', hkind, -⟩ := get?_call hnode id method args
  exact ⟨node', hnode', hkind⟩

theorem Alike.outlasts (h : Alike s s') : Outlasts s s' := by
  intro id node hnode
  obtain ⟨node', hnode', hkind, -⟩ := h.get? hnode
  exact ⟨node', hnode', hkind⟩

/-- What is said of a node in a store, and stays true while the store goes on. -/
def Stable (Q : Store → NodeRef → Prop) : Prop :=
  ∀ s s' n, Outlasts s s' → Q s n → Q s' n

/-- It holds of all nodes that stand in properties. -/
def Linked (Q : Store → NodeRef → Prop) (s : Store) : Prop :=
  ∀ id node, s.get? id = some node → ∀ n, .node n ∈ node.properties.values → Q s n

section Linked

variable {Q : Store → NodeRef → Prop}

theorem linked_empty (Q : Store → NodeRef → Prop) : empty.Linked Q := by
  intro id node h
  obtain rfl : id = 0 := Nat.lt_one_iff.1 (lt_nextId h)
  cases h

theorem linked_add (hQ : Stable Q) {m : Maker} {node : Node} (hmake : m.make = .ok node)
    (h : s.Linked Q) (hm : ∀ n, .node n ∈ m.values → Q s n) : (s.add node).2.Linked Q := by
  intro id node' hid n hn
  refine hQ s _ n (outlasts_add s node) ?_
  rw [get?_add] at hid
  split at hid
  · cases hid
    exact hm n (Maker.mem_values hmake hn)
  · exact h id node' hid n hn

theorem linked_build (hQ : Stable Q) {m : Maker} (h : s.Linked Q)
    (hm : ∀ n, .node n ∈ m.values → Q s n) : ((build m.make).exec s).2.Linked Q := by
  cases hmake : m.make with
  | error e =>
    rw [exec_build_error]
    exact h
  | ok node =>
    rw [exec_build_ok]
    exact linked_add hQ hmake h hm

theorem linked_put (hQ : Stable Q) {node node' : Node} (hnode : s.get? id = some node)
    (hkind : node'.kind = node.kind) (h : s.Linked Q)
    (hvalues : ∀ n, .node n ∈ node'.properties.values → Q s n) : (s.put id node').Linked Q := by
  intro other node'' hother n hn
  refine hQ s _ n (outlasts_put hnode hkind) ?_
  rw [get?_put hnode] at hother
  split at hother
  · cases hother
    exact hvalues n hn
  · exact h other node'' hother n hn

theorem linked_call (hQ : Stable Q) {args : List Value} (method : String) (h : s.Linked Q)
    (hargs : ∀ n, .node n ∈ args → Q s n) : ((call id method args).exec s).2.Linked Q := by
  intro other node' hnode' n hn
  refine hQ s _ n (outlasts_call s id method args) ?_
  obtain ⟨node, hnode, -, hproperties⟩ := of_get?_call hnode'
  rw [hproperties] at hn
  split at hn
  · rcases Bag.mem_values_edit hn with hn | hn
    · exact hargs n hn
    · exact h other node hnode n hn
  · exact h other node hnode n hn

/-- It holds in a store with the same properties, too. -/
theorem Linked.of_alike (hQ : Stable Q) (h : s.Linked Q) (halike : Alike s s') : s'.Linked Q := by
  intro id node' hnode' n hn
  obtain ⟨node, hnode, -, hproperties⟩ := halike.symm.get? hnode'
  rw [← hproperties] at hn
  exact hQ s s' n halike.outlasts (h id node hnode n hn)

end Linked

/-! ## Closed stores -/

/-- The node is in the store. -/
def Has (s : Store) (id : NodeId) : Prop := s.get? id ≠ none

instance (s : Store) (id : NodeId) : Decidable (s.Has id) :=
  inferInstanceAs (Decidable (s.get? id ≠ none))

/-- All nodes among the values are in the store. -/
def HasAll (s : Store) (values : List Value) : Prop := ∀ n, .node n ∈ values → s.Has n.id

instance (s : Store) (values : List Value) : Decidable (s.HasAll values) :=
  decidable_of_iff _ Value.forall_node_iff.symm

/-- All nodes in properties are in the store. -/
def Closed (s : Store) : Prop :=
  ∀ id node, s.get? id = some node → s.HasAll node.properties.values

theorem Has.mono (h : s.Has id) (hs : Outlasts s s') : s'.Has id := by
  obtain ⟨node, hnode⟩ := Option.ne_none_iff_exists'.1 h
  obtain ⟨node', hnode', -⟩ := hs id node hnode
  exact Option.ne_none_iff_exists'.2 ⟨node', hnode'⟩

theorem stable_has : Stable fun s n => s.Has n.id := fun _ _ _ hs hn => hn.mono hs

theorem closed_empty : empty.Closed := linked_empty fun s n => s.Has n.id

theorem Alike.put_process {node : Node} (h : Alike s₀ s) (hnode : s.get? id = some node)
    (inputs : List Float) : Alike s₀ (s.put id (node.process inputs).2) :=
  h.trans (alike_put hnode (Prod.ext (node.process_keeps inputs).1 (node.process_keeps inputs).2))

theorem alike_process (id : NodeId) (inputs : List Float) :
    (process id inputs).Keeps (Alike s₀) :=
  keeps_process fun _ _ hs hnode => hs.put_process hnode inputs

theorem alike_compile (limit : Nat) (id : NodeId) (s : Store) :
    Alike s ((compile limit id).exec s).2 :=
  keeps_compile (fun _ _ _ _ hs hnode => hs.trans (alike_put hnode rfl)) limit id s (.refl s)

theorem alike_compileApart (limit : Nat) (id : NodeId) (s : Store) :
    Alike s ((compileApart limit id).exec s).2 :=
  keeps_compileApart (fun _ _ _ _ hs hnode => hs.trans (alike_put hnode rfl)) limit id s (.refl s)

theorem alike_tick (limit : Nat) (id : NodeId) (s : Store) : Alike s ((tick limit id).exec s).2 :=
  keeps_tick (fun _ _ _ inputs hs hnode => hs.put_process hnode inputs) limit id s (.refl s)

/-! ## Copies -/

theorem error_of_encodeEntries {encode : Value → Except Fault Snapshot} {es : List (Key × Value)}
    (h : encodeEntries encode es = .error e) : ∃ v ∈ es.map Prod.snd, encode v = .error e := by
  induction es with
  | nil => cases h
  | cons entry es ih =>
    obtain ⟨key, v⟩ := entry
    rw [encodeEntries] at h
    rw [List.map_cons]
    cases hv : encode v with
    | error e' =>
      rw [hv] at h
      cases h
      exact ⟨v, List.mem_cons_self, hv⟩
    | ok snapshot =>
      cases hes : encodeEntries encode es with
      | error e' =>
        rw [hv, hes] at h
        cases h
        obtain ⟨w, hw, herror⟩ := ih hes
        exact ⟨w, List.mem_cons_of_mem v hw, herror⟩
      | ok snapshots =>
        rw [hv, hes] at h
        cases h

theorem error_of_encodeWith {copy : NodeId → Except Fault Snapshot} {v : Value}
    (h : encodeWith copy v = .error e) : ∃ n, v = .node n ∧ copy n.id = .error e := by
  cases v with
  | node n =>
    rw [encodeWith] at h
    split at h
    · exact ⟨n, rfl, h⟩
    · cases h
  | scalar | bool | text | unset => cases h

/-- A full copy in a closed store is made, or nests too deep. -/
theorem isOverflow_of_fullCopy (hs : s.Closed) {levels : Nat} {path : List NodeId} {id : NodeId}
    (hid : s.Has id) (h : s.fullCopy levels path id = .error e) : e.isOverflow = true := by
  induction levels generalizing path id with
  | zero =>
    cases h
    rfl
  | succ levels ih =>
    rw [fullCopy] at h
    split at h
    · cases h
      rfl
    · split at h
      · rename_i hnone
        exact absurd hnone hid
      · rename_i node hnode
        cases hentries : encodeEntries (encodeWith (s.fullCopy levels (id :: path)))
            node.properties.entries with
        | error e' =>
          rw [hentries] at h
          cases h
          obtain ⟨v, hv, herror⟩ := error_of_encodeEntries hentries
          obtain ⟨n, rfl, hcopy⟩ := error_of_encodeWith herror
          exact ih (hs id node hnode n hv) hcopy
        | ok properties =>
          rw [hentries] at h
          cases h

variable {maxDepth : Nat} {owner : NodeId} {values : List Value}

theorem isOverflow_of_encodeInside (hs : s.Closed) (hvalues : s.HasAll values) {v : Value}
    (hv : v ∈ values) (h : s.encodeInside maxDepth owner v = .error e) : e.isOverflow = true := by
  obtain ⟨n, rfl, hcopy⟩ := error_of_encodeWith h
  exact isOverflow_of_fullCopy hs (hvalues n hv) hcopy

/-- The arguments of a call can be copied, or nest too deep. -/
theorem isOverflow_of_encodeArgs (hs : s.Closed) (hvalues : s.HasAll values)
    (h : s.encodeArgs maxDepth owner values = .error e) : e.isOverflow = true := by
  obtain ⟨v, hv, herror⟩ := Task.error_of_mapM h
  exact isOverflow_of_encodeInside hs hvalues hv herror

/-- The properties of a node can be copied, or nest too deep. -/
theorem isOverflow_of_encodeProperties (hs : s.Closed) {announcement? : NodeId → Option Create}
    {properties : Bag} (hvalues : s.HasAll properties.values)
    (h : s.encodeProperties maxDepth announcement? owner properties = .error e) :
    e.isOverflow = true := by
  obtain ⟨v, hv, herror⟩ := error_of_encodeEntries h
  split at herror
  · cases herror
  · exact isOverflow_of_encodeInside hs hvalues hv herror

end Store

end Patchbay
