import Patchbay.Proofs.Closed

/-!
# How a store came about

Numbers are given out by constructors alone, one after the other, and a node has its number for all
its life. What becomes of it there are operations on the node itself. So whatever a constructor
gives a node, and no operation takes away, all nodes of a store have.

* `Store.Knows`: the value names a node of the store as it is;
* `Node.Operation`, `Node.Lasting`: what is done to a node, and what is never undone;
* `Store.History`: how a store came about, with the nodes constructed on the way in their order;
* `Store.History.numbers`: their numbers are 1, 2, 3 and so on, so that no failure took one;
* `Store.History.mem_iff`: they are the nodes that values name;
* `Store.History.each`: what lasts is true of all nodes;
* `Store.Sound`: all nodes have come about as nodes do, and those in properties are there;
* `Store.Proper`: the store came about from nothing, and whatever was passed on was in it. All
  operations keep that, and the store is sound (`Store.Proper.sound`).
-/

namespace Patchbay

/-! ## What nodes values name -/

namespace Store

variable {s s' : Store} {values : List Value} {n : NodeRef}

/-- The value names a node of the store: one of its number, that is a sequence exactly if the value
says so. -/
def Knows (s : Store) (n : NodeRef) : Prop :=
  ∃ node, s.get? n.id = some node ∧ node.isSequence = n.isSequence

/-- All nodes among the values are in the store, and are sequences exactly if they say so. -/
def Denotes (s : Store) (values : List Value) : Prop :=
  ∀ n, .node n ∈ values → (s.get? n.id).map Node.isSequence = some n.isSequence

instance (s : Store) (values : List Value) : Decidable (s.Denotes values) :=
  decidable_of_iff _ Value.forall_node_iff.symm

theorem denotes_iff : s.Denotes values ↔ ∀ n, .node n ∈ values → s.Knows n := by
  simp only [Denotes, Knows, Option.map_eq_some_iff]

theorem Denotes.of_mem (h : s.Denotes values) {v : Value} (hv : v ∈ values) : s.Denotes [v] :=
  fun n hn => h n (List.mem_singleton.1 hn ▸ hv)

theorem Knows.lt_nextId (h : s.Knows n) : n.id < s.nextId :=
  let ⟨_, hnode, _⟩ := h
  Store.lt_nextId hnode

theorem Knows.mono (h : s.Knows n) (hs : Outlasts s s') : s'.Knows n := by
  obtain ⟨node, hnode, hsequence⟩ := h
  obtain ⟨node', hnode', hkind⟩ := hs n.id node hnode
  refine ⟨node', hnode', ?_⟩
  rw [Node.isSequence_eq, hkind, ← Node.isSequence_eq, hsequence]

theorem stable_knows : Stable Knows := fun _ _ _ hs hn => hn.mono hs

theorem Denotes.mono (h : s.Denotes values) (hs : Outlasts s s') : s'.Denotes values :=
  denotes_iff.2 fun n hn => (denotes_iff.1 h n hn).mono hs

end Store

/-! ## What lasts -/

namespace Node

/-- What an operation on the node makes of it. -/
inductive Operation (n : Node) : Node → Prop
  | called {n' : Node} {id : NodeId} {method : String} {args : List Value} {answer : Value}
    (h : n.call id method args = .ok (answer, n')) : Operation n n'
  | processed (inputs : List Float) : Operation n (n.process inputs).2
  | written (text : String) : Operation n (n.withExpression text)

theorem Operation.kind_eq {n n' : Node} (h : n.Operation n') : n'.kind = n.kind := by
  cases h with
  | called h => exact (edit_of_call h).1
  | processed inputs => exact (n.process_keeps inputs).1
  | written text => rfl

/-- Constructors give it to every node, and no operation takes it away. -/
structure Lasting (P : Node → Prop) : Prop where
  made : ∀ (m : Maker) (n : Node), m.make = .ok n → P n
  kept : ∀ n n' : Node, P n → n.Operation n' → P n'

theorem lasting_genuine : Lasting Genuine where
  made _ _ h := .made h
  kept n n' hn h := by
    cases h with
    | called h => exact .called hn h
    | processed inputs => exact .processed hn inputs
    | written text => exact .written hn text

end Node

/-! ## Histories -/

namespace Store

/-- How the second store came of the first one, with the nodes that were constructed on the way, in
the order in which they were. Besides, operations made of nodes what they are. -/
inductive History (s₀ : Store) : List NodeRef → Store → Prop
  | start : History s₀ [] s₀
  | built {refs : List NodeRef} {s : Store} {m : Maker} {node : Node} (h : History s₀ refs s)
    (hmake : m.make = .ok node) : History s₀ (refs ++ [(s.add node).1]) (s.add node).2
  | replaced {refs : List NodeRef} {s : Store} {id : NodeId} {node node' : Node}
    (h : History s₀ refs s) (hnode : s.get? id = some node) (hoperation : node.Operation node') :
    History s₀ refs (s.put id node')

variable {s s₀ : Store} {n : NodeRef} {refs : List NodeRef}

theorem nextId_add (s : Store) (node : Node) : (s.add node).2.nextId = s.nextId + 1 :=
  Array.size_push _

theorem knows_add (s : Store) (node : Node) : (s.add node).2.Knows (s.add node).1 :=
  ⟨node, get?_add_self s node, rfl⟩

/-- The nodes constructed from the beginning on have the numbers from 1 on, and no other number was
taken. -/
theorem History.numbers (h : History .empty refs s) :
    refs.map NodeRef.id = List.range' 1 refs.length ∧ s.nextId = refs.length + 1 := by
  induction h with
  | start => exact ⟨rfl, rfl⟩
  | @built refs s m node _ _ ih =>
    obtain ⟨hids, hnext⟩ := ih
    refine ⟨?_, ?_⟩
    · rw [List.map_append, List.length_append, List.length_singleton, List.range'_1_concat, hids,
        Nat.add_comm 1, ← hnext]
      rfl
    · rw [nextId_add, hnext, List.length_append, List.length_singleton]
  | replaced _ _ _ ih =>
    rw [nextId_put]
    exact ih

/-- They are the nodes of the store. -/
theorem History.mem_iff (h : History .empty refs s) : n ∈ refs ↔ s.Knows n := by
  induction h with
  | start =>
    refine iff_of_false List.not_mem_nil fun ⟨node, hnode, _⟩ => ?_
    have hid : n.id = 0 := Nat.lt_one_iff.1 (Store.lt_nextId hnode)
    rw [hid] at hnode
    cases hnode
  | @built refs s m node _ _ ih =>
    rw [List.mem_append, List.mem_singleton, ih]
    constructor
    · rintro (hold | rfl)
      · exact hold.mono (outlasts_add s node)
      · exact knows_add s node
    · rintro ⟨node', hnode', hsequence⟩
      rw [get?_add] at hnode'
      split at hnode'
      · rename_i hid
        cases hnode'
        obtain ⟨id, isSequence⟩ := n
        cases hid
        cases hsequence
        exact .inr rfl
      · exact .inl ⟨node', hnode', hsequence⟩
  | @replaced refs s id node node' _ hnode hoperation ih =>
    have hkind := hoperation.kind_eq
    rw [ih]
    refine ⟨fun hknows => hknows.mono (outlasts_put hnode hkind), ?_⟩
    rintro ⟨node'', hnode'', hsequence⟩
    rw [get?_put hnode] at hnode''
    split at hnode''
    · rename_i hid
      cases hnode''
      refine ⟨node, hid ▸ hnode, ?_⟩
      rw [Node.isSequence_eq, ← hkind, ← Node.isSequence_eq, hsequence]
    · exact ⟨node'', hnode'', hsequence⟩

/-- What lasts is true of all nodes of a store that came about. -/
theorem History.each {P : Node → Prop} (hP : Node.Lasting P) (h : History .empty refs s) :
    ∀ id node, s.get? id = some node → P node := by
  induction h with
  | start =>
    intro id node hnode
    obtain rfl : id = 0 := Nat.lt_one_iff.1 (Store.lt_nextId hnode)
    cases hnode
  | @built refs s m node _ hmake ih =>
    intro id node' hnode'
    rw [get?_add] at hnode'
    split at hnode'
    · cases hnode'
      exact hP.made m node hmake
    · exact ih id node' hnode'
  | @replaced refs s id node node' _ hnode hoperation ih =>
    intro other node'' hnode''
    rw [get?_put hnode] at hnode''
    split at hnode''
    · cases hnode''
      exact hP.kept node node' (ih id node hnode) hoperation
    · exact ih other node'' hnode''

/-- Each node has come about as nodes do, and all nodes in properties are there, and are sequences
exactly if they say so. -/
structure Sound (s : Store) : Prop where
  genuine : s.Genuine
  linked : s.Linked Knows

/-! ## Stores that came about from nothing -/

/-- The store came about from nothing, and constructors and methods were given nodes of it alone. -/
structure Proper (s : Store) : Prop where
  history : ∃ refs, History .empty refs s
  linked : s.Linked Knows

theorem proper_empty : empty.Proper := ⟨⟨[], .start⟩, linked_empty _⟩

theorem Proper.each {P : Node → Prop} (hP : Node.Lasting P) (h : s.Proper) :
    ∀ id node, s.get? id = some node → P node := by
  obtain ⟨refs, hrefs⟩ := h.history
  exact hrefs.each hP

theorem Proper.sound (h : s.Proper) : s.Sound := ⟨h.each Node.lasting_genuine, h.linked⟩

theorem Proper.denotes (h : s.Proper) {id : NodeId} {node : Node} (hnode : s.get? id = some node) :
    s.Denotes node.properties.values := denotes_iff.2 (h.linked id node hnode)

theorem Proper.add (h : s.Proper) {m : Maker} {node : Node} (hmake : m.make = .ok node)
    (hm : s.Denotes m.values) : (s.add node).2.Proper := by
  obtain ⟨refs, hrefs⟩ := h.history
  exact ⟨⟨_, hrefs.built hmake⟩, linked_add stable_knows hmake h.linked (denotes_iff.1 hm)⟩

theorem Proper.put (h : s.Proper) {id : NodeId} {node node' : Node}
    (hnode : s.get? id = some node) (hoperation : node.Operation node')
    (hvalues : s.Denotes node'.properties.values) : (s.put id node').Proper := by
  obtain ⟨refs, hrefs⟩ := h.history
  exact ⟨⟨refs, hrefs.replaced hnode hoperation⟩,
    linked_put stable_knows hnode hoperation.kind_eq h.linked (denotes_iff.1 hvalues)⟩

theorem Proper.build (h : s.Proper) {m : Maker} (hm : s.Denotes m.values) :
    ((build m.make).exec s).2.Proper := by
  cases hmake : m.make with
  | error e =>
    rw [exec_build_error]
    exact h
  | ok node =>
    rw [exec_build_ok]
    exact h.add hmake hm

theorem Proper.call (h : s.Proper) (id : NodeId) (method : String) {args : List Value}
    (hargs : s.Denotes args) : ((call id method args).exec s).2.Proper := by
  have hkeeps : (Store.call id method args).Keeps fun s => s.Proper ∧ s.Denotes args := by
    refine keeps_call fun s node answer node' ⟨h, hargs⟩ hnode hcall => ?_
    obtain ⟨hkind, hproperties⟩ := Node.edit_of_call hcall
    refine ⟨h.put hnode (.called hcall) fun n hn => ?_, hargs.mono (outlasts_put hnode hkind)⟩
    rw [hproperties] at hn
    exact (Bag.mem_values_edit hn).elim (hargs n) (h.denotes hnode n)
  exact (hkeeps s ⟨h, hargs⟩).1

theorem Proper.written (h : s.Proper) {id : NodeId} {node : Node} (hnode : s.get? id = some node)
    (text : String) : (s.put id (node.withExpression text)).Proper := by
  have hvalues := h.denotes hnode
  exact h.put hnode (.written text) hvalues

theorem proper_compile (limit : Nat) (id : NodeId) : (compile limit id).Keeps Proper :=
  keeps_compile (fun _ _ _ text h hnode => h.written hnode text) limit id

theorem proper_compileApart (limit : Nat) (id : NodeId) : (compileApart limit id).Keeps Proper :=
  keeps_compileApart (fun _ _ _ text h hnode => h.written hnode text) limit id

theorem proper_tick (limit : Nat) (id : NodeId) : (tick limit id).Keeps Proper :=
  keeps_tick (fun _ _ node inputs h hnode => h.put hnode (.processed inputs)
    ((node.process_keeps inputs).2 ▸ h.denotes hnode)) limit id

end Store

end Patchbay
