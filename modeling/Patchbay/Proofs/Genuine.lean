import Patchbay.Graph.Sample
import Patchbay.Proofs.Edit

/-!
# The nodes a program can have

A node comes from a constructor, and only a few operations change it (`Node.Genuine`). None of them
takes a property away, so that every such node has the properties that its kind computes with
(`Node.Genuine.leastSize_le`). Writing expressions and computing samples do to the store what is
done to one node after another, so that they keep whatever that keeps (`Store.keeps_compile`,
`Store.keeps_tick`).
-/

namespace Patchbay

/-- The number of properties that each node of the kind has at least. -/
def Kind.leastSize : Kind → Nat
  | chain _ => 1
  | function f => f.arity
  | map => 7
  | sequence => 2

theorem Kind.one_le_leastSize (k : Kind) : 1 ≤ k.leastSize := by
  cases k with
  | chain op => exact Nat.le_refl 1
  | function f => cases f <;> decide
  | map => decide
  | sequence => decide

theorem Kind.Makes.leastSize_le {k : Kind} {b : Bag} (h : k.Makes b) : k.leastSize ≤ b.size := by
  cases k with
  | chain op => exact Nat.pos_of_ne_zero h.2
  | function f => exact Nat.le_of_eq h.2.symm
  | map =>
    have hlength := congrArg List.length h.1
    rw [Bag.keys_length] at hlength
    exact Nat.le_of_eq hlength.symm
  | sequence => exact h.1

/-- A constructor makes as many properties as its kind needs, also for a map of nothing. -/
theorem Maker.leastSize_le {m : Maker} {node : Node} (h : m.make = .ok node) :
    node.kind.leastSize ≤ node.properties.size := by
  obtain ⟨b, hmakes, hkeys⟩ := exists_makes h
  rw [← Bag.keys_length, ← hkeys, Bag.keys_length]
  exact hmakes.leastSize_le

theorem Bag.size_le_set (b : Bag) (key : Key) (value : Value) :
    b.size ≤ (b.set key value).size := by
  rw [← Bag.keys_length, ← Bag.keys_length, Bag.keys_set]
  split
  · exact Nat.le_refl _
  · rw [List.length_append]
    exact Nat.le_add_right _ _

theorem Bag.size_le_edit (b : Bag) (method : String) (args : List Value) :
    b.size ≤ (b.edit method args).size := by
  unfold Bag.edit
  split
  · split
    · split
      · exact b.size_le_set _ _
      · exact Nat.le_refl _
    · exact Nat.le_refl _
  · exact Nat.le_refl _

namespace Node

/-- The nodes that constructors make, and what the operations on nodes make of them. -/
inductive Genuine : Node → Prop
  | made {m : Maker} {n : Node} (h : m.make = .ok n) : Genuine n
  | called {n n' : Node} {id : NodeId} {method : String} {args : List Value} {answer : Value}
    (hn : Genuine n) (h : n.call id method args = .ok (answer, n')) : Genuine n'
  | changed {n : Node} (hn : Genuine n) (key : Key) (value : Value) :
    Genuine (n.setProperty key value)
  | processed {n : Node} (hn : Genuine n) (inputs : List Float) : Genuine (n.process inputs).2
  | written {n : Node} (hn : Genuine n) (text : String) : Genuine (n.withExpression text)

/-- A sample keeps the kind and the properties. -/
theorem process_keeps (n : Node) (inputs : List Float) :
    (n.process inputs).2.kind = n.kind ∧ (n.process inputs).2.properties = n.properties := by
  obtain ⟨body, properties, expression⟩ := n
  cases body <;> exact ⟨rfl, rfl⟩

theorem Genuine.leastSize_le {n : Node} (h : n.Genuine) : n.kind.leastSize ≤ n.properties.size := by
  induction h with
  | made h => exact Maker.leastSize_le h
  | called _ h ih =>
    obtain ⟨hkind, hproperties⟩ := edit_of_call h
    rw [hkind, hproperties]
    exact Nat.le_trans ih (Bag.size_le_edit ..)
  | changed _ key value ih => exact Nat.le_trans ih (Bag.size_le_set ..)
  | @processed n _ inputs ih =>
    rw [(n.process_keeps inputs).1, (n.process_keeps inputs).2]
    exact ih
  | written _ _ ih => exact ih

theorem genuine_chain {op : Arith} {operands : List Value} (h : operands ≠ []) :
    (fresh (.chain op) (.positional operands)).Genuine := by
  refine .made (m := .chain op operands) ?_
  rw [Maker.make, chain, if_neg]
  · rfl
  · rw [List.isEmpty_iff]
    exact h

theorem genuine_function {f : Function} {args : List Value} (h : args.length = f.arity) :
    (fresh (.function f) (.positional args)).Genuine := by
  refine .made (m := .function f args) ?_
  rw [Maker.make, function, if_pos h]
  rfl

end Node

namespace Store

/-- Every node is genuine. -/
def Genuine (s : Store) : Prop := ∀ id node, s.get? id = some node → node.Genuine

theorem genuine_empty : empty.Genuine := by
  intro id node h
  have hid := lt_nextId h
  obtain rfl : id = 0 := Nat.lt_one_iff.1 hid
  cases h

variable {s : Store}

theorem Genuine.add (hs : s.Genuine) {node : Node} (hnode : node.Genuine) :
    (s.add node).2.Genuine := by
  intro id node' h
  rw [get?_add] at h
  split at h
  · cases h
    exact hnode
  · exact hs id node' h

/-! ## Operations on one node -/

variable {P : Store → Prop}

theorem keeps_build {m : Maker} (h : ∀ s node, P s → m.make = .ok node → P (s.add node).2) :
    (build m.make).Keeps P := by
  intro s hs
  cases hmake : m.make with
  | error e =>
    rw [exec_build_error]
    exact hs
  | ok node =>
    rw [exec_build_ok]
    exact h s node hs hmake

theorem keeps_fetch (P : Store → Prop) (id : NodeId) : (fetch id).Keeps P := by
  intro s hs
  cases h : s.get? id with
  | none =>
    rw [exec_fetch_none h]
    exact hs
  | some node =>
    rw [exec_fetch h]
    exact hs

/-- What is done with a node is done in a store that has it. -/
theorem keeps_fetch_bind {α : Type} {id : NodeId} {f : Node → Task Store α}
    (h : ∀ s node, P s → s.get? id = some node → P ((f node).exec s).2) :
    (fetch id >>= f).Keeps P := by
  intro s hs
  cases hnode : s.get? id with
  | none =>
    rw [Task.exec_bind_error (exec_fetch_none hnode)]
    exact hs
  | some node =>
    rw [Task.exec_bind_ok (exec_fetch hnode)]
    exact h s node hs hnode

theorem keeps_call {id : NodeId} {method : String} {args : List Value}
    (h : ∀ s node answer node', P s → s.get? id = some node →
      node.call id method args = .ok (answer, node') → P (s.put id node')) :
    (call id method args).Keeps P := by
  refine keeps_fetch_bind fun s node hs hnode => ?_
  cases hcall : node.call id method args with
  | error e => exact hs
  | ok answer => exact h s node answer.1 answer.2 hs hnode hcall

theorem keeps_process {id : NodeId} {inputs : List Float}
    (h : ∀ s node, P s → s.get? id = some node → P (s.put id (node.process inputs).2)) :
    (process id inputs).Keeps P := keeps_fetch_bind h

theorem keeps_keepText {id : NodeId} {text : String}
    (h : ∀ s node, P s → s.get? id = some node → P (s.put id (node.withExpression text))) :
    (keepText id text).Keeps P := keeps_fetch_bind h

/-! ## Expressions and samples -/

theorem keeps_propertyTexts {write : Key → Value → Task Store String}
    (h : ∀ key value, (write key value).Keeps P) (entries : List (Key × Value)) :
    (propertyTexts write entries).Keeps P := by
  induction entries with
  | nil => exact Task.keeps_pure _
  | cons e es ih => exact (h e.1 e.2).bind fun _ => ih.bind fun _ => Task.keeps_pure _

theorem keeps_bodyText {child : NodeId → Task Store String}
    (h : ∀ id, (child id).Keeps P) (id : NodeId) (node : Node) :
    (bodyText child id node).Keeps P := by
  have hoperand (key : Key) (value : Value) : (operandText child id key value).Keeps P := by
    cases value with
    | scalar x => exact Task.keeps_ofExcept _
    | node n => exact h n.id
    | bool | text | unset => exact Task.keeps_throw _
  have hargument (key : Key) (value : Value) : (argumentText child id key value).Keeps P := by
    cases value with
    | scalar x => exact Task.keeps_ofExcept _
    | bool b => exact Task.keeps_pure _
    | node n => exact h n.id
    | text | unset => exact Task.keeps_throw _
  unfold bodyText
  split
  · split
    · exact Task.keeps_throw _
    · exact (keeps_propertyTexts hoperand _).bind fun _ => Task.keeps_pure _
  · exact (keeps_propertyTexts hargument _).bind fun _ => Task.keeps_pure _

section Write

variable (h : ∀ s id node text, P s → s.get? id = some node →
  P (s.put id (node.withExpression text)))

include h

/-- Writing expressions keeps what keeping a text does, whether it succeeds or fails. -/
theorem keeps_write (limit levels : Nat) (path : List NodeId) (id : NodeId) :
    (write limit levels path id).Keeps P := by
  induction levels generalizing path id with
  | zero =>
    unfold write
    split
    · exact Task.keeps_throw _
    · exact Task.keeps_throw _
  | succ levels ih =>
    unfold write
    split
    · exact Task.keeps_throw _
    · have hkeep (text : String) : (keepText id text).Keeps P :=
        keeps_keepText fun s node => h s id node text
      exact (keeps_fetch _ _).bind fun node => (keeps_bodyText (ih (id :: path)) id node).bind
        fun text => (hkeep text).bind fun _ => Task.keeps_pure _

theorem keeps_compile (limit : Nat) (id : NodeId) : (compile limit id).Keeps P :=
  keeps_write h limit limit [] id

theorem keeps_compileApart (limit : Nat) (id : NodeId) : (compileApart limit id).Keeps P :=
  (keeps_fetch _ id).bind fun node =>
    keeps_bodyText (fun other => keeps_write h limit _ [id] other) id node

end Write

/-- What is kept of the store is kept of a pass. -/
theorem keeps_onStore {α : Type} {t : Task Store α} (h : t.Keeps P) :
    (onStore t).Keeps fun pass => P pass.store :=
  fun pass hpass => h pass.store hpass

theorem keeps_propertyInputs {P : Pass → Prop} {eval : Key → Value → Task Pass Float}
    (h : ∀ key value, (eval key value).Keeps P) (entries : List (Key × Value)) :
    (propertyInputs eval entries).Keeps P := by
  induction entries with
  | nil => exact Task.keeps_pure _
  | cons e es ih => exact (h e.1 e.2).bind fun _ => ih.bind fun _ => Task.keeps_pure _

section Sample

variable (h : ∀ s id node inputs, P s → s.get? id = some node →
  P (s.put id (node.process inputs).2))

include h

/-- A sample keeps what processing a node does, whether it succeeds or fails. -/
theorem keeps_sample (limit levels : Nat) (path : List NodeId) (id : NodeId) :
    (sample limit levels path id).Keeps fun pass => P pass.store := by
  induction levels generalizing path id with
  | zero =>
    intro pass hpass
    unfold sample
    rw [Task.exec_get_bind]
    split
    · exact hpass
    · split
      · exact hpass
      · exact hpass
  | succ levels ih =>
    intro pass hpass
    unfold sample
    rw [Task.exec_get_bind]
    split
    · exact hpass
    · split
      · exact hpass
      · have hinput (key : Key) (value : Value) :
            (propertyInput (sample limit levels (id :: path)) id key value).Keeps
              fun pass => P pass.store := by
          cases value with
          | node n => exact ih (id :: path) n.id
          | scalar | bool => exact Task.keeps_pure _
          | text | unset => exact Task.keeps_throw _
        have hprocess (inputs : List Float) :
            (processOnce id inputs).Keeps fun pass => P pass.store :=
          (keeps_onStore (keeps_process fun s node => h s id node inputs)).bind
            fun _ _ hmid => hmid
        exact ((keeps_onStore (keeps_fetch _ id)).bind fun node =>
          (keeps_propertyInputs hinput node.properties.entries).bind hprocess) pass hpass

theorem keeps_tick (limit : Nat) (id : NodeId) : (tick limit id).Keeps P :=
  fun s hs => keeps_sample h limit limit [] id ⟨s, []⟩ hs

end Sample

end Store

end Patchbay
