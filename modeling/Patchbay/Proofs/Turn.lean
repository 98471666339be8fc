import Mathlib.Logic.Relation
import Patchbay.Proofs.Meaning

/-!
# One sample as one step of the graph

A sample walks down from the root and processes nodes on its way back. What it did is the list of
its turns (`Turn`), each of which is one node processed once. However the walk goes, and wherever
it fails, the turns are in order (`Store.InOrder`): a node has one turn, it has it in the state
that it had before the sample, and it has it after the nodes that it holds.

* `Store.plays_sample`: the walk takes turns in order, and has an output exactly if the node it
  started at got its turn;
* `Store.InOrder.acyclic`: no node that had a turn holds itself, directly or through others;
* `Store.tick_of_turns`: so a sample is one synchronous step of all nodes below the root, and of
  some of them if it fails.
-/

namespace Patchbay

/-- A node processed once. -/
structure Turn where
  id : NodeId
  /-- the node before its turn -/
  node : Node
  /-- the values that its properties had -/
  inputs : List Float

/-- What the node puts out in its turn. -/
def Turn.output (t : Turn) : Float := (t.node.process t.inputs).1

/-- The node after its turn. -/
def Turn.after (t : Turn) : Node := (t.node.process t.inputs).2

/-- The outputs of turns, of which the last comes first. -/
def Turn.outputs (turns : List Turn) : List (NodeId × Float) :=
  turns.map fun t => (t.id, t.output)

/-- The output of a node that had a turn. -/
def Turn.outputOf (turns : List Turn) (id : NodeId) : Option Float :=
  (Turn.outputs turns).lookup id

/-- A property value as an input, where `output` gives the outputs of nodes. -/
def Value.input? (value : Value) (output : NodeId → Option Float) : Option Float :=
  match value with
  | node n => output n.id
  | value => value.number?

/-- The inputs of a node, in the order of its properties. -/
def Node.inputs? (n : Node) (output : NodeId → Option Float) : Option (List Float) :=
  n.properties.values.mapM (·.input? output)

namespace Store

open Turn (outputOf outputs)

variable {s : Store} {turns turns' : List Turn} {t : Turn} {id : NodeId}

/-- The pass in which the nodes are processed that have the turns, the last of which comes first. -/
def played (s : Store) : List Turn → Pass
  | [] => ⟨s, []⟩
  | t :: earlier => ((processOnce t.id t.inputs).exec (played s earlier)).2

/-- Turns of different nodes of the store, each with the outputs of the turns before it. -/
inductive InOrder (s : Store) : List Turn → Prop
  | nil : InOrder s []
  | cons {t : Turn} {earlier : List Turn} (h : InOrder s earlier)
    (hnew : t.id ∉ earlier.map Turn.id) (hnode : s.get? t.id = some t.node)
    (hinputs : t.node.inputs? (outputOf earlier) = some t.inputs) : InOrder s (t :: earlier)

/-! ## Outputs -/

theorem outputOf_cons_self (t : Turn) (turns : List Turn) :
    outputOf (t :: turns) t.id = some t.output := List.lookup_cons_self

theorem outputOf_cons_of_ne (h : id ≠ t.id) : outputOf (t :: turns) id = outputOf turns id := by
  rw [outputOf, outputs, List.map_cons, List.lookup_cons, beq_false_of_ne h]
  rfl

theorem outputOf_eq_none_iff : outputOf turns id = none ↔ id ∉ turns.map Turn.id := by
  induction turns with
  | nil => exact iff_of_true rfl List.not_mem_nil
  | cons t turns ih =>
    rw [List.map_cons, List.mem_cons, not_or]
    by_cases hid : id = t.id
    · subst hid
      rw [outputOf_cons_self]
      exact iff_of_false nofun fun h => h.1 rfl
    · rw [outputOf_cons_of_ne hid, ih]
      exact (and_iff_right hid).symm

theorem mem_of_outputOf {x : Float} (h : outputOf turns id = some x) : id ∈ turns.map Turn.id := by
  by_contra hnot
  exact Option.some_ne_none x (h.symm.trans (outputOf_eq_none_iff.2 hnot))

/-- All outputs that there are stay as they are. -/
def Kept (turns turns' : List Turn) : Prop :=
  ∀ id x, outputOf turns id = some x → outputOf turns' id = some x

theorem kept_cons (hnew : t.id ∉ turns.map Turn.id) : Kept turns (t :: turns) := by
  intro id x h
  rw [outputOf_cons_of_ne, h]
  rintro rfl
  rw [outputOf_eq_none_iff.2 hnew] at h
  cases h

theorem Kept.mem (h : Kept turns turns') (hid : id ∈ turns.map Turn.id) :
    id ∈ turns'.map Turn.id := by
  obtain ⟨x, hx⟩ := Option.ne_none_iff_exists'.1 (mt outputOf_eq_none_iff.1 (not_not.2 hid))
  exact mem_of_outputOf (h id x hx)

theorem Kept.input? (h : Kept turns turns') {value : Value} {x : Float}
    (hx : value.input? (outputOf turns) = some x) : value.input? (outputOf turns') = some x := by
  cases value with
  | node n => exact h n.id x hx
  | scalar | bool | text | unset => exact hx

theorem Kept.inputs? (h : Kept turns turns') {node : Node} {inputs : List Float}
    (hinputs : node.inputs? (outputOf turns) = some inputs) :
    node.inputs? (outputOf turns') = some inputs :=
  Task.mapM_eq_some_iff.2 ((Task.mapM_eq_some_iff.1 hinputs).imp fun _ _ => h.input?)

/-- A node that has all its inputs holds nodes with outputs only. -/
theorem mem_of_inputs? {node : Node} {inputs : List Float}
    (h : node.inputs? (outputOf turns) = some inputs) {n : NodeRef}
    (hn : .node n ∈ node.properties.values) : n.id ∈ turns.map Turn.id := by
  have hinputs := Task.mapM_eq_some_iff.1 h
  obtain ⟨x, -, hx⟩ := Bag.exists_of_forall₂ (List.Forall₂.flip hinputs) hn
  exact mem_of_outputOf hx

/-! ## Turns in order -/

namespace InOrder

theorem nodup (h : InOrder s turns) : (turns.map Turn.id).Nodup := by
  induction h with
  | nil => exact List.nodup_nil
  | cons _ hnew _ _ ih => exact List.nodup_cons.2 ⟨hnew, ih⟩

theorem node (h : InOrder s turns) (ht : t ∈ turns) : s.get? t.id = some t.node := by
  induction h with
  | nil => exact absurd ht List.not_mem_nil
  | cons _ _ hnode _ ih =>
    rcases List.mem_cons.1 ht with rfl | ht
    · exact hnode
    · exact ih ht

/-- The outputs that a turn was given are those that the nodes have in the end. -/
theorem inputs (h : InOrder s turns) (ht : t ∈ turns) :
    t.node.inputs? (outputOf turns) = some t.inputs := by
  induction h with
  | nil => exact absurd ht List.not_mem_nil
  | cons _ hnew _ hinputs ih =>
    rcases List.mem_cons.1 ht with rfl | ht
    · exact (kept_cons hnew).inputs? hinputs
    · exact (kept_cons hnew).inputs? (ih ht)

theorem outputOf_of_mem (h : InOrder s turns) (ht : t ∈ turns) :
    outputOf turns t.id = some t.output := by
  induction h with
  | nil => exact absurd ht List.not_mem_nil
  | cons _ hnew _ _ ih =>
    rcases List.mem_cons.1 ht with rfl | ht
    · exact outputOf_cons_self ..
    · exact kept_cons hnew _ _ (ih ht)

/-- A node without a turn is as it was; the others are as their turns left them. -/
theorem store_played (h : InOrder s turns) :
    (∀ id ∉ turns.map Turn.id, (played s turns).store.get? id = s.get? id) ∧
      (∀ t ∈ turns, (played s turns).store.get? t.id = some t.after) ∧
      (played s turns).outputs = outputs turns := by
  induction h with
  | nil => exact ⟨fun _ _ => rfl, fun _ ht => absurd ht List.not_mem_nil, rfl⟩
  | @cons t earlier _ hnew hnode _ ih =>
    obtain ⟨hothers, hturns, houtputs⟩ := ih
    have hstored : (played s earlier).store.get? t.id = some t.node :=
      (hothers t.id hnew).trans hnode
    have hplayed : played s (t :: earlier) =
        ⟨(played s earlier).store.put t.id t.after, outputs (t :: earlier)⟩ := by
      rw [played, processOnce, Task.exec_bind_ok (by
        rw [onStore, Task.exec_onPart, exec_process hstored]), outputs, List.map_cons,
        ← outputs, ← houtputs]
      rfl
    rw [hplayed]
    refine ⟨fun id hid => ?_, fun u hu => ?_, rfl⟩
    · rw [List.map_cons, List.mem_cons, not_or] at hid
      rw [get?_put_of_ne (Ne.symm hid.1), hothers id hid.2]
    · rcases List.mem_cons.1 hu with rfl | hu
      · exact get?_put_self (lt_nextId hstored) _
      · have hne : t.id ≠ u.id := fun heq => hnew (heq ▸ List.mem_map_of_mem hu)
        rw [get?_put_of_ne hne, hturns u hu]

end InOrder

/-- The node `id` has the node `child` in a property. -/
def Holds (s : Store) (id child : NodeId) : Prop :=
  ∃ node n, s.get? id = some node ∧ .node n ∈ node.properties.values ∧ n.id = child

/-- What a node with a turn holds had its turn before. -/
theorem InOrder.holds (h : InOrder s turns) {child : NodeId} (hid : id ∈ turns.map Turn.id)
    (hholds : s.Holds id child) : child ∈ turns.map Turn.id := by
  obtain ⟨t, ht, rfl⟩ := List.mem_map.1 hid
  obtain ⟨node, n, hnode, hn, rfl⟩ := hholds
  cases (h.node ht).symm.trans hnode
  exact mem_of_inputs? (h.inputs ht) hn

theorem InOrder.reaches (h : InOrder s turns) {root : NodeId} (hroot : root ∈ turns.map Turn.id)
    (hid : s.Reaches root id) : id ∈ turns.map Turn.id := by
  induction hid with
  | root => exact hroot
  | property _ hnode hn ih => exact h.holds ih ⟨_, _, hnode, hn, rfl⟩

/-- No node that had a turn holds itself, directly or through others. -/
theorem InOrder.acyclic (h : InOrder s turns) (hid : id ∈ turns.map Turn.id) :
    ¬ Relation.TransGen s.Holds id id := by
  induction h with
  | nil => exact absurd hid List.not_mem_nil
  | @cons t earlier h hnew hnode hinputs ih =>
    intro hcycle
    -- What is held below an earlier turn is of earlier turns still.
    have hbelow {a b : NodeId} (ha : a ∈ earlier.map Turn.id)
        (hab : Relation.ReflTransGen s.Holds a b) : b ∈ earlier.map Turn.id := by
      induction hab with
      | refl => exact ha
      | tail _ hlast ih => exact h.holds ih hlast
    rcases List.mem_cons.1 hid with rfl | hid
    · obtain ⟨child, ⟨node, n, hnode', hn, rfl⟩, hrest⟩ := Relation.TransGen.head'_iff.1 hcycle
      cases hnode.symm.trans hnode'
      exact hnew (hbelow (mem_of_inputs? hinputs hn) hrest)
    · exact ih hid hcycle

/-! ## What a task plays -/

/-- The turns have been gone on with, by nodes that `P` allows. -/
structure Further (s : Store) (P : NodeId → Prop) (turns turns' : List Turn) : Prop where
  inOrder : InOrder s turns'
  kept : Kept turns turns'
  allowed : ∀ id ∈ turns'.map Turn.id, id ∈ turns.map Turn.id ∨ P id

variable {P P' : NodeId → Prop} {α : Type}

theorem Further.refl (h : InOrder s turns) : Further s P turns turns :=
  ⟨h, fun _ _ hx => hx, fun _ hid => .inl hid⟩

theorem Further.trans {turns'' : List Turn} (h : Further s P turns turns')
    (h' : Further s P turns' turns'') : Further s P turns turns'' := by
  refine ⟨h'.inOrder, fun id x hx => h'.kept id x (h.kept id x hx), fun id hid => ?_⟩
  rcases h'.allowed id hid with hid | hid
  · exact h.allowed id hid
  · exact .inr hid

theorem Further.imp (h : Further s P turns turns') (himp : ∀ id, P id → P' id) :
    Further s P' turns turns' :=
  ⟨h.inOrder, h.kept, fun id hid => (h.allowed id hid).imp_right (himp id)⟩

/-- The task goes on with turns of nodes that `P` allows, and its value, if it has one, is that of
`f` over the outputs that there are in the end. -/
def Plays (s : Store) (P : NodeId → Prop) (f : (NodeId → Option Float) → Option α)
    (task : Task Pass α) : Prop :=
  ∀ turns, InOrder s turns → ∃ outcome turns', task.exec (played s turns) =
    (outcome, played s turns') ∧ Further s P turns turns' ∧ outcome.toOption = f (outputOf turns')

/-- A task that does nothing but answer. -/
theorem plays_ofExcept {f : (NodeId → Option Float) → Option α} {task : Task Pass α}
    {e : Except Fault α} (h : ∀ pass, task.exec pass = (e, pass))
    (he : ∀ output, f output = e.toOption) : Plays s P f task :=
  fun turns hturns => ⟨e, turns, h _, .refl hturns, (he _).symm⟩

theorem plays_property {child : NodeId → Task Pass Float} (id : NodeId) (key : Key) {value : Value}
    (h : ∀ n, value = .node n → Plays s P (· n.id) (child n.id)) :
    Plays s P value.input? (propertyInput child id key value) := by
  cases value with
  | node n => exact h n rfl
  | scalar | bool | text | unset => exact plays_ofExcept (fun _ => rfl) fun _ => rfl

theorem plays_properties {eval : Key → Value → Task Pass Float} {entries : List (Key × Value)}
    (h : ∀ e ∈ entries, Plays s P e.2.input? (eval e.1 e.2)) :
    Plays s P (fun output => (entries.map Prod.snd).mapM (·.input? output))
      (propertyInputs eval entries) := by
  induction entries with
  | nil => exact plays_ofExcept (fun _ => rfl) fun _ => rfl
  | cons e es ih =>
    intro turns hturns
    obtain ⟨outcome, turns₁, hexec, hfurther, hvalue⟩ := h e List.mem_cons_self turns hturns
    cases outcome with
    | error fault =>
      refine ⟨.error fault, turns₁, ?_, hfurther, ?_⟩
      · rw [propertyInputs, Task.exec_bind_error hexec]
      · show none = ((e :: es).map Prod.snd).mapM (·.input? (outputOf turns₁))
        have hnone : e.2.input? (outputOf turns₁) = none := hvalue.symm
        rw [List.map_cons, List.mapM_cons, hnone]
        rfl
    | ok x =>
      obtain ⟨outcome', turns₂, hexec', hfurther', hvalues⟩ :=
        ih (fun e' he' => h e' (List.mem_cons_of_mem e he')) turns₁ hfurther.inOrder
      have hx := hfurther'.kept.input? hvalue.symm
      refine ⟨outcome'.map (x :: ·), turns₂, ?_, hfurther.trans hfurther', ?_⟩
      · rw [propertyInputs, Task.exec_bind_ok hexec]
        cases outcome' with
        | error fault => exact Task.exec_bind_error hexec'
        | ok xs => exact Task.exec_bind_ok hexec'
      · show _ = ((e :: es).map Prod.snd).mapM (·.input? (outputOf turns₂))
        have hxs : (es.map Prod.snd).mapM (·.input? (outputOf turns₂)) = outcome'.toOption :=
          hvalues.symm
        rw [List.map_cons, List.mapM_cons, hx, hxs]
        cases outcome' with
        | error fault => rfl
        | ok xs => rfl

theorem Reaches.child {node : Node} {n : NodeRef} (hnode : s.get? id = some node)
    (hn : .node n ∈ node.properties.values) {other : NodeId} (h : s.Reaches n.id other) :
    s.Reaches id other := by
  induction h with
  | root => exact .property .root hnode hn
  | property _ hnode' hn' ih => exact .property ih hnode' hn'

/-- The last step of the walk over a node, where all inputs have been found. -/
theorem InOrder.processed (h : InOrder s turns) (hnew : id ∉ turns.map Turn.id) {node : Node}
    (hnode : s.get? id = some node) {inputs : List Float}
    (hinputs : node.inputs? (outputOf turns) = some inputs) :
    InOrder s (⟨id, node, inputs⟩ :: turns) ∧
      (processOnce id inputs).exec (played s turns) =
        (.ok (node.process inputs).1, played s (⟨id, node, inputs⟩ :: turns)) := by
  refine ⟨.cons h hnew hnode hinputs, ?_⟩
  have hstored := (h.store_played.1 id hnew).trans hnode
  rw [played, processOnce, Task.exec_bind_ok (by
    rw [onStore, Task.exec_onPart, exec_process hstored])]
  rfl

section

variable {path : List NodeId} {pass : Pass}

theorem exec_sample_zero (limit : Nat) (path : List NodeId) (h : pass.outputs.lookup id = none) :
    (sample limit 0 path id).exec pass =
      (.error (if id ∈ path then .cyclic id else .evaluation id (.tooDeep limit)), pass) := by
  rw [sample, Task.exec_get_bind, h]
  simp only
  split
  · rfl
  · rfl

theorem exec_sample_cyclic (limit levels : Nat) (hpath : id ∈ path)
    (h : pass.outputs.lookup id = none) :
    (sample limit (levels + 1) path id).exec pass = (.error (.cyclic id), pass) := by
  rw [sample, Task.exec_get_bind, h]
  simp only
  rw [if_pos hpath]
  rfl

theorem exec_sample_missing (limit levels : Nat) (hpath : id ∉ path)
    (h : pass.outputs.lookup id = none) (hnode : pass.store.get? id = none) :
    (sample limit (levels + 1) path id).exec pass = (.error (.unknownReference id), pass) := by
  rw [sample, Task.exec_get_bind, h]
  simp only
  rw [if_neg hpath]
  refine Task.exec_bind_error ?_
  rw [onStore, Task.exec_onPart, exec_fetch_none hnode]

end

theorem InOrder.lookup_played (h : InOrder s turns) :
    (played s turns).outputs.lookup id = outputOf turns id := by
  rw [h.store_played.2.2]
  rfl

/-- What a walk from a node does is to be seen where the node has had no turn; if it has, the walk
answers with its output. -/
theorem plays_of_new (limit levels : Nat) (path : List NodeId)
    (h : ∀ turns, InOrder s turns → outputOf turns id = none → ∃ outcome turns',
      (sample limit levels path id).exec (played s turns) = (outcome, played s turns') ∧
        Further s P turns turns' ∧ outcome.toOption = outputOf turns' id) :
    Plays s P (· id) (sample limit levels path id) := by
  intro turns hturns
  cases houtput : outputOf turns id with
  | none => exact h turns hturns houtput
  | some x =>
    have hnoted := hturns.lookup_played.trans houtput
    exact ⟨.ok x, turns, sample_of_noted limit levels path hnoted, .refl hturns, houtput.symm⟩

/-- The walk through the properties of a node, where the walks from the nodes in them are known. -/
theorem plays_children {limit levels : Nat} {path : List NodeId} {node : Node}
    (hnode : s.get? id = some node)
    (h : ∀ child, Plays s (fun other => other ∉ id :: path ∧ s.Reaches child other) (· child)
      (sample limit levels (id :: path) child)) :
    Plays s (fun other => other ∉ id :: path ∧ s.Reaches id other) node.inputs?
      (propertyInputs (propertyInput (sample limit levels (id :: path)) id)
        node.properties.entries) := by
  refine plays_properties fun e he => plays_property id e.1 fun n hn turns hturns => ?_
  obtain ⟨outcome, turns', hexec, hfurther, hvalue⟩ := h n.id turns hturns
  have hmem : .node n ∈ node.properties.values := hn ▸ List.mem_map_of_mem he
  exact ⟨outcome, turns', hexec, hfurther.imp fun _ h => ⟨h.1, .child hnode hmem h.2⟩, hvalue⟩

/-- The walk from a node that has had no turn, where the walks from the nodes in it are known: it
gets its turn after them, if all its inputs can be found. -/
theorem plays_node {limit levels : Nat} {path : List NodeId} {node : Node} (hpath : id ∉ path)
    (hnode : s.get? id = some node)
    (h : ∀ child, Plays s (fun other => other ∉ id :: path ∧ s.Reaches child other) (· child)
      (sample limit levels (id :: path) child))
    (hturns : InOrder s turns) (hnone : outputOf turns id = none) :
    ∃ outcome turns',
      (sample limit (levels + 1) path id).exec (played s turns) = (outcome, played s turns') ∧
        Further s (fun other => other ∉ path ∧ s.Reaches id other) turns turns' ∧
        outcome.toOption = outputOf turns' id := by
  have hnew := outputOf_eq_none_iff.1 hnone
  have hstored := (hturns.store_played.1 id hnew).trans hnode
  rw [exec_sample_succ limit levels hpath (hturns.lookup_played.trans hnone) hstored]
  obtain ⟨outcome, turns₁, hexec, hfurther, hinputs⟩ := plays_children hnode h turns hturns
  -- The node is on the path of the walks from what it holds, and so it has had no turn yet.
  have hnew₁ : id ∉ turns₁.map Turn.id := by
    intro hid
    rcases hfurther.allowed id hid with hid | hid
    · exact hnew hid
    · exact hid.1 List.mem_cons_self
  have hbelow : Further s (fun other => other ∉ path ∧ s.Reaches id other) turns turns₁ :=
    hfurther.imp fun _ h => ⟨fun hmem => h.1 (List.mem_cons_of_mem id hmem), h.2⟩
  cases outcome with
  | error fault =>
    have hnone₁ := outputOf_eq_none_iff.2 hnew₁
    exact ⟨.error fault, turns₁, Task.exec_bind_error hexec, hbelow, hnone₁.symm⟩
  | ok inputs =>
    obtain ⟨hinOrder, hprocess⟩ := hbelow.inOrder.processed hnew₁ hnode hinputs.symm
    refine ⟨_, _, (Task.exec_bind_ok hexec).trans hprocess,
      hbelow.trans ⟨hinOrder, kept_cons hnew₁, fun other hother => ?_⟩,
      (outputOf_cons_self ⟨id, node, inputs⟩ turns₁).symm⟩
    rcases List.mem_cons.1 hother with rfl | hother
    · exact .inr ⟨hpath, .root⟩
    · exact .inl hother

/-- The walk from a node takes turns of nodes at and below it that are not on its path, and has an
output exactly if the node has had its turn then. -/
theorem plays_sample (s : Store) (limit levels : Nat) (path : List NodeId) (id : NodeId) :
    Plays s (fun other => other ∉ path ∧ s.Reaches id other) (· id)
      (sample limit levels path id) := by
  induction levels generalizing path id with
  | zero =>
    refine plays_of_new limit 0 path fun turns hturns hnone => ?_
    have hnoted := hturns.lookup_played.trans hnone
    exact ⟨_, turns, exec_sample_zero limit path hnoted, .refl hturns, hnone.symm⟩
  | succ levels ih =>
    refine plays_of_new limit (levels + 1) path fun turns hturns hnone => ?_
    have hnoted := hturns.lookup_played.trans hnone
    by_cases hpath : id ∈ path
    · exact ⟨_, turns, exec_sample_cyclic limit levels hpath hnoted, .refl hturns, hnone.symm⟩
    cases hnode : s.get? id with
    | none =>
      have hstored := hturns.store_played.1 id (outputOf_eq_none_iff.1 hnone)
      exact ⟨_, turns, exec_sample_missing limit levels hpath hnoted (hstored.trans hnode),
        .refl hturns, hnone.symm⟩
    | some node => exact plays_node hpath hnode (ih (id :: path)) hturns hnone

/-! ## The step -/

/-- What the turns of one sample under `root` are, which leads from the store `s` to `s'`. -/
structure Step (s s' : Store) (root : NodeId) (turns : List Turn) : Prop where
  /-- a node is processed once -/
  once : (turns.map Turn.id).Nodup
  /-- only nodes below the root are processed -/
  below : ∀ t ∈ turns, s.Reaches root t.id
  /-- a node is processed in the state that it had -/
  before : ∀ t ∈ turns, s.get? t.id = some t.node
  /-- its inputs are its properties, in order, as numbers or as outputs of this same sample -/
  inputs : ∀ t ∈ turns, t.node.inputs? (outputOf turns) = some t.inputs
  /-- and so are all outputs -/
  outputs : ∀ t ∈ turns, outputOf turns t.id = some t.output
  /-- it keeps the state that this leaves -/
  after : ∀ t ∈ turns, s'.get? t.id = some t.after
  /-- the other nodes are as they were -/
  others : ∀ id ∉ turns.map Turn.id, s'.get? id = s.get? id
  /-- no property of any node changes -/
  properties : ∀ id, (s'.get? id).map Node.properties = (s.get? id).map Node.properties

theorem InOrder.step {root : NodeId} (h : InOrder s turns)
    (hbelow : ∀ t ∈ turns, s.Reaches root t.id) : Step s (played s turns).store root turns := by
  obtain ⟨hothers, hafter, -⟩ := h.store_played
  refine ⟨h.nodup, hbelow, fun _ => h.node, fun _ => h.inputs, fun _ => h.outputOf_of_mem, hafter,
    hothers, fun id => ?_⟩
  by_cases hid : id ∈ turns.map Turn.id
  · obtain ⟨t, ht, rfl⟩ := List.mem_map.1 hid
    rw [hafter t ht, h.node ht, Option.map_some, Option.map_some, Turn.after,
      (t.node.process_keeps t.inputs).2]
  · rw [hothers id hid]

/-- **A sample is one synchronous step of the graph.** Whatever the store, the root and the limit,
a sample processes nodes in turns, and does nothing else. If it succeeds, it has processed exactly
the nodes at and below the root, none of which holds itself in any way, and its value is the output
of the root; if it fails, the root is not among the nodes it has processed. -/
theorem tick_of_turns (s : Store) (limit : Nat) (root : NodeId) :
    ∃ turns, Step s ((tick limit root).exec s).2 root turns ∧
      ((sample limit limit [] root).exec ⟨s, []⟩).2 = played s turns ∧
      match ((tick limit root).exec s).1 with
      | .ok x => outputOf turns root = some x ∧
        ∀ id, s.Reaches root id → id ∈ turns.map Turn.id ∧ ¬ Relation.TransGen s.Holds id id
      | .error _ => root ∉ turns.map Turn.id := by
  obtain ⟨outcome, turns, hexec, hfurther, houtcome⟩ :=
    plays_sample s limit limit [] root [] .nil
  have hbelow (t : Turn) (ht : t ∈ turns) : s.Reaches root t.id := by
    rcases hfurther.allowed t.id (List.mem_map_of_mem ht) with hid | hid
    · exact absurd hid List.not_mem_nil
    · exact hid.2
  have htick : (tick limit root).exec s = (outcome, (played s turns).store) := by
    rw [tick, Task.exec_onPart]
    exact congrArg (fun r => (r.1, r.2.store)) hexec
  rw [htick]
  refine ⟨turns, hfurther.inOrder.step hbelow, congrArg Prod.snd hexec, ?_⟩
  cases outcome with
  | error fault => exact outputOf_eq_none_iff.1 houtcome.symm
  | ok x =>
    refine ⟨houtcome.symm, fun id hid => ?_⟩
    have hroot : root ∈ turns.map Turn.id := by
      by_contra hnot
      exact Option.some_ne_none x (houtcome.trans (outputOf_eq_none_iff.2 hnot))
    have hmem := hfurther.inOrder.reaches hroot hid
    exact ⟨hmem, hfurther.inOrder.acyclic hmem⟩

end Store

end Patchbay
