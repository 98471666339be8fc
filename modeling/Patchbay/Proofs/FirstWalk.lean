import Patchbay.Proofs.Rendering

/-!
# How deep a sample goes

A sample comes to a node for the first time along one walk, and needs a level for each node of that
walk only. Where it comes to the node again it finds the output, at whatever depth. The walk along
which it comes first is the one that no other walk stands before, in the order of the properties
(`Store.FirstWalk`).

* `Store.deep_succ`, `Store.deepIn_cons_node`: how the walks that are too deep continue, level by
  level and property by property, beside the nodes that have been seen;
* `Store.sample_fathoms`: a sample of numbers without a cycle fails exactly at such a walk;
* `Store.tick_of_firstWalks`: so the limit is one on first walks, of which the order of properties
  decides (`Store.tick_of_shared`), and not on all walks.
-/

namespace Patchbay.Store

open Relation
open Turn (outputOf)

variable {s : Store} {id root last : NodeId} {node : Node} {walk seen : List NodeId} {levels : Nat}

/-- A walk down to the node `last`, to which nothing leads that stands before the walk in the
properties that it goes through. -/
inductive FirstWalk (s : Store) : NodeId → List NodeId → NodeId → Prop
  | here {id : NodeId} : FirstWalk s id [] id
  | step {id last : NodeId} {node : Node} {n : NodeRef} {walk : List NodeId}
    {before after : List Value} (hnode : s.get? id = some node)
    (hvalues : node.properties.values = before ++ .node n :: after)
    (hbefore : ∀ m, .node m ∈ before → ¬ s.Reaches m.id last) (h : FirstWalk s n.id walk last) :
    FirstWalk s id (n.id :: walk) last

/-- Nothing stands before the first property. -/
theorem FirstWalk.first {n : NodeRef} {after : List Value} (hnode : s.get? id = some node)
    (hvalues : node.properties.values = .node n :: after) (h : s.FirstWalk n.id walk last) :
    s.FirstWalk id (n.id :: walk) last :=
  .step hnode (hvalues.trans (List.nil_append _).symm) nofun h

theorem FirstWalk.isChain (h : s.FirstWalk id walk last) : (id :: walk).IsChain s.Holds := by
  induction h with
  | here => exact List.isChain_singleton _
  | step hnode hvalues _ _ ih =>
    refine List.isChain_cons_cons.2 ⟨⟨_, _, hnode, ?_, rfl⟩, ih⟩
    rw [hvalues]
    exact List.mem_append_right _ List.mem_cons_self

theorem FirstWalk.reaches (h : s.FirstWalk id walk last) : s.Reaches id last := by
  induction h with
  | here => exact .root
  | step hnode hvalues _ _ ih =>
    refine .child hnode ?_ ih
    rw [hvalues]
    exact List.mem_append_right _ List.mem_cons_self

/-! ## Walks that are too deep -/

/-- A first walk with more nodes than levels leads to a node that has not been seen. -/
def Deep (s : Store) (levels : Nat) (seen : List NodeId) (id : NodeId) : Prop :=
  ∃ walk last, s.FirstWalk id walk last ∧ last ∉ seen ∧ levels < (id :: walk).length

/-- The same from the nodes among some values, in order. -/
def DeepIn (s : Store) (levels : Nat) (seen : List NodeId) (values : List Value) : Prop :=
  ∃ before n after walk last, values = before ++ .node n :: after ∧
    (∀ m, .node m ∈ before → ¬ s.Reaches m.id last) ∧ s.FirstWalk n.id walk last ∧
    last ∉ seen ∧ levels < (n.id :: walk).length

theorem Deep.not_within (h : s.Deep levels seen id) : ¬ Within s.Holds levels id := by
  obtain ⟨walk, last, hfirst, -, hlength⟩ := h
  exact fun hwithin => absurd (hwithin walk hfirst.isChain) (Nat.not_le.2 hlength)

theorem deep_zero (h : id ∉ seen) : s.Deep 0 seen id :=
  ⟨[], id, .here, h, Nat.zero_lt_one⟩

theorem deep_succ (hnode : s.get? id = some node) :
    s.Deep (levels + 1) seen id ↔ s.DeepIn levels seen node.properties.values := by
  constructor
  · rintro ⟨walk, last, hfirst, hlast, hlength⟩
    cases hfirst with
    | here => simp at hlength
    | step hnode' hvalues hbefore hfirst =>
      cases hnode.symm.trans hnode'
      exact ⟨_, _, _, _, last, hvalues, hbefore, hfirst, hlast, Nat.lt_of_succ_lt_succ hlength⟩
  · rintro ⟨before, n, after, walk, last, hvalues, hbefore, hfirst, hlast, hlength⟩
    exact ⟨n.id :: walk, last, .step hnode hvalues hbefore hfirst, hlast,
      Nat.succ_lt_succ hlength⟩

theorem not_deepIn_nil : ¬ s.DeepIn levels seen [] := by
  rintro ⟨before, n, after, -, -, hvalues, -⟩
  simp at hvalues

theorem deepIn_cons_of_node?_eq_none {v : Value} (hv : v.node? = none) (values : List Value) :
    s.DeepIn levels seen (v :: values) ↔ s.DeepIn levels seen values := by
  constructor
  · rintro ⟨before, n, after, walk, last, hvalues, hbefore, hrest⟩
    cases before with
    | nil =>
      cases hvalues
      cases hv
    | cons w before =>
      obtain ⟨rfl, rfl⟩ := List.cons.inj hvalues
      exact ⟨before, n, after, walk, last, rfl, fun m hm => hbefore m (.tail _ hm), hrest⟩
  · rintro ⟨before, n, after, walk, last, rfl, hbefore, hrest⟩
    refine ⟨v :: before, n, after, walk, last, rfl, fun m hm => ?_, hrest⟩
    rcases List.mem_cons.1 hm with rfl | hm
    · cases hv
    · exact hbefore m hm

/-- What is too deep behind a node is so where the nodes below that node have been seen too. -/
theorem deepIn_cons_node {n : NodeRef} {seen' : List NodeId}
    (hseen : ∀ other, other ∈ seen' ↔ other ∈ seen ∨ s.Reaches n.id other) (values : List Value) :
    s.DeepIn levels seen (.node n :: values) ↔
      s.Deep levels seen n.id ∨ s.DeepIn levels seen' values := by
  constructor
  · rintro ⟨before, m, after, walk, last, hvalues, hbefore, hfirst, hlast, hlength⟩
    cases before with
    | nil =>
      cases hvalues
      exact .inl ⟨walk, last, hfirst, hlast, hlength⟩
    | cons w before =>
      obtain ⟨rfl, rfl⟩ := List.cons.inj hvalues
      refine .inr ⟨before, m, after, walk, last, rfl, fun m hm => hbefore m (.tail _ hm), hfirst,
        fun hmem => ?_, hlength⟩
      rcases (hseen last).1 hmem with hmem | hreaches
      · exact hlast hmem
      · exact hbefore n List.mem_cons_self hreaches
  · rintro (⟨walk, last, hfirst, hlast, hlength⟩ | ⟨before, m, after, walk, last, rfl, hbefore,
      hfirst, hlast, hlength⟩)
    · exact ⟨[], n, values, walk, last, rfl, nofun, hfirst, hlast, hlength⟩
    · rw [hseen, not_or] at hlast
      refine ⟨.node n :: before, m, after, walk, last, rfl, fun l hl => ?_, hfirst, hlast.1,
        hlength⟩
      rcases List.mem_cons.1 hl with heq | hl
      · cases heq
        exact hlast.2
      · exact hbefore l hl

/-! ## Samples -/

/-- At the root and below it, every node is there, and what is no node in its properties is a
number. -/
def Numeric (s : Store) (root : NodeId) : Prop :=
  ∀ id, s.Reaches root id → ∃ node, s.get? id = some node ∧
    ∀ v ∈ node.properties.values, v.node? = none → v.number? ≠ none

theorem Numeric.below (h : s.Numeric root) (hid : s.Reaches root id) : s.Numeric id :=
  fun other hother => h other (reaches_iff.2 ((reaches_iff.1 hid).trans (reaches_iff.1 hother)))

/-- What can be written is a number or a node. -/
theorem Writable.numeric (h : s.Writable root) : s.Numeric root := by
  intro id hid
  obtain ⟨node, hnode, hwritable⟩ := h id hid
  refine ⟨node, hnode, fun v hv hnone => ?_⟩
  have hargument := Node.isArgument_of_isWritable hwritable hv
  cases v with
  | scalar | bool => exact Option.some_ne_none _
  | node n => cases hnone
  | text | unset => cases hargument

/-- The outcome is the fault of nesting too deep, if so, and otherwise no fault. -/
def Fathoms {α : Type} (limit : Nat) (deep : Prop) (outcome : Except Fault α) : Prop :=
  deep ∧ (∃ id, outcome = .error (.evaluation id (.tooDeep limit))) ∨ ¬ deep ∧ ∃ a, outcome = .ok a

variable {limit : Nat} {path : List NodeId} {turns turns' : List Turn}

theorem Fathoms.congr {α : Type} {deep deep' : Prop} {outcome : Except Fault α}
    (h : Fathoms limit deep outcome) (hdeep : deep ↔ deep') : Fathoms limit deep' outcome :=
  propext hdeep ▸ h

/-- What comes after a task that goes deep or not, if it never fails itself. -/
theorem Fathoms.bind {State α β : Type} {t : Task State α} {f : α → Task State β} {pass : State}
    {deep : Prop} (ht : Fathoms limit deep (t.exec pass).1)
    (hf : ∀ a pass', t.exec pass = (.ok a, pass') → ∃ b, ((f a).exec pass').1 = .ok b) :
    Fathoms limit deep ((t >>= f).exec pass).1 := by
  rcases ht with ⟨hdeep, id, herror⟩ | ⟨hdeep, a, hok⟩
  · exact .inl ⟨hdeep, id, congrArg Prod.fst (Task.exec_bind_error (Prod.ext herror rfl))⟩
  · have hexec : t.exec pass = (.ok a, (t.exec pass).2) := Prod.ext hok rfl
    rw [Task.exec_bind_ok hexec]
    exact .inr ⟨hdeep, hf a _ hexec⟩

/-- After a node has been sampled, what has been seen is what had been before, and all below it. -/
theorem seen_of_sample (hturns : InOrder s turns) {x : Float} {pass : Pass}
    (hexec : (sample limit levels path id).exec (played s turns) = (.ok x, pass)) :
    ∃ turns', pass = played s turns' ∧ InOrder s turns' ∧
      ∀ other, other ∈ turns'.map Turn.id ↔ other ∈ turns.map Turn.id ∨ s.Reaches id other := by
  obtain ⟨outcome, turns', hexec', hfurther, hvalue⟩ :=
    plays_sample s limit levels path id turns hturns
  cases hexec.symm.trans hexec'
  refine ⟨turns', rfl, hfurther.inOrder, fun other => ⟨fun hother => ?_, ?_⟩⟩
  · exact (hfurther.allowed other hother).imp_right And.right
  · rintro (hother | hother)
    · exact hfurther.kept.mem hother
    · exact hfurther.inOrder.reaches (mem_of_outputOf hvalue.symm) hother

/-- The properties of a node are sampled unless one of the nodes in them is too deep where it comes
up first. -/
theorem inputs_fathom (owner : NodeId) {entries : List (Key × Value)}
    (hnumeric : ∀ v ∈ entries.map Prod.snd, v.node? = none → v.number? ≠ none)
    (h : ∀ n, .node n ∈ entries.map Prod.snd → ∀ turns, InOrder s turns →
      Fathoms limit (s.Deep levels (turns.map Turn.id) n.id)
        ((sample limit levels path n.id).exec (played s turns)).1)
    (hturns : InOrder s turns) :
    Fathoms limit (s.DeepIn levels (turns.map Turn.id) (entries.map Prod.snd))
      ((propertyInputs (propertyInput (sample limit levels path) owner) entries).exec
        (played s turns)).1 := by
  induction entries generalizing turns with
  | nil => exact .inr ⟨not_deepIn_nil, [], rfl⟩
  | cons e es ih =>
    obtain ⟨key, value⟩ := e
    have htail {turns : List Turn} (hturns : InOrder s turns) :=
      ih (fun v hv => hnumeric v (List.mem_cons_of_mem _ hv))
        (fun n hn => h n (List.mem_cons_of_mem _ hn)) hturns
    rw [propertyInputs, List.map_cons]
    cases hv : value.node? with
    | none =>
      obtain ⟨x, hx⟩ := Option.ne_none_iff_exists'.1 (hnumeric value List.mem_cons_self hv)
      have hinput : (propertyInput (sample limit levels path) owner key value).exec
          (played s turns) = (.ok x, played s turns) := by
        cases value with
        | node n => cases hv
        | scalar | bool | text | unset => simp only [propertyInput, hx]; rfl
      rw [Task.exec_bind_ok hinput]
      refine Fathoms.bind ((htail hturns).congr ?_) fun inputs pass _ => ⟨x :: inputs, rfl⟩
      exact (deepIn_cons_of_node?_eq_none hv _).symm
    | some n =>
      obtain rfl := Value.node?_eq_some.1 hv
      rcases h n List.mem_cons_self turns hturns with ⟨hdeep, id, herror⟩ | ⟨hdeep, x, hok⟩
      · obtain ⟨walk, last, hfirst, hlast, hlength⟩ := hdeep
        have hnone (m : NodeRef) (hm : .node m ∈ ([] : List Value)) : ¬ s.Reaches m.id last :=
          absurd hm List.not_mem_nil
        refine .inl ⟨⟨[], n, _, walk, last, rfl, hnone, hfirst, hlast, hlength⟩, id, ?_⟩
        exact congrArg Prod.fst (Task.exec_bind_error (Prod.ext herror rfl))
      · -- The other properties find all that is below this one among what has been seen.
        have hinput : (propertyInput (sample limit levels path) owner key (.node n)).exec
            (played s turns) = (.ok x, _) := Prod.ext hok rfl
        obtain ⟨turns', hpass, hturns', hseen⟩ := seen_of_sample hturns hinput
        rw [Task.exec_bind_ok hinput, hpass]
        refine Fathoms.bind ((htail hturns').congr ?_) fun inputs pass _ => ⟨x :: inputs, rfl⟩
        rw [deepIn_cons_node hseen]
        exact (or_iff_right hdeep).symm

/-- How deep a sample goes is to be seen where the node has had no turn. A node that has had one is
not gone into again, at whatever depth. -/
theorem fathoms_of_new (hturns : InOrder s turns)
    (h : outputOf turns id = none → Fathoms limit (s.Deep levels (turns.map Turn.id) id)
      ((sample limit levels path id).exec (played s turns)).1) :
    Fathoms limit (s.Deep levels (turns.map Turn.id) id)
      ((sample limit levels path id).exec (played s turns)).1 := by
  cases houtput : outputOf turns id with
  | none => exact h houtput
  | some x =>
    rw [sample_of_noted limit levels path (hturns.lookup_played.trans houtput)]
    refine .inr ⟨?_, x, rfl⟩
    rintro ⟨walk, last, hfirst, hlast, -⟩
    exact hlast (hturns.reaches (mem_of_outputOf houtput) hfirst.reaches)

/-- A node that has had no turn gets it where its inputs have been found. -/
theorem processOnce_of_inputs (hnode : s.get? id = some node) (hturns : InOrder s turns)
    (hnone : outputOf turns id = none) {inputs : List Float} {pass : Pass}
    (hexec : (propertyInputs (propertyInput (sample limit levels (id :: path)) id)
      node.properties.entries).exec (played s turns) = (.ok inputs, pass)) :
    ∃ x, ((processOnce id inputs).exec pass).1 = .ok x := by
  obtain ⟨outcome, turns', hexec', hfurther, hinputs⟩ :=
    plays_children hnode (plays_sample s limit levels (id :: path)) turns hturns
  cases hexec.symm.trans hexec'
  have hnew : id ∉ turns'.map Turn.id := by
    intro hid
    rcases hfurther.allowed id hid with hid | hid
    · exact outputOf_eq_none_iff.1 hnone hid
    · exact hid.1 List.mem_cons_self
  exact ⟨_, congrArg Prod.fst (hfurther.inOrder.processed hnew hnode hinputs.symm).2⟩

/-- **A sample of numbers without a cycle fails exactly if a first walk is too deep.** -/
theorem sample_fathoms (limit levels : Nat) (hnumeric : s.Numeric id)
    (hacyclic : ∀ other, s.Reaches id other → ¬ TransGen s.Holds other other)
    (hpath : ∀ other ∈ path, TransGen s.Holds other id) (hturns : InOrder s turns) :
    Fathoms limit (s.Deep levels (turns.map Turn.id) id)
      ((sample limit levels path id).exec (played s turns)).1 := by
  -- All nodes of the path hold the node in some way, so that it is never one of them.
  induction levels generalizing path id turns with
  | zero =>
    refine fathoms_of_new hturns fun hnone => ?_
    have hnew : id ∉ path := fun hmem => hacyclic id .root (hpath id hmem)
    rw [exec_sample_zero limit path (hturns.lookup_played.trans hnone), if_neg hnew]
    exact .inl ⟨deep_zero (outputOf_eq_none_iff.1 hnone), id, rfl⟩
  | succ levels ih =>
    refine fathoms_of_new hturns fun hnone => ?_
    have hnew : id ∉ path := fun hmem => hacyclic id .root (hpath id hmem)
    obtain ⟨node, hnode, hnumbers⟩ := hnumeric id .root
    have hstored := (hturns.store_played.1 id (outputOf_eq_none_iff.1 hnone)).trans hnode
    have hchild (n : NodeRef) (hn : .node n ∈ node.properties.values) (turns : List Turn)
        (hturns : InOrder s turns) : Fathoms limit (s.Deep levels (turns.map Turn.id) n.id)
          ((sample limit levels (id :: path) n.id).exec (played s turns)).1 := by
      have hholds : s.Holds id n.id := ⟨node, n, hnode, hn, rfl⟩
      refine ih (hnumeric.below (.child hnode hn .root))
        (fun other hother => hacyclic other (.child hnode hn hother)) ?_ hturns
      have hlonger (other : NodeId) (hother : other ∈ path) : TransGen s.Holds other n.id :=
        (hpath other hother).tail hholds
      exact List.forall_mem_cons.2 ⟨.single hholds, hlonger⟩
    rw [exec_sample_succ limit levels hnew (hturns.lookup_played.trans hnone) hstored]
    have hinputs := inputs_fathom id hnumbers hchild hturns
    exact Fathoms.bind (hinputs.congr (deep_succ hnode).symm) fun inputs pass hexec =>
      processOnce_of_inputs hnode hturns hnone hexec

theorem tick_fathoms (hnumeric : s.Numeric root)
    (hacyclic : ∀ id, s.Reaches root id → ¬ TransGen s.Holds id id) :
    Fathoms limit (s.Deep limit [] root) ((tick limit root).exec s).1 := by
  rw [tick, Task.exec_onPart]
  exact sample_fathoms limit limit hnumeric hacyclic (List.forall_mem_nil _) .nil

/-- A limit on all walks is enough for a sample. -/
theorem tick_of_within (hnumeric : s.Numeric root) (hwithin : Within s.Holds limit root) :
    ∃ x, ((tick limit root).exec s).1 = .ok x := by
  rcases tick_fathoms hnumeric fun id hid => (hwithin.below (reaches_iff.1 hid)).not_cycle with
    ⟨hlong, -⟩ | ⟨-, hok⟩
  · exact absurd hwithin hlong.not_within
  · exact hok

/-- **The limit of a sample is one on first walks.** For numbers without a cycle, a sample fails
exactly if some first walk from the root has more nodes than the limit. Its fault is that of nesting
too deep, and there are walks then with more nodes than the limit; the converse of this is wrong. -/
theorem tick_of_firstWalks (hnumeric : s.Numeric root)
    (hacyclic : ∀ id, s.Reaches root id → ¬ TransGen s.Holds id id) :
    ((∃ e, ((tick limit root).exec s).1 = .error e) ↔
      ∃ walk last, s.FirstWalk root walk last ∧ limit < (root :: walk).length) ∧
    ∀ e, ((tick limit root).exec s).1 = .error e →
      (∃ id, e = .evaluation id (.tooDeep limit)) ∧ ¬ Within s.Holds limit root := by
  have hdeep : s.Deep limit [] root ↔
      ∃ walk last, s.FirstWalk root walk last ∧ limit < (root :: walk).length := by
    simp only [Deep, List.not_mem_nil, not_false_eq_true, true_and]
  rw [← hdeep]
  rcases tick_fathoms hnumeric hacyclic with ⟨hlong, id, herror⟩ | ⟨hshort, x, hok⟩
  · rw [herror]
    refine ⟨iff_of_true ⟨_, rfl⟩ hlong, fun e he => ?_⟩
    cases he
    exact ⟨⟨id, rfl⟩, hlong.not_within⟩
  · rw [hok]
    exact ⟨iff_of_false nofun hshort, nofun⟩

/-- A magnitude, a sum of it alone, and a sum of operands. -/
def shared (operands : List Value) : Store :=
  (((empty.add (.fresh (.function .abs) (.positional [.scalar 1.0]))).2.add
    (.fresh (.chain .add) (.positional [.node ⟨1, false⟩]))).2.add
    (.fresh (.chain .add) (.positional operands))).2

/-- Both are operands, in one order or the other. -/
def operandOrders : List (List Value) :=
  [[.node ⟨1, false⟩, .node ⟨2, false⟩], [.node ⟨2, false⟩, .node ⟨1, false⟩]]

theorem writable_shared : ∀ operands ∈ operandOrders,
    Within (shared operands).Holds 3 3 ∧ (shared operands).Writable 3 := by
  intro operands hoperands
  have hcompile : ∀ operands ∈ operandOrders,
      (((compile 3 3).exec (shared operands)).1.toOption.isSome) = true := by decide +kernel
  obtain ⟨text, htext⟩ := Option.isSome_iff_exists.1 (hcompile operands hoperands)
  exact ((compile_ok_iff (.refl _)).1 (Task.eq_ok_of_toOption htext)).1

theorem acyclic_shared (operands : List Value) (hoperands : operands ∈ operandOrders) (id : NodeId)
    (hid : (shared operands).Reaches 3 id) : ¬ TransGen (shared operands).Holds id id :=
  ((writable_shared operands hoperands).1.below (reaches_iff.1 hid)).not_cycle

theorem isChain_shared (operands : List Value) (hoperands : operands ∈ operandOrders) :
    [3, 2, 1].IsChain (shared operands).Holds := by
  have hmem : ∀ operands ∈ operandOrders,
      Value.node ⟨2, false⟩ ∈ (Bag.positional operands).values := by decide +kernel
  have hfirst : (shared operands).Holds 3 2 := ⟨_, ⟨2, false⟩, rfl, hmem operands hoperands, rfl⟩
  have hsecond : (shared operands).Holds 2 1 := ⟨_, ⟨1, false⟩, rfl, by decide +kernel, rfl⟩
  exact .cons_cons hfirst (.cons_cons hsecond (.singleton 1))

/-- **The order of the properties decides.** The two stores differ in the order of the operands of
the root only, and in both a walk has more nodes than the limit. If the magnitude is the first
operand, the root itself comes to it first, and there is a sample. If it is the second, it is too
deep where it comes up first. -/
theorem tick_of_shared :
    (∀ operands ∈ operandOrders, operands.Perm [.node ⟨1, false⟩, .node ⟨2, false⟩] ∧
      (shared operands).Numeric 3 ∧
      (∀ id, (shared operands).Reaches 3 id → ¬ TransGen (shared operands).Holds id id) ∧
      ¬ Within (shared operands).Holds 2 3) ∧
    (∃ x, ((tick 2 3).exec (shared [.node ⟨1, false⟩, .node ⟨2, false⟩])).1 = .ok x) ∧
    ((tick 2 3).exec (shared [.node ⟨2, false⟩, .node ⟨1, false⟩])).1 =
      .error (.evaluation 1 (.tooDeep 2)) := by
  refine ⟨fun operands hoperands => ?_, ⟨_, rfl⟩, rfl⟩
  have hperm : ∀ operands ∈ operandOrders,
      operands.Perm [.node ⟨1, false⟩, .node ⟨2, false⟩] := by decide +kernel
  have hlong : ¬ Within (shared operands).Holds 2 3 := fun hwithin =>
    absurd (hwithin [2, 1] (isChain_shared operands hoperands)) (by decide)
  exact ⟨hperm operands hoperands, (writable_shared operands hoperands).2.numeric,
    acyclic_shared operands hoperands, hlong⟩

/-- The magnitude comes up first along the walk through the sum of it. -/
theorem tick_of_shared_after :
    ∃ e, ((tick 2 3).exec (shared [.node ⟨2, false⟩, .node ⟨1, false⟩])).1 = .error e := by
  have hoperands : [.node ⟨2, false⟩, .node ⟨1, false⟩] ∈ operandOrders :=
    List.mem_cons_of_mem _ List.mem_cons_self
  have hfirst : (shared [.node ⟨2, false⟩, .node ⟨1, false⟩]).FirstWalk 3 [2, 1] 1 :=
    .first (n := ⟨2, false⟩) rfl rfl (.first (n := ⟨1, false⟩) rfl rfl .here)
  exact (tick_of_firstWalks (writable_shared _ hoperands).2.numeric
    (acyclic_shared _ hoperands)).1.2 ⟨_, _, hfirst, by decide⟩

end Patchbay.Store
