import Patchbay.Proofs.Rendering

/-!
# The texts that writing leaves at nodes

Writing a node keeps its text, and those of the nodes below it before that, each at its own node.
Texts that have been kept stay if the writing fails later on. A node below is written inside others,
with fewer levels left than it would have by itself, and still its text is its own expression.

* `Store.Leaves`: what a task does to every store with the same kinds and properties: it has one
  outcome, and keeps texts at the same nodes;
* `Store.leaves_write`: the nodes that are written are at or below the node, each with its own
  expression, and all of them if the writing succeeds;
* `Store.refreshed_of_compile`: so an expression leaves texts that are right, and nothing else.
-/

namespace Patchbay.Store

variable {α β : Type} {s t t' t'' : Store} {limit levels : Nat} {id root other : NodeId}
  {node : Node} {texts : NodeId → String} {ids ids' : List NodeId} {P P' Q R : NodeId → Prop}

/-! ## Texts kept at nodes -/

/-- The second store is the first one with the texts of some nodes kept at them. -/
def Noted (texts : NodeId → String) (ids : List NodeId) (t t' : Store) : Prop :=
  ∀ id, t'.get? id =
    if id ∈ ids then (t.get? id).map (·.withExpression (texts id)) else t.get? id

theorem Noted.refl (texts : NodeId → String) (t : Store) : Noted texts [] t t :=
  fun _ => (if_neg List.not_mem_nil).symm

theorem Noted.trans (h : Noted texts ids t t') (h' : Noted texts ids' t' t'') :
    Noted texts (ids ++ ids') t t'' := by
  intro id
  rw [h' id, h id]
  by_cases hid : id ∈ ids
  · by_cases hid' : id ∈ ids'
    · -- a text that is kept once more is the same text
      rw [if_pos hid, if_pos hid', if_pos (List.mem_append_left _ hid), Option.map_map]
      rfl
    · rw [if_pos hid, if_neg hid', if_pos (List.mem_append_left _ hid)]
  · by_cases hid' : id ∈ ids'
    · rw [if_neg hid, if_pos hid', if_pos (List.mem_append_right _ hid')]
    · rw [if_neg hid, if_neg hid', if_neg (fun h => (List.mem_append.1 h).elim hid hid')]

theorem Noted.alike (h : Noted texts ids t t') : Alike t t' := by
  intro id
  rw [h id]
  split
  · rw [Option.map_map]
    rfl
  · rfl

theorem noted_put (hnode : t.get? id = some node) (texts : NodeId → String) :
    Noted texts [id] t (t.put id (node.withExpression (texts id))) := by
  intro other
  rw [get?_put hnode]
  by_cases hother : other = id
  · subst hother
    rw [if_pos rfl, if_pos List.mem_cons_self, hnode]
    rfl
  · rw [if_neg hother, if_neg (mt List.mem_singleton.1 hother)]

/-! ## What a task leaves -/

/-- In every store like `s` the task has the same outcome, and keeps texts at the same nodes. All
of them are such as `P` says, and if it succeeds, all such as `Q` says are among them. -/
def Leaves (s : Store) (texts : NodeId → String) (P Q : NodeId → Prop) (task : Task Store α) :
    Prop :=
  ∃ outcome ids, (∀ t, Alike s t →
      (task.exec t).1 = outcome ∧ Noted texts ids t (task.exec t).2) ∧
    (∀ id ∈ ids, P id) ∧ ∀ a, outcome = .ok a → ∀ id, Q id → id ∈ ids

variable {task : Task Store α} {f : α → Task Store β} {child : NodeId → Task Store String}
  {C : NodeId → NodeId → Prop}

theorem Leaves.imp (h : Leaves s texts P Q task) (hP : ∀ id, P id → P' id)
    (hQ : ∀ id, R id → Q id) : Leaves s texts P' R task := by
  obtain ⟨outcome, ids, hexec, hids, hall⟩ := h
  exact ⟨outcome, ids, hexec, fun id hid => hP id (hids id hid),
    fun a ha id hid => hall a ha id (hQ id hid)⟩

/-- A task that does nothing but answer leaves nothing. -/
theorem leaves_of_exec {outcome : Except Fault α} (h : ∀ t, task.exec t = (outcome, t))
    (hQ : ∀ id, ¬ Q id) : Leaves s texts P Q task := by
  refine ⟨outcome, [], fun t _ => ?_, List.forall_mem_nil _, fun _ _ id hid => absurd hid (hQ id)⟩
  rw [h t]
  exact ⟨rfl, .refl texts t⟩

theorem leaves_throw (e : Fault) : Leaves s texts P Q (throw e : Task Store α) :=
  ⟨.error e, [], fun t _ => ⟨rfl, .refl texts t⟩, List.forall_mem_nil _, nofun⟩

theorem Leaves.bind (htask : Leaves s texts P Q task)
    (hf : ∀ a, (task.exec s).1 = .ok a → Leaves s texts P R (f a)) :
    Leaves s texts P (fun id => Q id ∨ R id) (task >>= f) := by
  obtain ⟨outcome, ids, hexec, hids, hall⟩ := htask
  cases outcome with
  | error e =>
    refine ⟨.error e, ids, fun t ht => ?_, hids, nofun⟩
    obtain ⟨houtcome, hnoted⟩ := hexec t ht
    rw [Task.exec_bind_error (Prod.ext houtcome rfl)]
    exact ⟨rfl, hnoted⟩
  | ok a =>
    obtain ⟨outcome', ids', hexec', hids', hall'⟩ := hf a (hexec s (.refl s)).1
    refine ⟨outcome', ids ++ ids', fun t ht => ?_, fun id hid => ?_, fun b hb id hid => ?_⟩
    · obtain ⟨houtcome, hnoted⟩ := hexec t ht
      obtain ⟨houtcome', hnoted'⟩ := hexec' _ (ht.trans hnoted.alike)
      rw [Task.exec_bind_ok (Prod.ext houtcome rfl)]
      exact ⟨houtcome', hnoted.trans hnoted'⟩
    · exact (List.mem_append.1 hid).elim (hids id) (hids' id)
    · exact List.mem_append.2 (hid.imp (hall a rfl id) (hall' b hb id))

theorem Leaves.map (h : Leaves s texts P Q task) (f : α → β) :
    Leaves s texts P Q (task >>= fun a => pure (f a)) :=
  (h.bind (R := fun _ => False) fun _ _ => leaves_of_exec (fun _ => rfl) fun _ => not_false).imp
    (fun _ hP => hP) fun _ hQ => .inl hQ

theorem Leaves.alike (h : Leaves s texts P Q task) : Alike s (task.exec s).2 := by
  obtain ⟨outcome, ids, hexec, -⟩ := h
  exact (hexec s (.refl s)).2.alike

/-- A task that goes on with a node, of which it needs the kind and the properties. -/
theorem leaves_fetch_bind (hnode : s.get? id = some node) {f : Node → Task Store α}
    (hcongr : ∀ node', node'.kind = node.kind → node'.properties = node.properties →
      f node' = f node) (h : Leaves s texts P Q (f node)) :
    Leaves s texts P Q (fetch id >>= f) := by
  obtain ⟨outcome, ids, hexec, hrest⟩ := h
  refine ⟨outcome, ids, fun t ht => ?_, hrest⟩
  obtain ⟨node', hnode', hkind, hproperties⟩ := ht.get? hnode
  rw [Task.exec_bind_ok (exec_fetch hnode'), hcongr node' hkind hproperties]
  exact hexec t ht

theorem leaves_fetch_bind_none (hnone : s.get? id = none) (f : Node → Task Store α) :
    Leaves s texts P Q (fetch id >>= f) := by
  refine ⟨.error (.unknownReference id), [], fun t ht => ?_, List.forall_mem_nil _, nofun⟩
  have hnone' : t.get? id = none := by simpa [hnone] using ht id
  rw [Task.exec_bind_error (exec_fetch_none hnone')]
  exact ⟨rfl, .refl texts t⟩

theorem leaves_keepText (hnode : s.get? id = some node) (hid : P id) :
    Leaves s texts P (· = id) (keepText id (texts id)) := by
  refine ⟨.ok (), [id], fun t ht => ?_, fun _ hmem => List.mem_singleton.1 hmem ▸ hid,
    fun _ _ _ heq => List.mem_singleton.2 heq⟩
  obtain ⟨node', hnode', -⟩ := ht.get? hnode
  rw [(alike_keepText hnode' (texts id)).1]
  exact ⟨rfl, noted_put hnode' texts⟩

/-! ## What writing a node leaves -/

theorem leaves_operand (id : NodeId) (key : Key) {value : Value}
    (h : ∀ n, value = .node n → Leaves s texts P (C n.id) (child n.id)) :
    Leaves s texts P (fun other => ∃ n, value = .node n ∧ C n.id other)
      (operandText child id key value) := by
  cases value with
  | scalar x => exact leaves_of_exec (fun _ => rfl) fun _ => nofun
  | node n => exact (h n rfl).imp (fun _ hP => hP) fun _ ⟨_, heq, hC⟩ => by cases heq; exact hC
  | bool | text | unset => exact leaves_throw _

theorem leaves_argument (id : NodeId) (key : Key) {value : Value}
    (h : ∀ n, value = .node n → Leaves s texts P (C n.id) (child n.id)) :
    Leaves s texts P (fun other => ∃ n, value = .node n ∧ C n.id other)
      (argumentText child id key value) := by
  cases value with
  | scalar x => exact leaves_of_exec (fun _ => rfl) fun _ => nofun
  | bool b => exact leaves_of_exec (fun _ => rfl) fun _ => nofun
  | node n => exact (h n rfl).imp (fun _ hP => hP) fun _ ⟨_, heq, hC⟩ => by cases heq; exact hC
  | text | unset => exact leaves_throw _

theorem leaves_propertyTexts {write : Key → Value → Task Store String}
    {D : Value → NodeId → Prop} {entries : List (Key × Value)}
    (h : ∀ e ∈ entries, Leaves s texts P (D e.2) (write e.1 e.2)) :
    Leaves s texts P (fun other => ∃ v ∈ entries.map Prod.snd, D v other)
      (propertyTexts write entries) := by
  induction entries with
  | nil => exact leaves_of_exec (fun _ => rfl) (by simp)
  | cons e es ih =>
    have hrest := ih fun e' he' => h e' (List.mem_cons_of_mem e he')
    refine ((h e List.mem_cons_self).bind fun text _ => hrest.map (text :: ·)).imp
      (fun _ hP => hP) ?_
    rintro other ⟨v, hv, hD⟩
    rcases List.mem_cons.1 hv with rfl | hv
    · exact .inl hD
    · exact .inr ⟨v, hv, hD⟩

/-- The text of a node leaves what the nodes in it leave. -/
theorem leaves_bodyText (id : NodeId) (node : Node)
    (h : ∀ n, .node n ∈ node.properties.values → Leaves s texts P (C n.id) (child n.id)) :
    Leaves s texts P (fun other => ∃ n, .node n ∈ node.properties.values ∧ C n.id other)
      (bodyText child id node) := by
  have hchild {e : Key × Value} (he : e ∈ node.properties.entries) (n : NodeRef)
      (hn : e.2 = .node n) : Leaves s texts P (C n.id) (child n.id) :=
    h n (hn ▸ List.mem_map_of_mem he)
  have hclose {write : Key → Value → Task Store String} (close : List String → String)
      (hwrite : ∀ e ∈ node.properties.entries, Leaves s texts P
        (fun other => ∃ n, e.2 = .node n ∧ C n.id other) (write e.1 e.2)) :
      Leaves s texts P (fun other => ∃ n, .node n ∈ node.properties.values ∧ C n.id other)
        (do return close (← propertyTexts write node.properties.entries)) := by
    have htexts := leaves_propertyTexts (D := fun v other => ∃ n, v = .node n ∧ C n.id other) hwrite
    exact (htexts.map close).imp (fun _ hP => hP) fun _ ⟨n, hn, hC⟩ => ⟨_, hn, n, rfl, hC⟩
  unfold bodyText
  split
  · split
    · exact leaves_throw _
    · exact hclose _ fun e he => leaves_operand id e.1 (hchild he)
  · exact hclose _ fun e he => leaves_argument id e.1 (hchild he)

theorem bodyText_congr {node' : Node} (hkind : node'.kind = node.kind)
    (hproperties : node'.properties = node.properties) :
    bodyText child id node' = bodyText child id node := by
  rw [bodyText, bodyText, Node.form_congr hkind, hproperties]

/-- The text that a node has under a limit. -/
def ownText (s : Store) (limit : Nat) (id : NodeId) : String :=
  s.unfold (fun _ node texts => node.rendering texts) limit id

/-- The expression of the node by itself is its own text. -/
def HasOwnText (s : Store) (limit : Nat) (id : NodeId) : Prop :=
  ((compile limit id).exec s).1 = .ok (s.ownText limit id)

/-- What is written of a node inside others is its own text, and it has one by itself. Walks that
end within the levels that are left end within the limit. -/
theorem ownText_of_write (hle : levels ≤ limit) {path : List NodeId} {text : String}
    (h : ((write limit levels path id).exec s).1 = .ok text) :
    text = s.ownText limit id ∧ s.HasOwnText limit id := by
  obtain ⟨⟨hclear, hwritable⟩, rfl⟩ :=
    ((settles_write s limit levels path id s (.refl s)).2 text).1 h
  refine ⟨(unfold_of_within_le local_rendering hclear.1 hle).symm, ?_⟩
  exact (compile_ok_iff (.refl s)).2 ⟨⟨hclear.1.mono hle, hwritable⟩, rfl⟩

/-- **Writing a node keeps the own text of each node that it comes to**, and it comes to the node
and those below it only. If it succeeds, it has come to all of them. -/
theorem leaves_write (s : Store) (hle : levels ≤ limit) (path : List NodeId) (id : NodeId) :
    Leaves s (s.ownText limit) (fun other => s.Reaches id other ∧ s.HasOwnText limit other)
      (s.Reaches id) (write limit levels path id) := by
  induction levels generalizing path id with
  | zero =>
    unfold write
    split <;> exact leaves_throw _
  | succ levels ih =>
    by_cases hpath : id ∈ path
    · rw [write, if_pos hpath]
      exact leaves_throw _
    cases hnode : s.get? id with
    | none =>
      rw [write_succ limit levels hpath]
      exact leaves_fetch_bind_none hnode _
    | some node =>
      have hbody : Leaves s (s.ownText limit)
          (fun other => s.Reaches id other ∧ s.HasOwnText limit other)
          (fun other => ∃ n, .node n ∈ node.properties.values ∧ s.Reaches n.id other)
          (bodyText (write limit levels (id :: path)) id node) :=
        leaves_bodyText id node fun n hn => (ih (Nat.le_of_succ_le hle) (id :: path) n.id).imp
          (fun _ hother => ⟨.child hnode hn hother.1, hother.2⟩) fun _ hother => hother
      rw [write_succ limit levels hpath]
      refine leaves_fetch_bind hnode (fun node' hkind hproperties => ?_) ?_
      · rw [bodyText_congr hkind hproperties]
      refine (hbody.bind (R := (· = id)) fun text htext => ?_).imp (fun _ hother => hother)
        fun other hother => ?_
      · -- the text of the node is its own, since it is what the whole walk from it gives
        have hwrite : ((write limit (levels + 1) path id).exec s).1 = .ok text := by
          rw [write_succ limit levels hpath, Task.exec_bind_ok (exec_fetch hnode),
            Task.exec_bind_ok (Prod.ext htext rfl)]
          obtain ⟨node', hnode', -⟩ := hbody.alike.get? hnode
          rw [Task.exec_bind_ok (alike_keepText hnode' text).1]
          rfl
        obtain ⟨rfl, hown⟩ := ownText_of_write hle hwrite
        exact (leaves_keepText hnode ⟨.root, hown⟩).map fun _ => s.ownText limit id
      · rcases (reaches_iff.1 hother).cases_head with rfl | ⟨child, ⟨node', n, hnode', hn, rfl⟩, h⟩
        · exact .inr rfl
        · cases hnode.symm.trans hnode'
          exact .inl ⟨n, hn, reaches_iff.2 h⟩

/-! ## Expressions -/

/-- An expression, and what is wrong if there is none, is the same in all stores with the same kinds
and properties. -/
theorem exec_compile_of_alike (h : Alike s t) (limit : Nat) (root : NodeId) :
    ((compile limit root).exec t).1 = ((compile limit root).exec s).1 := by
  obtain ⟨outcome, ids, hexec, -⟩ := leaves_write s (Nat.le_refl limit) [] root
  exact (hexec t h).1.trans (hexec s (.refl s)).1.symm

theorem Reaches.of_alike (h : s.Reaches root id) (halike : Alike s t) : t.Reaches root id := by
  induction h with
  | root => exact .root
  | property _ hnode hn ih =>
    obtain ⟨node', hnode', -, hproperties⟩ := halike.get? hnode
    exact .property ih hnode' (hproperties ▸ hn)

/-- What writing the expression of `root` makes of the store `t`, texts being kept at the given
nodes. -/
structure Refreshed (limit : Nat) (root : NodeId) (ids : List NodeId) (t t' : Store) : Prop where
  /-- they are at or below the root -/
  below : ∀ id ∈ ids, t.Reaches root id
  /-- each has got the text that its expression is by itself, before and afterwards, and is
  otherwise as it was -/
  text : ∀ id ∈ ids, ∃ node text, t.get? id = some node ∧
    t'.get? id = some (node.withExpression text) ∧
    ∀ u ∈ [t, t'], ((compile limit id).exec u).1 = .ok text
  /-- the other nodes are as they were -/
  others : ∀ id ∉ ids, t'.get? id = t.get? id
  /-- so a node without a text has got one exactly if it is among them -/
  written : ∀ id, (t.get? id).bind Node.expression = none →
    ((t'.get? id).bind Node.expression ≠ none ↔ id ∈ ids)

theorem Noted.refreshed (h : Noted (s.ownText limit) ids t t') (ht : Alike s t)
    (hids : ∀ id ∈ ids, s.Reaches root id ∧ s.HasOwnText limit id) :
    Refreshed limit root ids t t' := by
  have htext (id : NodeId) (hid : id ∈ ids) : ∃ node, t.get? id = some node ∧
      t'.get? id = some (node.withExpression (s.ownText limit id)) := by
    obtain ⟨⟨-, hwritable⟩, -⟩ := (compile_ok_iff (.refl s)).1 (hids id hid).2
    obtain ⟨node, hnode⟩ := Option.ne_none_iff_exists'.1 (hwritable.there .root)
    obtain ⟨node', hnode', -⟩ := ht.get? hnode
    refine ⟨node', hnode', ?_⟩
    rw [h id, if_pos hid, hnode']
    rfl
  have hothers (id : NodeId) (hid : id ∉ ids) : t'.get? id = t.get? id := (h id).trans (if_neg hid)
  refine ⟨fun id hid => (hids id hid).1.of_alike ht, fun id hid => ?_, hothers,
    fun id hblank => ⟨fun hwritten => ?_, fun hid => ?_⟩⟩
  · obtain ⟨node, hnode, hnode'⟩ := htext id hid
    refine ⟨node, s.ownText limit id, hnode, hnode', fun u hu => ?_⟩
    rcases List.mem_pair.1 hu with rfl | rfl
    · exact (compile_of_alike ht).2 (hids id hid).2
    · exact (compile_of_alike (ht.trans h.alike)).2 (hids id hid).2
  · by_contra hid
    exact hwritten (hothers id hid ▸ hblank)
  · obtain ⟨node, -, hnode'⟩ := htext id hid
    rw [hnode']
    exact Option.some_ne_none _

/-- **An expression leaves texts that are right, and nothing else.** Whatever the store, the root
and the limit: in all stores with the same kinds and properties, whatever texts are kept and
wherever playback stands, the expression of the root has one outcome, and its writing keeps texts at
the same nodes, also if it fails. These nodes are at or below the root, each of them has got the
expression that it has by itself, and nothing else has changed. If the root has an expression, they
are all nodes at and below it. -/
theorem refreshed_of_compile (s : Store) (limit : Nat) (root : NodeId) :
    ∃ outcome ids, ∀ t, Alike s t →
      ((compile limit root).exec t).1 = outcome ∧
      Refreshed limit root ids t ((compile limit root).exec t).2 ∧
      ∀ text, outcome = .ok text → ∀ id, t.Reaches root id → id ∈ ids := by
  obtain ⟨outcome, ids, hexec, hids, hall⟩ := leaves_write s (Nat.le_refl limit) [] root
  refine ⟨outcome, ids, fun t ht => ?_⟩
  obtain ⟨houtcome, hnoted⟩ := hexec t ht
  exact ⟨houtcome, hnoted.refreshed ht hids,
    fun text htext id hid => hall text htext id (hid.of_alike ht.symm)⟩

/-- A function, and a sum of it and a truth value, which is no operand. -/
def halfWritten : Store :=
  ((empty.add (.fresh (.function .abs) (.positional [.scalar 1.0]))).2.add
    (.fresh (.chain .add) (.positional [.node ⟨1, false⟩, .bool true]))).2

/-- The sum has no expression, and the function keeps its own. -/
example : ((compile 2 2).exec halfWritten).1 =
      .error (.compilation 2 (.badOperand (.index 1) (.bool true))) ∧
    (((compile 2 2).exec halfWritten).2.get? 1).bind Node.expression = some "abs(1)" ∧
    ((compile 2 2).exec halfWritten).2.get? 2 = halfWritten.get? 2 := by
  decide +kernel

end Patchbay.Store
