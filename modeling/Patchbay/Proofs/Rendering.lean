import Patchbay.Proofs.Founded
import Patchbay.Proofs.Walk

/-!
# Which graphs have an expression, and which one

A node has an expression if everything at and below it can be written (`Store.Writable`) and no walk
from it is longer than the limit. The expression is then the written form of the node around those
of the nodes that it holds (`Node.rendering`), down to numbers. Nothing else in the store matters.

* `Store.settles_write`: the walk that writes a node with so many levels left, inside the nodes of
  a path, succeeds exactly if its walks are clear, with what the rule makes of the node;
* `Store.compile_ok_iff`: so an expression is settled by the limit, the kinds and the properties;
* `Store.safe_write`: where all can be written and the limit is not below the number of nodes, a
  cycle is the only fault;
* `Store.compile_of_walks`: when a node has an expression, and which.
-/

namespace Patchbay

open Relation

/-! ## What can be written, and how -/

namespace Value

/-- Whether the value can be written as an operand: as a number or as a node. -/
def isOperand : Value → Bool
  | scalar x => Double.isFinite x
  | node _ => true
  | bool _ | text _ | unset => false

/-- Whether the value can be written as an argument: so can a truth value. -/
def isArgument : Value → Bool
  | scalar x => Double.isFinite x
  | bool _ | node _ => true
  | text _ | unset => false

theorem isArgument_of_isOperand {v : Value} (h : v.isOperand = true) : v.isArgument = true := by
  cases v with
  | scalar x => exact h
  | node n => rfl
  | bool | text | unset => cases h

/-- The written form of a value that can be written, where `texts` gives those of nodes. -/
def rendering (texts : NodeId → String) : Value → String
  | scalar x => Double.toPlain x
  | bool b => if b then "1" else "0"
  | node n => texts n.id
  | text _ | unset => ""

end Value

namespace Node

/-- Whether the node can be written if those that it holds can: an operator has operands, and all
properties can be written. -/
def isWritable (n : Node) : Bool :=
  match n.form with
  | .chain _ => !n.properties.isEmpty && n.properties.values.all Value.isOperand
  | .call _ => n.properties.values.all Value.isArgument

/-- The written form of a node: an operator stands between its operands in parentheses, and a name
before its arguments. -/
def rendering (texts : NodeId → String) (n : Node) : String :=
  match n.form with
  | .chain op =>
    "( " ++ String.intercalate (" " ++ op.symbol ++ " ")
      (n.properties.values.map (·.rendering texts)) ++ " )"
  | .call name =>
    name ++ "(" ++ String.intercalate ", " (n.properties.values.map (·.rendering texts)) ++ ")"

theorem isArgument_of_isWritable {n : Node} (h : n.isWritable = true) {v : Value}
    (hv : v ∈ n.properties.values) : v.isArgument = true := by
  unfold isWritable at h
  split at h
  · exact Value.isArgument_of_isOperand (List.all_eq_true.1 (Bool.and_eq_true_iff.1 h).2 v hv)
  · exact List.all_eq_true.1 h v hv

theorem form_congr {n n' : Node} (h : n.kind = n'.kind) : n.form = n'.form := by
  obtain ⟨body, properties, expression⟩ := n
  obtain ⟨body', properties', expression'⟩ := n'
  cases body <;> cases body' <;> cases h <;> rfl

theorem isWritable_congr {n n' : Node} (hkind : n.kind = n'.kind)
    (hproperties : n.properties = n'.properties) : n.isWritable = n'.isWritable := by
  rw [isWritable, isWritable, form_congr hkind, hproperties]

theorem rendering_congr {n n' : Node} (hkind : n.kind = n'.kind)
    (hproperties : n.properties = n'.properties) (texts : NodeId → String) :
    n.rendering texts = n'.rendering texts := by
  rw [rendering, rendering, form_congr hkind, hproperties]

end Node

namespace Store

variable {s : Store} {id root : NodeId} {node : Node}

/-- At the root and below it, every node is there and can be written. -/
def Writable (s : Store) (root : NodeId) : Prop :=
  ∀ id, s.Reaches root id → ∃ node, s.get? id = some node ∧ node.isWritable = true

/-- Each text is the written form of its node around the texts of the nodes in it. -/
def Renders (s : Store) (root : NodeId) (texts : NodeId → String) : Prop :=
  s.Obeys s.Holds (fun _ node texts => node.rendering texts) root texts

theorem local_rendering : s.Local s.Holds fun _ node texts => node.rendering texts := by
  intro id node f g hnode h
  have hvalues : node.properties.values.map (·.rendering f) =
      node.properties.values.map (·.rendering g) := by
    refine List.map_congr_left fun v hv => ?_
    cases v with
    | node n => exact h n.id ⟨node, n, hnode, hv, rfl⟩
    | scalar | bool | text | unset => rfl
  simp only [Node.rendering, hvalues]

theorem writable_iff (hnode : s.get? id = some node) :
    s.Writable id ↔ node.isWritable = true ∧ ∀ child, s.Holds id child → s.Writable child := by
  constructor
  · intro h
    obtain ⟨node', hnode', hwritable⟩ := h id .root
    cases hnode.symm.trans hnode'
    refine ⟨hwritable, fun child hchild other hother => h other ?_⟩
    exact reaches_iff.2 (.head hchild (reaches_iff.1 hother))
  · rintro ⟨hwritable, hbelow⟩ other hother
    rcases (reaches_iff.1 hother).cases_head with rfl | ⟨child, hchild, hother⟩
    · exact ⟨node, hnode, hwritable⟩
    · exact hbelow child hchild other (reaches_iff.2 hother)

theorem Writable.there (h : s.Writable root) (hid : s.Reaches root id) : s.get? id ≠ none := by
  obtain ⟨node, hnode, -⟩ := h id hid
  rw [hnode]
  exact Option.some_ne_none node

/-- Of what a node holds something can be said property by property. -/
theorem forall_holds_iff (hnode : s.get? id = some node) {P : NodeId → Prop} :
    (∀ child, s.Holds id child → P child) ↔ ∀ n, .node n ∈ node.properties.values → P n.id := by
  constructor
  · exact fun h n hn => h n.id ⟨node, n, hnode, hn, rfl⟩
  · rintro h child ⟨node', n, hnode', hn, rfl⟩
    cases hnode.symm.trans hnode'
    exact h n hn

/-! ## Writing a node -/

section

variable {P : Store → Prop} {C : NodeRef → Prop} {texts : NodeId → String}
  {child : NodeId → Task Store String}

theorem settles_scalar (id : NodeId) (x : Float) :
    Task.Settles P (Double.isFinite x = true) (Double.toPlain x)
      (Task.ofExcept (scalarText id x)) := by
  unfold scalarText
  split
  · rename_i hx
    exact (Task.settles_pure _).congr (iff_of_true trivial hx)
  · rename_i hx
    exact Task.settles_throw hx _ _

theorem settles_operand (id : NodeId) (key : Key) {value : Value}
    (h : ∀ n, value = .node n → Task.Settles P (C n) (texts n.id) (child n.id)) :
    Task.Settles P (value.isOperand = true ∧ ∀ n, value = .node n → C n)
      (value.rendering texts) (operandText child id key value) := by
  cases value with
  | scalar x => exact (settles_scalar id x).congr (by simp [Value.isOperand])
  | node n => exact (h n rfl).congr (by simp [Value.isOperand])
  | bool | text | unset => exact Task.settles_throw (by simp [Value.isOperand]) _ _

theorem settles_argument (id : NodeId) (key : Key) {value : Value}
    (h : ∀ n, value = .node n → Task.Settles P (C n) (texts n.id) (child n.id)) :
    Task.Settles P (value.isArgument = true ∧ ∀ n, value = .node n → C n)
      (value.rendering texts) (argumentText child id key value) := by
  cases value with
  | scalar x => exact (settles_scalar id x).congr (by simp [Value.isArgument])
  | bool b => exact (Task.settles_pure _).congr (by simp [Value.isArgument])
  | node n => exact (h n rfl).congr (by simp [Value.isArgument])
  | text | unset => exact Task.settles_throw (by simp [Value.isArgument]) _ _

theorem settles_propertyTexts {write : Key → Value → Task Store String} {D : Value → Prop}
    {text : Value → String} {entries : List (Key × Value)}
    (h : ∀ e ∈ entries, Task.Settles P (D e.2) (text e.2) (write e.1 e.2)) :
    Task.Settles P (∀ v ∈ entries.map Prod.snd, D v) ((entries.map Prod.snd).map text)
      (propertyTexts write entries) := by
  induction entries with
  | nil => exact (Task.settles_pure _).congr (by simp)
  | cons e es ih =>
    have hrest := (ih fun e' he' => h e' (List.mem_cons_of_mem e he')).map (text e.2 :: ·)
    exact ((h e List.mem_cons_self).bind hrest).congr (by simp)

/-- A node is written if it can be and the nodes in it are written, around their texts. -/
theorem settles_bodyText (id : NodeId) (node : Node)
    (h : ∀ n, .node n ∈ node.properties.values →
      Task.Settles P (C n) (texts n.id) (child n.id)) :
    Task.Settles P (node.isWritable = true ∧ ∀ n, .node n ∈ node.properties.values → C n)
      (node.rendering texts) (bodyText child id node) := by
  have hchild {e : Key × Value} (he : e ∈ node.properties.entries) (n : NodeRef)
      (hn : e.2 = .node n) : Task.Settles P (C n) (texts n.id) (child n.id) :=
    h n (hn ▸ List.mem_map_of_mem he)
  -- the nodes in the values, put together from what is said of each value
  have hall (values : List Value) (p : Value → Bool) :
      (∀ v ∈ values, p v = true ∧ ∀ n, v = .node n → C n) ↔
        values.all p = true ∧ ∀ n, .node n ∈ values → C n := by
    rw [List.all_eq_true]
    constructor
    · exact fun h => ⟨fun v hv => (h v hv).1, fun n hn => (h _ hn).2 n rfl⟩
    · exact fun h v hv => ⟨h.1 v hv, fun n hn => h.2 n (hn ▸ hv)⟩
  cases hform : node.form with
  | chain op =>
    cases hempty : node.properties.isEmpty with
    | true =>
      simp only [bodyText, Node.isWritable, hform, hempty]
      exact Task.settles_throw (by simp) _ _
    | false =>
      simp only [bodyText, Node.rendering, Node.isWritable, hform, hempty]
      have htexts := (settles_propertyTexts fun e he =>
        settles_operand id e.1 (hchild he)).congr (hall node.properties.values _)
      exact htexts.map fun texts =>
        "( " ++ String.intercalate (" " ++ op.symbol ++ " ") texts ++ " )"
  | call name =>
    simp only [bodyText, Node.rendering, Node.isWritable, hform]
    have htexts := (settles_propertyTexts fun e he =>
      settles_argument id e.1 (hchild he)).congr (hall node.properties.values _)
    exact htexts.map fun texts => name ++ "(" ++ String.intercalate ", " texts ++ ")"

end

theorem settles_keepText (hnode : s.get? id = some node) (text : String) :
    Task.Settles (Alike s) True () (keepText id text) := by
  intro t ht
  obtain ⟨node', hnode', -⟩ := ht.get? hnode
  obtain ⟨hexec, halike⟩ := alike_keepText hnode' text
  rw [hexec]
  exact ⟨ht.trans halike, Task.answers_ok ()⟩

/-- **A node inside the nodes of a path is written exactly if everything at and below it can be, and
its walks are clear of the path and end within the levels that are left.** In every store with the
same kinds and properties the text is the same. -/
theorem settles_write (s : Store) (limit levels : Nat) (path : List NodeId) (id : NodeId) :
    Task.Settles (Alike s) (Clear s.Holds levels path id ∧ s.Writable id)
      (s.unfold (fun _ node texts => node.rendering texts) levels id)
      (write limit levels path id) := by
  induction levels generalizing path id with
  | zero =>
    unfold write
    split <;> exact Task.settles_throw (fun h => not_clear_zero h.1) _ _
  | succ levels ih =>
    by_cases hpath : id ∈ path
    · rw [write, if_pos hpath]
      exact Task.settles_throw (fun h => h.1.notMem hpath) _ _
    rw [write_succ limit levels hpath]
    intro t ht
    cases hnode : s.get? id with
    | none =>
      have hnone : t.get? id = none := by simpa [hnode] using ht id
      rw [Task.exec_bind_error (exec_fetch_none hnone)]
      exact ⟨ht, Task.answers_error (fun h => h.2.there .root hnode) _ _⟩
    | some node =>
      obtain ⟨node', hnode', hkind, hproperties⟩ := ht.get? hnode
      have hform := Node.form_congr hkind
      have hbody : Task.Settles (Alike s)
          (node'.isWritable = true ∧ ∀ n, .node n ∈ node'.properties.values →
            Clear s.Holds levels (id :: path) n.id ∧ s.Writable n.id)
          (node'.rendering (s.unfold (fun _ node texts => node.rendering texts) levels))
          (bodyText (write limit levels (id :: path)) id node') :=
        settles_bodyText id node' fun n _ => ih (id :: path) n.id
      have hkept (text : String) : Task.Settles (Alike s) True text
          (do keepText id text; return text) :=
        (settles_keepText hnode text).map fun _ => text
      have hwritten := Task.Settles.bind (f := fun text => do keepText id text; return text) hbody
        (hkept _)
      rw [Task.exec_bind_ok (exec_fetch hnode'), unfold_succ hnode,
        ← Node.rendering_congr hkind hproperties]
      refine (hwritten.congr ?_) t ht
      rw [Node.isWritable_congr hkind hproperties, hproperties]
      rw [writable_iff hnode, clear_succ_iff hpath, forall_holds_iff hnode, forall_holds_iff hnode]
      constructor
      · rintro ⟨⟨hnode, hbelow⟩, -⟩
        exact ⟨fun n hn => (hbelow n hn).1, hnode, fun n hn => (hbelow n hn).2⟩
      · rintro ⟨hclear, hnode, hbelow⟩
        exact ⟨⟨hnode, fun n hn => ⟨hclear n hn, hbelow n hn⟩⟩, trivial⟩

/-- When a node has an expression, and which, is settled by the kinds and the properties. -/
theorem compile_ok_iff {t : Store} (halike : Alike s t) {limit : Nat} {text : String} :
    ((compile limit root).exec t).1 = .ok text ↔ (Within s.Holds limit root ∧ s.Writable root) ∧
      text = s.unfold (fun _ node texts => node.rendering texts) limit root := by
  have hanswer := ((settles_write s limit limit [] root) t halike).2.congr
    (and_congr_left' clear_nil_iff)
  exact hanswer text

theorem compile_of_alike {t : Store} (halike : Alike s t) {limit : Nat} {text : String} :
    ((compile limit root).exec t).1 = .ok text ↔ ((compile limit root).exec s).1 = .ok text :=
  (compile_ok_iff halike).trans (compile_ok_iff (.refl s)).symm

/-! ## Faults -/

section

variable {P : Store → Prop} {E : Fault → Prop} {child : NodeId → Task Store String}

theorem safe_scalar (id : NodeId) {x : Float} (hx : Double.isFinite x = true) :
    (Task.ofExcept (scalarText id x)).Safe P E := by
  rw [scalarText, if_pos hx]
  exact Task.safe_pure _

theorem safe_operand (id : NodeId) (key : Key) {value : Value} (hvalue : value.isOperand = true)
    (h : ∀ n, value = .node n → (child n.id).Safe P E) :
    (operandText child id key value).Safe P E := by
  cases value with
  | scalar x => exact safe_scalar id hvalue
  | node n => exact h n rfl
  | bool | text | unset => cases hvalue

theorem safe_argument (id : NodeId) (key : Key) {value : Value} (hvalue : value.isArgument = true)
    (h : ∀ n, value = .node n → (child n.id).Safe P E) :
    (argumentText child id key value).Safe P E := by
  cases value with
  | scalar x => exact safe_scalar id hvalue
  | bool b => exact Task.safe_pure _
  | node n => exact h n rfl
  | text | unset => cases hvalue

/-- Writing a node that can be written goes wrong only as writing a node in it does. -/
theorem safe_bodyText_of_isWritable (id : NodeId) (hnode : node.isWritable = true)
    (h : ∀ n, .node n ∈ node.properties.values → (child n.id).Safe P E) :
    (bodyText child id node).Safe P E := by
  have hchild {e : Key × Value} (he : e ∈ node.properties.entries) (n : NodeRef)
      (hn : e.2 = .node n) : (child n.id).Safe P E := h n (hn ▸ List.mem_map_of_mem he)
  have hall {p : Value → Bool} (hp : node.properties.values.all p = true) (e : Key × Value)
      (he : e ∈ node.properties.entries) : p e.2 = true :=
    List.all_eq_true.1 hp e.2 (List.mem_map_of_mem he)
  unfold Node.isWritable at hnode
  cases hform : node.form with
  | chain op =>
    rw [hform, Bool.and_eq_true, Bool.not_eq_true'] at hnode
    simp only [bodyText, hform, hnode.1]
    exact (safe_propertyTexts fun e he =>
      safe_operand id e.1 (hall hnode.2 e he) (hchild he)).bind fun _ => Task.safe_pure _
  | call name =>
    rw [hform] at hnode
    simp only [bodyText, hform]
    exact (safe_propertyTexts fun e he =>
      safe_argument id e.1 (hall hnode e he) (hchild he)).bind fun _ => Task.safe_pure _

end

/-- The path of a walk that has met no cycle is of different nodes. So if there are no more nodes
than levels, a walk through nodes that can be written ends before the levels do. -/
theorem safe_write (hwritable : s.Writable root) (limit levels : Nat) {path : List NodeId}
    (hid : s.Reaches root id) (hpath : ∀ other ∈ path, s.Reaches root other) (hnodup : path.Nodup)
    (hcard : {id | s.Reaches root id}.ncard ≤ path.length + levels) :
    (write limit levels path id).Safe (Alike s) (fun e => ∃ other, e = .cyclic other) := by
  induction levels generalizing path id with
  | zero =>
    unfold write
    split
    · exact Task.safe_throw ⟨id, rfl⟩
    · rename_i hnew
      have hlength : (id :: path).length ≤ {id | s.Reaches root id}.ncard := by
        refine length_le_ncard (List.nodup_cons.2 ⟨hnew, hnodup⟩)
          (finite_reaches fun _ => hwritable.there) ?_
        exact List.forall_mem_cons.2 ⟨hid, hpath⟩
      rw [List.length_cons] at hlength
      omega
  | succ levels ih =>
    by_cases hnew : id ∈ path
    · rw [write, if_pos hnew]
      exact Task.safe_throw ⟨id, rfl⟩
    rw [write_succ limit levels hnew]
    intro t ht
    obtain ⟨node, hnode, hnodeWritable⟩ := hwritable id hid
    obtain ⟨node', hnode', hkind, hproperties⟩ := ht.get? hnode
    rw [Task.exec_bind_ok (exec_fetch hnode')]
    rw [← Node.isWritable_congr hkind hproperties] at hnodeWritable
    have hbody : (bodyText (write limit levels (id :: path)) id node').Safe (Alike s)
        (fun e => ∃ other, e = .cyclic other) := by
      refine safe_bodyText_of_isWritable id hnodeWritable fun n hn => ?_
      refine ih (.property hid hnode (hproperties ▸ hn)) (List.forall_mem_cons.2 ⟨hid, hpath⟩)
        (List.nodup_cons.2 ⟨hnew, hnodup⟩) ?_
      rw [List.length_cons]
      omega
    have hkept (text : String) : (keepText id text).Safe (Alike s)
        (fun e => ∃ other, e = .cyclic other) := by
      intro u hu
      obtain ⟨hkeeps, hanswer⟩ := settles_keepText hnode text u hu
      refine ⟨hkeeps, fun e he => ?_⟩
      rw [(hanswer ()).2 ⟨trivial, rfl⟩] at he
      cases he
    exact (hbody.bind fun text => (hkept text).bind fun _ => Task.safe_pure text) t ht

/-- If all nodes can be written, and the limit is not below their number, then walks end within it
unless there is a cycle. -/
theorem within_iff_acyclic {limit : Nat} (hwritable : s.Writable root)
    (hcard : {id | s.Reaches root id}.ncard ≤ limit) :
    Within s.Holds limit root ↔ ∀ id, s.Reaches root id → ¬ TransGen s.Holds id id := by
  constructor
  · exact fun h id hid => (h.below (reaches_iff.1 hid)).not_cycle
  · intro h
    have hfinite : {id | s.Reaches root id}.Finite := finite_reaches fun _ => hwritable.there
    simp only [reaches_iff] at hfinite hcard h
    exact within_of_acyclic hfinite hcard h

/-- **Which graphs have an expression, and which one.** Compiling a node succeeds exactly if every
walk from it has at most as many nodes as the limit, and every node at or below it is there and can
be written. The text is then the written form of the node around those of the nodes below. If they
can all be written, and are not more than the limit, the one thing that can go wrong is a cycle, and
it does exactly if there is one. -/
theorem compile_of_walks (s : Store) (limit : Nat) (root : NodeId) :
    ((∃ text, ((compile limit root).exec s).1 = .ok text) ↔
      Within s.Holds limit root ∧ s.Writable root) ∧
    (∀ text, ((compile limit root).exec s).1 = .ok text ↔
      (Within s.Holds limit root ∧ s.Writable root) ∧
        ∃ texts, s.Renders root texts ∧ text = texts root) ∧
    (s.Writable root → {id | s.Reaches root id}.ncard ≤ limit →
      (∀ e, ((compile limit root).exec s).1 = .error e → ∃ id, e = .cyclic id) ∧
      ((∃ id, ((compile limit root).exec s).1 = .error (.cyclic id)) ↔
        ∃ id, s.Reaches root id ∧ TransGen s.Holds id id)) := by
  have hok : (∃ text, ((compile limit root).exec s).1 = .ok text) ↔
      Within s.Holds limit root ∧ s.Writable root := by
    simp only [compile_ok_iff (.refl s), exists_and_left, exists_eq, and_true]
  refine ⟨hok, fun text => ?_, fun hwritable hcard => ?_⟩
  · rw [compile_ok_iff (.refl s)]
    refine and_congr_right fun ⟨hwithin, hwritable⟩ => (exists_obeys_iff local_rendering hwithin
      fun id hid => hwritable.there (reaches_iff.2 hid)).symm
  · have hfaults := (safe_write hwritable limit limit .root (List.forall_mem_nil _) List.nodup_nil
      (Nat.le_trans hcard (Nat.le_add_left limit 0)) s (.refl s)).2
    refine ⟨hfaults, ?_⟩
    rw [and_iff_left hwritable, within_iff_acyclic hwritable hcard] at hok
    -- a cycle is there exactly if there is no text
    rw [← not_iff_not, not_exists]
    simp only [not_exists, not_and]
    rw [← hok]
    constructor
    · intro hnever
      cases houtcome : ((compile limit root).exec s).1 with
      | ok text => exact ⟨text, rfl⟩
      | error e =>
        obtain ⟨id, rfl⟩ := hfaults e houtcome
        exact absurd houtcome (hnever id)
    · rintro ⟨text, htext⟩ id hid
      rw [htext] at hid
      cases hid

/-- What is closed under holding and has the root has all nodes below it. -/
theorem Reaches.mem {nodes : List NodeId} (h : s.Reaches root id) (hroot : root ∈ nodes)
    (hclosed : ∀ id ∈ nodes, ∀ node ∈ s.get? id, ∀ v ∈ node.properties.values, ∀ n ∈ v.node?,
      n.id ∈ nodes) : id ∈ nodes := by
  induction h with
  | root => exact hroot
  | property _ hnode hn ih => exact hclosed _ ih _ hnode _ hn _ rfl

/-- A sum and a product that hold each other. -/
def ring : Store :=
  ((empty.add (.fresh (.chain .add) (.positional [.node ⟨2, false⟩]))).2.add
    (.fresh (.chain .mul) (.positional [.node ⟨1, false⟩, .scalar 2.0]))).2

theorem compile_of_ring : ring.Writable 1 ∧ {id | ring.Reaches 1 id}.ncard ≤ 2 ∧
    ∃ id, ((compile 2 1).exec ring).1 = .error (.cyclic id) := by
  have hmem (id : NodeId) (hid : ring.Reaches 1 id) : id ∈ [1, 2] :=
    hid.mem (by decide) (by decide +kernel)
  have hwritable : ring.Writable 1 := by
    have hall : ∀ id ∈ [1, 2], (ring.get? id).any Node.isWritable = true := by decide +kernel
    exact fun id hid => (Option.any_eq_true ..).1 (hall id (hmem id hid))
  have hcard : {id | ring.Reaches 1 id}.ncard ≤ 2 := by
    have hsub : {id | ring.Reaches 1 id} ⊆ (([1, 2] : List NodeId).toFinset : Set NodeId) :=
      fun id hid => List.mem_toFinset.2 (hmem id hid)
    exact (Set.ncard_le_ncard hsub).trans_eq (Set.ncard_coe_finset _)
  have hforth : ring.Holds 1 2 := ⟨_, ⟨2, false⟩, rfl, by decide +kernel, rfl⟩
  have hback : ring.Holds 2 1 := ⟨_, ⟨1, false⟩, rfl, by decide +kernel, rfl⟩
  refine ⟨hwritable, hcard, ?_⟩
  exact ((compile_of_walks ring 2 1).2.2 hwritable hcard).2.2
    ⟨1, .root, .tail (.single hforth) hback⟩

end Store

end Patchbay
