import Patchbay.Command.Run
import Patchbay.Proofs.Building
import Patchbay.Proofs.Closed
import Patchbay.Proofs.Turn

/-!
# Nodes that hold older nodes only

A constructor is given nodes that are there already, and its own node gets the next number. So the
nodes of a replica hold nodes with smaller numbers only, until a `set` puts a newer one into an
older one. The numbers that messages use do not matter for that.

* `Store.Founded`: a node all of whose nodes are older, and so are theirs;
* `Store.Founded.safe_write`, `Store.Founded.safe_tick`: neither an expression nor a sample of such
  a node meets a cycle;
* `Receiver.founded_apply`: every message but a `set` leaves a replica with such nodes, also if it
  fails;
* `Receiver.acyclic_of_constructions`: so no list of such messages makes a cycle, and no file that
  is compiled does.
-/

namespace Patchbay

/-- Whether the causes of the fault may tell of a cycle: it is one, or it passes on a text. -/
def Fault.tellsCycle : Fault → Bool
  | cyclic _ | file _ => true
  | _ => false

theorem head?_toList_append {s t : String} {c : Char} (h : s.toList.head? = some c) :
    (s ++ t).toList.head? = some c := by
  rw [String.toList_append, List.head?_append, h, Option.some_or]

theorem getLast?_toList_append {s t : String} {c : Char} (h : t.toList.getLast? = some c) :
    (s ++ t).toList.getLast? = some c := by
  rw [String.toList_append, List.getLast?_append, h, Option.some_or]

/-- The character that a fault in words begins with. -/
def Fault.opening : Fault → Char
  | emptyOperator .. => 'O'
  | arity .. => '\''
  | compilation .. | evaluation .. => 'C'
  | cyclic .. | unknownMethod .. => 'N'
  | overflow .. | rejected .. => 'S'
  | transport .. => 'T'
  | unknownReference .. | unknownConstructor .. => 'U'
  | invalidArgument .. | config .. | file .. => 'I'

theorem Fault.head?_message (e : Fault) : e.message.toList.head? = some e.opening := by
  cases e with
  | transport | unknownReference | unknownConstructor | config | file | rejected =>
    exact head?_toList_append rfl
  | emptyOperator | cyclic =>
    exact head?_toList_append (head?_toList_append rfl)
  | compilation | evaluation | overflow | invalidArgument =>
    exact head?_toList_append (head?_toList_append (head?_toList_append rfl))
  | unknownMethod =>
    exact head?_toList_append (head?_toList_append (head?_toList_append (head?_toList_append rfl)))
  | arity =>
    exact head?_toList_append (head?_toList_append (head?_toList_append
      (head?_toList_append (head?_toList_append rfl))))

/-- No other fault reads like a cycle. -/
theorem Fault.message_ne_cyclic {e : Fault} (h : ∀ other, e ≠ cyclic other) (id : NodeId) :
    e.message ≠ (cyclic id).message := by
  intro heq
  cases e with
  | cyclic other => exact h other rfl
  | unknownMethod node method =>
    -- both begin with the node, and so it is their ends that differ
    have hquote : (unknownMethod node method).message.toList.getLast? = some '\'' :=
      getLast?_toList_append rfl
    have hletter : (cyclic id).message.toList.getLast? = some 'f' := getLast?_toList_append rfl
    rw [heq, hletter] at hquote
    cases hquote
  | _ =>
    have hopening := head?_message (cyclic id)
    rw [← heq, head?_message] at hopening
    cases hopening

theorem Rejection.message_ne_cyclic (why : Rejection) (id : NodeId) :
    why.message ≠ (Fault.cyclic id).message := by
  intro heq
  have hopening := Fault.head?_message (.cyclic id)
  rw [← heq] at hopening
  cases why with
  | malformed => cases hopening
  | mismatch expected =>
    rw [show (mismatch expected).message.toList.head? = some 'd' from
      head?_toList_append rfl] at hopening
    cases hopening

theorem Command.cyclic_notMem_faultCauses {e : Fault} (h : e.tellsCycle = false) (id : NodeId) :
    (Fault.cyclic id).message ∉ faultCauses e := by
  have hmessage : (Fault.cyclic id).message ≠ e.message := by
    refine (Fault.message_ne_cyclic ?_ id).symm
    rintro other rfl
    cases h
  cases e with
  | file text => cases h
  | rejected why =>
    rw [faultCauses, List.mem_cons, List.mem_singleton]
    rintro (heq | heq)
    · exact hmessage heq
    · exact why.message_ne_cyclic id heq.symm
  | _ => exact fun hmem => hmessage (List.mem_singleton.1 hmem)

namespace Store

variable {s s' s₀ : Store} {id root : NodeId} {node : Node}

/-- The node is there and holds older nodes only, and so do they. -/
inductive Founded (s : Store) : NodeId → Prop
  | intro {id : NodeId} {node : Node} (hnode : s.get? id = some node)
    (hbelow : ∀ n, .node n ∈ node.properties.values → n.id < id)
    (hfounded : ∀ n, .node n ∈ node.properties.values → Founded s n.id) : Founded s id

/-- What becomes of a store in which every node stays and keeps its properties. -/
theorem Founded.of_kept (h : s.Founded id) (hkept : ∀ other node, s.get? other = some node →
    ∃ node', s'.get? other = some node' ∧ node'.properties = node.properties) :
    s'.Founded id := by
  induction h with
  | intro hnode hbelow _ ih =>
    obtain ⟨node', hnode', hproperties⟩ := hkept _ _ hnode
    rw [← hproperties] at hbelow ih
    exact .intro hnode' hbelow ih

theorem Founded.reaches (h : s.Founded root) (hid : s.Reaches root id) : s.Founded id := by
  induction hid with
  | root => exact h
  | property _ hnode hn ih =>
    cases ih with
    | intro hnode' _ hfounded =>
      cases hnode.symm.trans hnode'
      exact hfounded _ hn

theorem Founded.lt_nextId (h : s.Founded id) : id < s.nextId := by
  cases h with
  | intro hnode => exact Store.lt_nextId hnode

/-- A node that is made of founded nodes is founded. -/
theorem founded_add (h : ∀ n, .node n ∈ node.properties.values → s.Founded n.id) :
    (s.add node).2.Founded s.nextId := by
  refine .intro (get?_add_self s node) (fun n hn => (h n hn).lt_nextId) fun n hn => ?_
  refine (h n hn).of_kept fun other node' hother => ⟨node', ?_, rfl⟩
  exact (get?_add_of_lt (Store.lt_nextId hother) node).trans hother

/-! ## Expressions -/

theorem safe_propertyTexts {P : Store → Prop} {E : Fault → Prop}
    {write : Key → Value → Task Store String} {entries : List (Key × Value)}
    (h : ∀ e ∈ entries, (write e.1 e.2).Safe P E) : (propertyTexts write entries).Safe P E := by
  induction entries with
  | nil => exact Task.safe_pure _
  | cons e es ih =>
    exact (h e List.mem_cons_self).bind fun _ =>
      (ih fun e' he' => h e' (List.mem_cons_of_mem e he')).bind fun _ => Task.safe_pure _

theorem scalarText_error {x : Float} {e : Fault} (h : scalarText id x = .error e) :
    e = .compilation id (.notFinite x) := by
  unfold scalarText at h
  split at h
  · cases h
  · cases h
    rfl

/-- Writing a node fails with a cycle only if writing one of its nodes does. -/
theorem safe_bodyText {P : Store → Prop} {child : NodeId → Task Store String}
    (h : ∀ n, .node n ∈ node.properties.values → (child n.id).Safe P (·.tellsCycle = false)) :
    (bodyText child id node).Safe P (·.tellsCycle = false) := by
  have hscalar (x : Float) :
      (Task.ofExcept (scalarText id x) : Task Store String).Safe P (·.tellsCycle = false) :=
    Task.safe_ofExcept fun e he => scalarText_error he ▸ rfl
  have hoperand (e : Key × Value) (he : e ∈ node.properties.entries) :
      (operandText child id e.1 e.2).Safe P (·.tellsCycle = false) := by
    obtain ⟨key, value⟩ := e
    cases value with
    | scalar x => exact hscalar x
    | node n => exact h n (List.mem_map_of_mem he)
    | bool | text | unset => exact Task.safe_throw rfl
  have hargument (e : Key × Value) (he : e ∈ node.properties.entries) :
      (argumentText child id e.1 e.2).Safe P (·.tellsCycle = false) := by
    obtain ⟨key, value⟩ := e
    cases value with
    | scalar x => exact hscalar x
    | bool b => exact Task.safe_pure _
    | node n => exact h n (List.mem_map_of_mem he)
    | text | unset => exact Task.safe_throw rfl
  unfold bodyText
  split
  · split
    · exact Task.safe_throw rfl
    · exact (safe_propertyTexts hoperand).bind fun _ => Task.safe_pure _
  · exact (safe_propertyTexts hargument).bind fun _ => Task.safe_pure _

theorem safe_keepText (id : NodeId) (text : String) :
    (keepText id text).Safe (Alike s₀) (·.tellsCycle = false) := by
  intro s hs
  cases hnode : s.get? id with
  | none =>
    rw [keepText, Task.exec_bind_error (exec_fetch_none hnode)]
    exact ⟨hs, fun e he => by cases he; rfl⟩
  | some node =>
    obtain ⟨hexec, halike⟩ := alike_keepText hnode text
    rw [hexec]
    exact ⟨hs.trans halike, fun e he => by cases he⟩

/-- The path of a walk from a founded node is of newer nodes, and so it meets none of them again. -/
theorem Founded.safe_write (h : s₀.Founded id) (limit levels : Nat) {path : List NodeId}
    (hpath : ∀ other ∈ path, id < other) :
    (write limit levels path id).Safe (Alike s₀) (·.tellsCycle = false) := by
  induction levels generalizing path id with
  | zero =>
    rw [write, if_neg fun hmem => Nat.lt_irrefl id (hpath id hmem)]
    exact Task.safe_throw rfl
  | succ levels ih =>
    rw [write_succ limit levels fun hmem => Nat.lt_irrefl id (hpath id hmem)]
    cases h with
    | @intro _ node hnode hbelow hfounded =>
      intro s hs
      obtain ⟨node', hnode', -, hproperties⟩ := hs.get? hnode
      rw [Task.exec_bind_ok (exec_fetch hnode')]
      rw [← hproperties] at hbelow hfounded
      have hchild (n : NodeRef) (hn : .node n ∈ node'.properties.values) :
          (write limit levels (id :: path) n.id).Safe (Alike s₀) (·.tellsCycle = false) := by
        refine ih (hfounded n hn) fun other hother => ?_
        rcases List.mem_cons.1 hother with rfl | hother
        · exact hbelow n hn
        · exact Nat.lt_trans (hbelow n hn) (hpath other hother)
      exact ((safe_bodyText hchild).bind fun text =>
        (safe_keepText id text).bind fun _ => Task.safe_pure _) s hs

theorem Founded.safe_compile (h : s.Founded id) (limit : Nat) :
    (compile limit id).Safe (Alike s) (·.tellsCycle = false) :=
  h.safe_write limit limit nofun

/-! ## Samples -/

theorem safe_propertyInputs {P : Pass → Prop} {E : Fault → Prop}
    {eval : Key → Value → Task Pass Float} {entries : List (Key × Value)}
    (h : ∀ e ∈ entries, (eval e.1 e.2).Safe P E) : (propertyInputs eval entries).Safe P E := by
  induction entries with
  | nil => exact Task.safe_pure _
  | cons e es ih =>
    exact (h e List.mem_cons_self).bind fun _ =>
      (ih fun e' he' => h e' (List.mem_cons_of_mem e he')).bind fun _ => Task.safe_pure _

theorem safe_processOnce (id : NodeId) (inputs : List Float) :
    (processOnce id inputs).Safe (fun pass => Alike s₀ pass.store) (·.tellsCycle = false) := by
  refine Task.Safe.bind (fun pass hpass => ?_) fun _ _ hpass => ⟨hpass, nofun⟩
  rw [onStore, Task.exec_onPart]
  refine ⟨alike_process id inputs pass.store hpass, fun e he => ?_⟩
  cases hnode : pass.store.get? id with
  | none =>
    rw [process, Task.exec_bind_error (exec_fetch_none hnode)] at he
    cases he
    rfl
  | some node =>
    rw [exec_process hnode] at he
    cases he

theorem Founded.safe_sample (h : s₀.Founded id) (limit levels : Nat) {path : List NodeId}
    (hpath : ∀ other ∈ path, id < other) :
    (sample limit levels path id).Safe (fun pass => Alike s₀ pass.store)
      (·.tellsCycle = false) := by
  induction levels generalizing path id with
  | zero =>
    refine Task.safe_get_bind fun pass _ => ?_
    split
    · exact Task.safe_pure _
    · rw [if_neg fun hmem => Nat.lt_irrefl id (hpath id hmem)]
      exact Task.safe_throw rfl
  | succ levels ih =>
    intro pass hpass
    cases hnoted : pass.outputs.lookup id with
    | some x =>
      rw [sample_of_noted limit (levels + 1) path hnoted]
      exact ⟨hpass, nofun⟩
    | none =>
      cases h with
      | @intro _ node hnode hbelow hfounded =>
        obtain ⟨node', hnode', -, hproperties⟩ := hpass.get? hnode
        rw [exec_sample_succ limit levels (fun hmem => Nat.lt_irrefl id (hpath id hmem)) hnoted
          hnode']
        rw [← hproperties] at hbelow hfounded
        refine (Task.Safe.bind (safe_propertyInputs fun e he => ?_)
          fun inputs => safe_processOnce id inputs) pass hpass
        obtain ⟨key, value⟩ := e
        cases value with
        | node n =>
          have hn : .node n ∈ node'.properties.values := List.mem_map_of_mem he
          refine ih (hfounded n hn) fun other hother => ?_
          rcases List.mem_cons.1 hother with rfl | hother
          · exact hbelow n hn
          · exact Nat.lt_trans (hbelow n hn) (hpath other hother)
        | scalar | bool => exact Task.safe_pure _
        | text | unset => exact Task.safe_throw rfl

theorem Founded.safe_tick (h : s₀.Founded id) (limit : Nat) :
    (tick limit id).Safe (Alike s₀) (·.tellsCycle = false) := by
  have hpath : ∀ other ∈ ([] : List NodeId), id < other := nofun
  exact fun s hs => h.safe_sample limit limit hpath ⟨s, []⟩ hs

theorem Founded.safe_render (h : s₀.Founded id) (limit count : Nat) :
    (render limit id count).Safe (Alike s₀) (·.tellsCycle = false) := by
  induction count with
  | zero => exact Task.safe_pure _
  | succ count ih =>
    exact (h.safe_tick limit).bind fun _ => ih.bind fun _ => Task.safe_pure _

end Store

/-! ## Constructors -/

theorem Kind.mem_values_constructor {k : Kind} {bag : Bag} {node : Node}
    (h : k.constructor bag = .ok node) {n : NodeRef} (hn : .node n ∈ node.properties.values) :
    .node n ∈ bag.values := by
  cases k with
  | chain op => exact Maker.mem_values (m := .chain op bag.values) h hn
  | function f => exact Maker.mem_values (m := .function f bag.values) h hn
  | map => exact Maker.mem_values (m := .mapOf bag) h hn
  | sequence => exact Maker.mem_values (m := .sequenceOf bag) h hn

theorem Kind.tellsCycle_constructor {k : Kind} {bag : Bag} {e : Fault}
    (h : k.constructor bag = .error e) : e.tellsCycle = false := by
  rcases constructor_error h with ⟨_, rfl⟩ | ⟨_, _, _, rfl⟩ | ⟨_, _, rfl⟩ <;> rfl

namespace Receiver

/-- The nodes in the table, and those among some values, hold older nodes only. -/
structure Rests (values : List Value) (r : Receiver) : Prop where
  constructors : r.replica.constructors = Replica.builtins
  table : ∀ id ref, r.replica.get? id = some ref → r.store.Founded ref.id
  values : ∀ n, .node n ∈ values → r.store.Founded n.id

variable {r : Receiver} {values values' : List Value}

theorem Rests.mono (h : r.Rests values) (hsub : values' ⊆ values) : r.Rests values' :=
  ⟨h.constructors, h.table, fun n hn => h.values n (hsub hn)⟩

theorem Rests.cons_node (h : r.Rests values) {ref : NodeRef} (href : r.store.Founded ref.id) :
    r.Rests (.node ref :: values) := by
  refine ⟨h.constructors, h.table, fun n hn => ?_⟩
  rcases List.mem_cons.1 hn with heq | hn
  · cases heq
    exact href
  · exact h.values n hn

theorem Rests.cons_of_node?_eq_none (h : r.Rests values) {v : Value} (hv : v.node? = none) :
    r.Rests (v :: values) := by
  refine ⟨h.constructors, h.table, fun n hn => ?_⟩
  rcases List.mem_cons.1 hn with rfl | hn
  · cases hv
  · exact h.values n hn

/-- How a task ends that makes something with values: the receiver rests on those as well, or the
task fails, and not with a cycle. -/
def RestsOn {α : Type} (values : List Value) (made : α → List Value) :
    Except Fault α → Receiver → Prop
  | .ok a, r => r.Rests (made a ++ values)
  | .error e, r => r.Rests values ∧ e.tellsCycle = false

/-- A constructor makes a node of nodes that were there before. -/
theorem Rests.filed {bag : Bag} (h : r.Rests (bag.values ++ values)) {k : Kind} {node : Node}
    (hmade : k.constructor bag = .ok node) (id : NodeId) :
    (r.filed id node).Rests (.node (r.store.add node).1 :: values) := by
  have hkept {other : NodeId} (hother : r.store.Founded other) :
      (r.filed id node).store.Founded other :=
    hother.of_kept fun i node' hi =>
      ⟨node', (Store.get?_add_of_lt (Store.lt_nextId hi) node).trans hi, rfl⟩
  have hnew : (r.filed id node).store.Founded r.store.nextId :=
    Store.founded_add fun n hn =>
      h.values n (List.mem_append_left values (Kind.mem_values_constructor hmade hn))
  have hrests : (r.filed id node).Rests values := by
    refine ⟨h.constructors, fun other ref href => ?_, fun n hn => ?_⟩
    · rcases of_get?_filed href with ⟨-, hid⟩ | hold
      · rw [hid]
        exact hnew
      · exact hkept (h.table other ref hold)
    · exact hkept (h.values n (List.mem_append_right bag.values hn))
  exact hrests.cons_node hnew

/-- What is built of nodes that hold older nodes only is such a node, and no cycle is met. -/
theorem handling_rests : Handling Rests (·.tellsCycle = false) where
  mono := Rests.mono
  plain hr hv := hr.cons_of_node?_eq_none hv
  table hr href := hr.cons_node (hr.table _ _ href)
  filed hr hname hmade id := by
    obtain ⟨k, -, rfl⟩ := Replica.exists_kind hr.constructors hname
    exact hr.filed hmade id
  unknownReference _ := rfl
  unknownConstructor _ := rfl
  refused hr hname hmade := by
    obtain ⟨k, -, rfl⟩ := Replica.exists_kind hr.constructors hname
    exact Kind.tellsCycle_constructor hmade

theorem restsOn_of_lands {α : Type} {made : α → List Value} {outcome : Except Fault α}
    (h : Lands Rests (·.tellsCycle = false) values made outcome r) :
    RestsOn values made outcome r := by
  cases outcome <;> exact h

/-- The value of a snapshot is a node of older ones, if it is a node. -/
theorem ends_build (snapshot : Snapshot) (values : List Value) :
    (build snapshot).Ends (Rests values) (RestsOn values fun v => [v]) :=
  (handling_rests.ends_build snapshot values).imp (fun _ hr => hr) fun _ _ => restsOn_of_lands

/-! ## Messages -/

/-- A call of another method than `set` changes no property. -/
theorem Rests.call (h : r.Rests values) {method : String} (hmethod : method ≠ "set") (id : NodeId)
    (args : List Value) : ((onStore (Store.call id method args)).exec r).2.Rests values := by
  have hkept {other : NodeId} (hother : r.store.Founded other) :
      ((Store.call id method args).exec r.store).2.Founded other := by
    refine hother.of_kept fun i node hnode => ?_
    obtain ⟨node', hnode', -, hproperties⟩ := Store.get?_call hnode id method args
    rw [Bag.edit_of_ne hmethod, ite_self] at hproperties
    exact ⟨node', hnode', hproperties⟩
  rw [onStore, Task.exec_onPart]
  exact ⟨h.constructors, fun i ref href => hkept (h.table i ref href),
    fun n hn => hkept (h.values n hn)⟩

theorem Rests.of_ends {α : Type} {made : α → List Value} {t : Task Receiver α}
    (h : t.Ends (Rests []) (RestsOn [] made)) : t.Keeps (Rests []) := by
  intro r hr
  have hend := h r hr
  rcases hexec : t.exec r with ⟨e | a, r'⟩
  · rw [hexec] at hend
    exact hend.1
  · rw [hexec] at hend
    exact hend.mono (List.nil_subset _)

/-- **Every message but a `set` leaves nodes that hold older nodes only**, also if it fails. -/
theorem founded_apply {m : Message} (h : ∀ c, m = .call c → c.method ≠ "set") :
    (apply m).Keeps (Rests []) := by
  cases m with
  | create c =>
    have hcreate : (create c).Ends (Rests []) (RestsOn [] fun ref => [.node ref]) :=
      (handling_rests.ends_create c).imp (fun _ hr => hr) fun _ _ => restsOn_of_lands
    exact (Rests.of_ends hcreate).bind fun _ => Task.keeps_pure _
  | call c =>
    have hargs : (buildAll c.args).Ends (Rests []) (RestsOn [] fun made => made) :=
      (handling_rests.ends_buildAll c.args []).imp (fun _ hr => hr) fun _ _ => restsOn_of_lands
    exact (keeps_lookup _ c.object).bind fun target =>
      (Rests.of_ends hargs).bind fun args _ hr => hr.call (h c rfl) target.id args

theorem founded_applyAll {messages : List Message}
    (h : ∀ c, .call c ∈ messages → c.method ≠ "set") (hr : r.Rests []) :
    ((applyAll messages).run r).2.Rests [] := by
  induction messages generalizing r with
  | nil => exact hr
  | cons m messages ih =>
    rw [applyAll_cons]
    refine ih (fun c hc => h c (List.mem_cons_of_mem m hc)) (founded_apply ?_ r hr)
    rintro c rfl
    exact h c List.mem_cons_self

end Receiver

/-! ## Files -/

namespace Command

/-- What is made of the text of a snapshot: something goes wrong with the text, with the graph, or
with its root, or there is a graph. -/
theorem rebuild_eq (path text : String) :
    rebuild path text =
      match Snapshot.read text with
      | .error why => .error ⟨"Invalid snapshot in " ++ path, [why.message]⟩
      | .ok snapshot =>
        match (Receiver.build snapshot).exec .start with
        | (.error fault, _) => .error (.of "Failed to rebuild graph" fault)
        | (.ok value, receiver) =>
          match value.node? with
          | some root => .ok (receiver, root)
          | none => .error ⟨path ++ " does not describe a node", []⟩ := by
  unfold rebuild
  cases Snapshot.read text <;> rfl

/-- A snapshot makes a graph without cycles, or the report on it does not tell of one. -/
theorem rebuild_cases (path text : String) :
    (∃ receiver root, rebuild path text = .ok (receiver, root) ∧
      receiver.store.Founded root.id) ∨
    ∃ failure, rebuild path text = .error failure ∧
      ∀ id, (Fault.cyclic id).message ∉ failure.causes := by
  rw [rebuild_eq]
  cases hread : Snapshot.read text with
  | error why =>
    refine .inr ⟨_, rfl, fun id hmem => ?_⟩
    exact why.message_ne_cyclic id (List.mem_singleton.1 hmem).symm
  | ok snapshot =>
    have hend := Receiver.ends_build snapshot [] .start ⟨rfl, nofun, nofun⟩
    rcases hexec : (Receiver.build snapshot).exec .start with ⟨e | v, receiver⟩
    · rw [hexec] at hend
      refine .inr ⟨.of "Failed to rebuild graph" e, ?_, cyclic_notMem_faultCauses hend.2⟩
      simp only [hexec]
    · rw [hexec] at hend
      cases hroot : v.node? with
      | none =>
        refine .inr ⟨⟨path ++ " does not describe a node", []⟩, ?_, fun _ => List.not_mem_nil⟩
        simp only [hexec, hroot]
      | some root =>
        refine .inl ⟨receiver, root, ?_, hend.values root ?_⟩
        · simp only [hexec, hroot]
        · rw [Value.node?_eq_some.1 hroot]
          exact List.mem_cons_self

/-- A file that is compiled has no cycle: what it fails with, if it fails, is something else. -/
theorem cyclic_notMem_causes {files : Files} {path text : String} (hfile : files path = .ok text)
    {ticks : Nat} {failure : Failure} (h : (compiled files path ticks).2 = .error failure)
    (id : NodeId) : (Fault.cyclic id).message ∉ failure.causes := by
  have hread : readFile files path = .ok text := by rw [readFile, hfile]; rfl
  have hrebuild : readFile files path >>= rebuild path = rebuild path text := by rw [hread]; rfl
  rcases rebuild_cases path text with ⟨receiver, root, heq, hroot⟩ | ⟨failure', heq, hcauses⟩
  · have hcompile := hroot.safe_compile Store.defaultDepth receiver.store (.refl _)
    rcases hexec : (Store.compile Store.defaultDepth root.id).exec receiver.store with
      ⟨e | expression, store⟩
    · rw [hexec] at hcompile
      simp only [compiled, hrebuild, heq, hexec] at h
      cases h
      exact cyclic_notMem_faultCauses (hcompile.2 e rfl) id
    · rw [hexec] at hcompile
      have hrender := hroot.safe_render Store.defaultDepth ticks store hcompile.1
      rcases hsamples : ((Store.render Store.defaultDepth root.id ticks).exec store).1 with
        e | samples
      · simp only [compiled, hrebuild, heq, hexec, sampleLines, hsamples] at h
        cases h
        exact cyclic_notMem_faultCauses (hrender.2 e hsamples) id
      · simp only [compiled, hrebuild, heq, hexec, sampleLines, hsamples] at h
        cases h
  · simp only [compiled, hrebuild, heq] at h
    cases h
    exact hcauses id

end Command

namespace Receiver

/-- What messages make of a replica without nodes. -/
def fed (store : Store) (messages : List Message) : Receiver :=
  ((applyAll messages).run ⟨store, .empty⟩).2

/-- **Messages without a `set` make no cycle.** After such messages, applied in order to a replica
without nodes, whatever numbers they use and whether they fail or not, each node that can be reached
from the table holds nodes with smaller numbers only. So no node of the table fails to be compiled
or sampled because of a cycle, also after others have been. Nor does the compiling of a file. -/
theorem acyclic_of_constructions (store : Store) {messages : List Message}
    (h : ∀ c, .call c ∈ messages → c.method ≠ "set") :
    (∀ id ref, (fed store messages).replica.get? id = some ref →
      (∀ other, (fed store messages).store.Reaches ref.id other →
        ∃ node, (fed store messages).store.get? other = some node ∧
          ∀ n, .node n ∈ node.properties.values → n.id < other) ∧
      ∀ store', Store.Alike (fed store messages).store store' → ∀ limit other,
        ((Store.compile limit ref.id).exec store').1 ≠ .error (.cyclic other) ∧
        ((Store.tick limit ref.id).exec store').1 ≠ .error (.cyclic other)) ∧
    ∀ (files : Command.Files) path text, files path = .ok text → ∀ ticks failure,
      (Command.compiled files path ticks).2 = .error failure →
        ∀ id, (Fault.cyclic id).message ∉ failure.causes := by
  refine ⟨fun id ref href => ?_, fun files path text hfile ticks failure hfailure =>
    Command.cyclic_notMem_causes hfile hfailure⟩
  have hstart : Rests [] ⟨store, .empty⟩ := ⟨rfl, nofun, nofun⟩
  have hfounded := (founded_applyAll h hstart).table id ref href
  refine ⟨fun other hother => ?_, fun store' halike limit other => ⟨fun hcyclic => ?_,
    fun hcyclic => ?_⟩⟩
  · cases hfounded.reaches hother with
    | intro hnode hbelow => exact ⟨_, hnode, hbelow⟩
  · cases (hfounded.safe_compile limit store' halike).2 _ hcyclic
  · cases (hfounded.safe_tick limit store' halike).2 _ hcyclic

/-- Messages that refer to the node that they define, reuse a number, replace a node inside a
message that then fails, and call. -/
def selfNaming : List Message :=
  [.create ⟨["Add"], [("0", .created ["Add"] [("0", .scalar 1.0)] 1)], 1⟩,
    .create ⟨["Sequence"], [("rate", .scalar 2.0), ("0", .node 2 "sequence"
      [("0", .reference 1)]), ("1", .reference 2)], 2⟩,
    .create ⟨["Mul"], [("0", .reference 1), ("1", .reference 2)], 1⟩,
    .create ⟨["Sine"], [("0", .node 2 "add" [("0", .reference 1)])], 3⟩,
    .call ⟨1, "start", [.node 1 "sub" [("0", .reference 1), ("1", .reference 2)]]⟩]

theorem acyclic_of_selfNaming : (fed .empty selfNaming).replica.ids = [1, 2] ∧
    ∀ id ref, (fed .empty selfNaming).replica.get? id = some ref → ∀ limit other,
      ((Store.tick limit ref.id).exec (fed .empty selfNaming).store).1 ≠
        .error (.cyclic other) := by
  have hcalls : ∀ c, .call c ∈ selfNaming → c.method ≠ "set" := by
    intro c hc
    simp only [selfNaming, List.mem_cons, reduceCtorEq, false_or, List.not_mem_nil, or_false,
      Message.call.injEq] at hc
    subst hc
    decide
  refine ⟨by decide +kernel, fun id ref href limit other => ?_⟩
  obtain ⟨-, hnever⟩ := (acyclic_of_constructions .empty hcalls).1 id ref href
  exact (hnever _ (.refl _) limit other).2

end Receiver

end Patchbay
