import Patchbay.Proofs.Genuine
import Patchbay.Proofs.Term

/-!
# What an expression says about a sample

A node means a term (`Store.Means`): its kind over what its properties mean. Nothing that is only
kept between samples is in it, as long as there is no sequence. The two walks over the graph agree
on it, one that writes every node as often as it occurs, and one that samples it once:

* `Store.means_of_write`: an expression that is written is the text of what the node means;
* `Store.sample_of_means`: a node that means a term has the value of the term as its output;
* `Store.tick_of_compile_eq`: so nodes with the same expression have the same sample.
-/

namespace Patchbay

/-! ## Meaning -/

/-- A value means a number, or what the node means that it is. -/
inductive Value.Means (child : NodeId → Term → Prop) : Value → Term → Prop
  | number {v : Value} {x : Float} (h : v.number? = some x) (finite : Double.isFinite x = true) :
    Means child v (.number x finite)
  | node {n : NodeRef} {t : Term} (h : child n.id t) : Means child (.node n) t

/-- A node means its kind over what its properties mean, of which it has enough. A sequence means
nothing. -/
inductive Node.Means (child : NodeId → Term → Prop) (n : Node) : Term → Prop
  | intro {first : Term} {rest : List Term} (hsequence : n.isSequence = false)
    (hsize : n.kind.leastSize ≤ n.properties.size)
    (hproperties : List.Forall₂ (fun e t => e.2.Means child t) n.properties.entries
      (first :: rest)) : Means child n (.node n.kind first rest)

/-- What the node `id` means that stands inside the nodes of `path`, with `levels` levels left. -/
def Store.Means (s : Store) : Nat → List NodeId → NodeId → Term → Prop
  | 0, _, _, _ => False
  | levels + 1, path, id, t =>
    id ∉ path ∧ ∃ node, s.get? id = some node ∧ node.Means (s.Means levels (id :: path)) t

theorem eq_of_forall₂ {α β : Type} {R R' : α → β → Prop} {as : List α} {bs bs' : List β}
    (h : List.Forall₂ R as bs) (h' : List.Forall₂ R' as bs')
    (heq : ∀ a b b', R a b → R' a b' → b = b') : bs = bs' := by
  induction h generalizing bs' with
  | nil =>
    cases h'
    rfl
  | cons hhead _ ih =>
    cases h' with
    | cons hhead' htail' => rw [heq _ _ _ hhead hhead', ih htail']

/-- What a node means depends neither on where it stands nor on the levels left. -/
theorem Store.Means.unique {s : Store} {levels levels' : Nat} {path path' : List NodeId}
    {id : NodeId} {t t' : Term} (h : s.Means levels path id t)
    (h' : s.Means levels' path' id t') : t = t' := by
  induction levels generalizing levels' path path' id t t' with
  | zero => exact False.elim h
  | succ levels ih =>
    cases levels' with
    | zero => exact False.elim h'
    | succ levels' =>
      obtain ⟨-, node, hnode, hmeans⟩ := h
      obtain ⟨-, node', hnode', hmeans'⟩ := h'
      cases hnode.symm.trans hnode'
      obtain ⟨-, -, hproperties⟩ := hmeans
      obtain ⟨-, -, hproperties'⟩ := hmeans'
      have hvalue (v : Value) (t t' : Term) (ht : v.Means (s.Means levels (id :: path)) t)
          (ht' : v.Means (s.Means levels' (id :: path')) t') : t = t' := by
        cases ht with
        | number hx =>
          cases ht' with
          | number hy =>
            cases hx.symm.trans hy
            rfl
          | node => cases hx
        | node hn =>
          cases ht' with
          | number hy => cases hy
          | node hn' => exact ih hn hn'
      cases eq_of_forall₂ hproperties hproperties' fun e => hvalue e.2
      rfl

/-! ## Stores that mean the same -/

/-- What a node is without its state and the expression written for it. -/
def Node.outline (n : Node) : Kind × Bag := (n.kind, n.properties)

theorem Node.isSequence_eq (n : Node) : n.isSequence = decide (n.kind = .sequence) := by
  obtain ⟨body, properties, expression⟩ := n
  cases body <;> rfl

theorem Node.kind_of_isSequence {n : Node} (h : n.isSequence = true) : n.kind = .sequence := by
  rw [isSequence_eq] at h
  exact of_decide_eq_true h

theorem Node.name_of_isSequence {n : Node} (h : n.isSequence = true) : n.name = "sequence" := by
  rw [name_eq, kind_of_isSequence h]
  rfl

namespace Store

/-- The same nodes, apart from their states and the expressions written for them. -/
def Alike (s s' : Store) : Prop :=
  ∀ id, (s'.get? id).map Node.outline = (s.get? id).map Node.outline

variable {s s' s₀ : Store} {id : NodeId}

theorem Alike.refl (s : Store) : Alike s s := fun _ => rfl

theorem Alike.trans {s'' : Store} (h : Alike s s') (h' : Alike s' s'') : Alike s s'' :=
  fun id => (h' id).trans (h id)

theorem Alike.get? (h : Alike s s') {node : Node} (hnode : s.get? id = some node) :
    ∃ node', s'.get? id = some node' ∧ node'.kind = node.kind ∧
      node'.properties = node.properties := by
  have hid := h id
  rw [hnode] at hid
  obtain ⟨node', hnode', houtline⟩ := Option.map_eq_some_iff.1 hid
  exact ⟨node', hnode', congrArg Prod.fst houtline, congrArg Prod.snd houtline⟩

theorem Alike.symm (h : Alike s s') : Alike s' s := fun id => (h id).symm

theorem alike_put {node node' : Node} (hnode : s.get? id = some node)
    (h : node'.outline = node.outline) : Alike s (s.put id node') := by
  intro other
  rw [get?_put hnode]
  split
  · rename_i heq
    rw [heq, hnode, Option.map_some, Option.map_some, h]
  · rfl

/-! ## Writing -/

/-- The texts that the task writes, in stores like `s₀`, are of terms that the relation allows. -/
def Spells (s₀ : Store) (R : Term → Prop) (task : Task Store String) : Prop :=
  ∀ s text s', Alike s₀ s → task.exec s = (.ok text, s') →
    Alike s₀ s' ∧ ∃ t, R t ∧ text.toList = t.chars

variable {C : NodeId → Term → Prop} {child : NodeId → Task Store String}

theorem spells_number {v : Value} {x : Float} {text : String} {e : Except Fault String}
    (hx : v.number? = some x) (hfinite : Double.isFinite x = true) (htext : Double.toPlain x = text)
    (he : ∀ text', e = .ok text' → text' = text) :
    Spells s₀ (v.Means C) (Task.ofExcept e) := by
  intro s text' s' hs h
  rw [Task.exec_ofExcept] at h
  obtain ⟨he', rfl⟩ := Prod.mk.inj h
  obtain rfl := he text' he'
  refine ⟨hs, .number x hfinite, .number hx hfinite, ?_⟩
  rw [← htext, Double.toPlain, Double.Layout.text, String.toList_ofList, Term.chars]

theorem spells_scalar (id : NodeId) (x : Float) :
    Spells s₀ ((Value.scalar x).Means C) (Task.ofExcept (scalarText id x)) := by
  unfold scalarText
  split
  · rename_i hx
    exact spells_number rfl hx rfl fun _ h => (Except.ok.inj h).symm
  · intro s text s' _ h
    cases h

theorem spells_bool (b : Bool) :
    Spells s₀ ((Value.bool b).Means C) (pure (if b then "1" else "0")) := by
  cases b with
  | true =>
    exact spells_number rfl (by decide +kernel) (by decide +kernel)
      fun _ h => (Except.ok.inj h).symm
  | false =>
    exact spells_number rfl (by decide +kernel) (by decide +kernel)
      fun _ h => (Except.ok.inj h).symm

theorem spells_child {n : NodeRef} (h : Spells s₀ (C n.id) (child n.id)) :
    Spells s₀ ((Value.node n).Means C) (child n.id) := by
  intro s text s' hs hexec
  obtain ⟨hs', t, ht, htext⟩ := h s text s' hs hexec
  exact ⟨hs', t, .node ht, htext⟩

theorem spells_throw {R : Term → Prop} (e : Fault) : Spells s₀ R (throw e) := by
  intro s text s' _ h
  cases h

theorem spells_operand (id : NodeId) (key : Key) {value : Value}
    (h : ∀ n, value = .node n → Spells s₀ (C n.id) (child n.id)) :
    Spells s₀ (value.Means C) (operandText child id key value) := by
  cases value with
  | scalar x => exact spells_scalar id x
  | node n => exact spells_child (h n rfl)
  | bool | text | unset => exact spells_throw _

theorem spells_argument (id : NodeId) (key : Key) {value : Value}
    (h : ∀ n, value = .node n → Spells s₀ (C n.id) (child n.id)) :
    Spells s₀ (value.Means C) (argumentText child id key value) := by
  cases value with
  | scalar x => exact spells_scalar id x
  | bool b => exact spells_bool b
  | node n => exact spells_child (h n rfl)
  | text | unset => exact spells_throw _

theorem spells_properties {write : Key → Value → Task Store String} {entries : List (Key × Value)}
    (h : ∀ e ∈ entries, Spells s₀ (e.2.Means C) (write e.1 e.2)) {s s' : Store}
    {texts : List String} (hs : Alike s₀ s)
    (hexec : (propertyTexts write entries).exec s = (.ok texts, s')) :
    Alike s₀ s' ∧ ∃ ts, List.Forall₂ (fun e t => e.2.Means C t) entries ts ∧
      texts.map String.toList = ts.map Term.chars := by
  induction entries generalizing s texts with
  | nil =>
    cases hexec
    exact ⟨hs, [], .nil, rfl⟩
  | cons e es ih =>
    obtain ⟨text, s₁, htext, hexec⟩ := Task.exec_bind_ok_iff.1 hexec
    obtain ⟨texts', s₂, htexts, hexec⟩ := Task.exec_bind_ok_iff.1 hexec
    cases hexec
    obtain ⟨hs₁, t, ht, hchars⟩ := h e List.mem_cons_self s text s₁ hs htext
    obtain ⟨hs₂, ts, hts, hmap⟩ := ih (fun e' he' => h e' (List.mem_cons_of_mem e he')) hs₁ htexts
    refine ⟨hs₂, t :: ts, .cons ht hts, ?_⟩
    rw [List.map_cons, List.map_cons, hchars, hmap]

theorem chars_of_texts {k : Kind} {texts : List String} {first : Term} {rest : List Term}
    (h : texts.map String.toList = (first :: rest).map Term.chars) {separator text : String}
    (hseparator : separator.toList = k.separator)
    (htext : text.toList = k.opening ++ ((separator.intercalate texts).toList ++ k.closing)) :
    text.toList = (Term.node k first rest).chars := by
  rw [htext, String.toList_intercalate, hseparator, h, Term.intercalate_chars, Term.chars,
    List.append_assoc]

/-- The texts of the properties, with what stands around and between them in a node of the kind. -/
theorem spells_closed {node : Node} (hsequence : node.isSequence = false)
    (hsize : node.kind.leastSize ≤ node.properties.size)
    {write : Key → Value → Task Store String} (separator : String) (close : List String → String)
    (hwrite : ∀ e ∈ node.properties.entries, Spells s₀ (e.2.Means C) (write e.1 e.2))
    (hseparator : separator.toList = node.kind.separator)
    (hclose : ∀ texts, (close texts).toList =
      node.kind.opening ++ ((separator.intercalate texts).toList ++ node.kind.closing)) :
    Spells s₀ (node.Means C)
      (do return close (← propertyTexts write node.properties.entries)) := by
  intro s text s' hs hexec
  obtain ⟨texts, s₁, htexts, hexec⟩ := Task.exec_bind_ok_iff.1 hexec
  cases hexec
  obtain ⟨hs₁, ts, hts, hmap⟩ := spells_properties hwrite hs htexts
  cases ts with
  | nil =>
    have hlength : node.properties.size = 0 := hts.length_eq
    have hleast := node.kind.one_le_leastSize
    omega
  | cons first rest =>
    exact ⟨hs₁, _, .intro hsequence hsize hts, chars_of_texts hmap hseparator (hclose texts)⟩

/-- The text of a node that is no sequence and has enough properties is of what it means. -/
theorem spells_body (id : NodeId) {node : Node} (hsequence : node.isSequence = false)
    (hsize : node.kind.leastSize ≤ node.properties.size)
    (h : ∀ n, .node n ∈ node.properties.values → Spells s₀ (C n.id) (child n.id)) :
    Spells s₀ (node.Means C) (bodyText child id node) := by
  have hchild {e : Key × Value} (he : e ∈ node.properties.entries) (n : NodeRef)
      (hn : e.2 = .node n) : Spells s₀ (C n.id) (child n.id) :=
    h n (hn ▸ List.mem_map_of_mem he)
  obtain ⟨body, properties, expression⟩ := node
  cases body with
  | chain op =>
    have hempty : properties.isEmpty = false := by
      rw [Bag.isEmpty, List.isEmpty_eq_false_iff, ← List.length_pos_iff]
      exact hsize
    simp only [bodyText, Node.form, hempty]
    refine spells_closed hsequence hsize (" " ++ op.symbol ++ " ") _
      (fun e he => spells_operand id e.1 (hchild he)) ?_ fun texts => ?_
    · rw [String.toList_append, String.toList_append]
      rfl
    · rw [String.toList_append, String.toList_append, List.append_assoc]
      rfl
  | function f =>
    refine spells_closed hsequence hsize ", " _ (fun e he => spells_argument id e.1 (hchild he)) rfl
      fun texts => ?_
    rw [String.toList_append, String.toList_append, String.toList_append, List.append_assoc]
    rfl
  | map value =>
    refine spells_closed hsequence hsize ", " _ (fun e he => spells_argument id e.1 (hchild he)) rfl
      fun texts => ?_
    rw [String.toList_append, String.toList_append, String.toList_append, List.append_assoc]
    rfl
  | sequence p => cases hsequence

theorem alike_keepText {node : Node} (hnode : s.get? id = some node) (text : String) :
    (keepText id text).exec s = (.ok (), s.put id (node.withExpression text)) ∧
      Alike s (s.put id (node.withExpression text)) := by
  refine ⟨?_, alike_put hnode rfl⟩
  unfold keepText
  rw [Task.exec_bind_ok (exec_fetch hnode)]
  rfl

/-! ## What is below a node -/

/-- The nodes that a node holds, directly or through others. -/
inductive Reaches (s : Store) (root : NodeId) : NodeId → Prop
  | root : Reaches s root root
  | property {id : NodeId} {node : Node} {n : NodeRef} (h : Reaches s root id)
    (hnode : s.get? id = some node) (hn : .node n ∈ node.properties.values) : Reaches s root n.id

/-- No sequence is at the root or below it. -/
def Stateless (s : Store) (root : NodeId) : Prop :=
  ∀ id node, s.Reaches root id → s.get? id = some node → node.isSequence = false

theorem write_succ (limit levels : Nat) {path : List NodeId} (hpath : id ∉ path) :
    write limit (levels + 1) path id = do
      let node ← fetch id
      let text ← bodyText (write limit levels (id :: path)) id node
      keepText id text
      return text := by
  rw [write, if_neg hpath]

/-- A text that is written for a node below the root is of what the node means. -/
theorem means_of_write {root : NodeId} (hgenuine : s₀.Genuine) (hstateless : s₀.Stateless root)
    (limit levels : Nat) (path : List NodeId) {id : NodeId} (hid : s₀.Reaches root id) :
    Spells s₀ (s₀.Means levels path id) (write limit levels path id) := by
  induction levels generalizing path id with
  | zero =>
    unfold write
    split
    · exact spells_throw _
    · exact spells_throw _
  | succ levels ih =>
    by_cases hpath : id ∈ path
    · rw [write, if_pos hpath]
      exact spells_throw _
    · rw [write_succ limit levels hpath]
      intro s text s' hs hexec
      obtain ⟨node, s₁, hfetch, hbody⟩ := Task.exec_bind_ok_iff.1 hexec
      obtain ⟨text', s₂, htext, hrest⟩ := Task.exec_bind_ok_iff.1 hbody
      obtain ⟨hnode, rfl⟩ := get?_of_fetch hfetch
      obtain ⟨node₀, hnode₀, hkind, hproperties⟩ := hs.symm.get? hnode
      have hsequence : node.isSequence = false := by
        rw [Node.isSequence_eq, ← hkind, ← Node.isSequence_eq]
        exact hstateless id node₀ hid hnode₀
      have hsize : node.kind.leastSize ≤ node.properties.size := by
        rw [← hkind, ← hproperties]
        exact (hgenuine id node₀ hnode₀).leastSize_le
      obtain ⟨hs₂, t, ht, hchars⟩ := spells_body id hsequence hsize
        (fun n hn => ih (id :: path) (.property hid hnode₀ (hproperties ▸ hn))) s₁ text' s₂ hs htext
      obtain ⟨node₂, hnode₂, -⟩ := hs₂.get? hnode₀
      obtain ⟨hkeep, halike⟩ := alike_keepText hnode₂ text'
      rw [Task.exec_bind_ok hkeep] at hrest
      cases hrest
      refine ⟨hs₂.trans halike, t, ⟨hpath, node₀, hnode₀, ?_⟩, hchars⟩
      cases ht with
      | intro _ _ hts =>
        rw [← hkind]
        exact .intro (hstateless id node₀ hid hnode₀) (hgenuine id node₀ hnode₀).leastSize_le
          (hproperties ▸ hts)

/-! ## Sampling -/

/-- The outputs noted in a pass are the values of what the nodes mean. -/
structure Pass.Sound (s₀ : Store) (pass : Pass) : Prop where
  alike : Alike s₀ pass.store
  outputs : ∀ id x, pass.outputs.lookup id = some x →
    ∀ levels path t, s₀.Means levels path id t → x = t.value

/-- The task gives the number `x` in each sound pass, and leaves a sound pass. -/
def Yields (s₀ : Store) (x : Float) (task : Task Pass Float) : Prop :=
  ∀ pass, Pass.Sound s₀ pass → ∃ pass', task.exec pass = (.ok x, pass') ∧ Pass.Sound s₀ pass'

theorem yields_property {child : NodeId → Task Pass Float} (id : NodeId) (key : Key) {value : Value}
    {t : Term} (ht : value.Means C t) (h : ∀ id' t', C id' t' → Yields s₀ t'.value (child id')) :
    Yields s₀ t.value (propertyInput child id key value) := by
  cases ht with
  | node hn => exact h _ _ hn
  | number hx hfinite =>
    intro pass hpass
    refine ⟨pass, ?_, hpass⟩
    cases value with
    | scalar x =>
      cases hx
      rfl
    | bool b =>
      cases hx
      rfl
    | text t => cases hx
    | node n => cases hx
    | unset => cases hx

theorem yields_properties {eval : Key → Value → Task Pass Float} {entries : List (Key × Value)}
    {ts : List Term} (hts : List.Forall₂ (fun e t => e.2.Means C t) entries ts)
    (h : ∀ (e : Key × Value) (t : Term), e.2.Means C t → Yields s₀ t.value (eval e.1 e.2))
    {pass : Pass} (hpass : Pass.Sound s₀ pass) :
    ∃ pass', (propertyInputs eval entries).exec pass = (.ok (Term.values ts), pass') ∧
      Pass.Sound s₀ pass' := by
  induction hts generalizing pass with
  | nil => exact ⟨pass, rfl, hpass⟩
  | @cons e t es ts ht _ ih =>
    obtain ⟨pass₁, hexec, hpass₁⟩ := h e t ht pass hpass
    obtain ⟨pass₂, hexec', hpass₂⟩ := ih hpass₁
    refine ⟨pass₂, ?_, hpass₂⟩
    rw [propertyInputs, Task.exec_bind_ok hexec, Task.exec_bind_ok hexec']
    rfl

/-- A node that is no sequence and has enough inputs puts out what a new node of its kind does. -/
theorem process_eq_output {node : Node} (hsequence : node.isSequence = false) {inputs : List Float}
    (hsize : node.kind.leastSize ≤ inputs.length) :
    (node.process inputs).1 = node.kind.output inputs := by
  obtain ⟨body, properties, expression⟩ := node
  cases body with
  | chain op => rfl
  | function f => rfl
  | map value =>
    match inputs, hsize with
    | _ :: _ :: _ :: _ :: _ :: _ :: _ :: _, _ => rfl
  | sequence p => cases hsequence

theorem sample_of_noted (limit levels : Nat) (path : List NodeId) {pass : Pass} {x : Float}
    (h : pass.outputs.lookup id = some x) :
    (sample limit levels path id).exec pass = (.ok x, pass) := by
  cases levels with
  | zero =>
    rw [sample, Task.exec_get_bind, h]
    rfl
  | succ levels =>
    rw [sample, Task.exec_get_bind, h]
    rfl

theorem exec_sample_succ (limit levels : Nat) {path : List NodeId} (hpath : id ∉ path) {pass : Pass}
    (h : pass.outputs.lookup id = none) {node : Node} (hnode : pass.store.get? id = some node) :
    (sample limit (levels + 1) path id).exec pass =
      (propertyInputs (propertyInput (sample limit levels (id :: path)) id)
        node.properties.entries >>= processOnce id).exec pass := by
  rw [sample, Task.exec_get_bind, h]
  simp only
  rw [if_neg hpath]
  have hfetch : (onStore (fetch id)).exec pass = (.ok node, pass) := by
    rw [onStore, Task.exec_onPart, exec_fetch hnode]
  exact Task.exec_bind_ok hfetch

/-- A node that is processed in a sound pass leaves a sound pass. -/
theorem Pass.Sound.processed {pass : Pass} (hpass : Pass.Sound s₀ pass) {t : Term}
    {levels : Nat} {path : List NodeId} (ht : s₀.Means levels path id t) {node : Node}
    (hnode : pass.store.get? id = some node) {inputs : List Float}
    (houtput : (node.process inputs).1 = t.value) :
    ∃ pass', (processOnce id inputs).exec pass = (.ok t.value, pass') ∧ Pass.Sound s₀ pass' := by
  have hkeeps := node.process_keeps inputs
  refine ⟨⟨pass.store.put id (node.process inputs).2, (id, t.value) :: pass.outputs⟩, ?_,
    hpass.alike.trans (alike_put hnode (Prod.ext hkeeps.1 hkeeps.2)), ?_⟩
  · have hprocess : (onStore (process id inputs)).exec pass =
        (.ok t.value, { pass with store := pass.store.put id (node.process inputs).2 }) := by
      rw [onStore, Task.exec_onPart, exec_process hnode, houtput]
    rw [processOnce, Task.exec_bind_ok hprocess]
    rfl
  · intro other x hx levels' path' t' ht'
    by_cases hother : other = id
    · subst hother
      rw [List.lookup_cons_self] at hx
      cases hx
      rw [ht.unique ht']
    · rw [List.lookup_cons, beq_false_of_ne hother] at hx
      exact hpass.outputs other x hx levels' path' t' ht'

/-- A node that means a term has the value of the term as its output. -/
theorem sample_of_means (limit : Nat) {levels : Nat} {path : List NodeId} {t : Term}
    (ht : s₀.Means levels path id t) : Yields s₀ t.value (sample limit levels path id) := by
  induction levels generalizing path id t with
  | zero => exact False.elim ht
  | succ levels ih =>
    intro pass hpass
    cases hlookup : pass.outputs.lookup id with
    | some x =>
      rw [sample_of_noted limit _ path hlookup, hpass.outputs id x hlookup _ path t ht]
      exact ⟨pass, rfl, hpass⟩
    | none =>
      have hmeans := ht
      obtain ⟨hpath, node₀, hnode₀, hnode₀'⟩ := ht
      obtain @⟨first, rest, hsequence, hsize, hts⟩ := hnode₀'
      obtain ⟨node, hnode, -, hproperties⟩ := hpass.alike.get? hnode₀
      have hchild (id' : NodeId) (t' : Term) (ht' : s₀.Means levels (id :: path) id' t') :
          Yields s₀ t'.value (sample limit levels (id :: path) id') := ih ht'
      obtain ⟨pass₁, hexec, hpass₁⟩ := yields_properties hts
        (fun e t ht => yields_property id e.1 ht hchild) hpass
      obtain ⟨node₁, hnode₁, hkind₁, -⟩ := hpass₁.alike.get? hnode₀
      rw [exec_sample_succ limit levels hpath hlookup hnode, hproperties, Task.exec_bind_ok hexec]
      have hsequence₁ : node₁.isSequence = false := by
        rw [Node.isSequence_eq, hkind₁, ← Node.isSequence_eq]
        exact hsequence
      have hsize₁ : node₁.kind.leastSize ≤ (Term.values (first :: rest)).length := by
        rw [hkind₁, Term.values_eq_map, List.length_map, ← hts.length_eq]
        exact hsize
      refine hpass₁.processed hmeans hnode₁ ?_
      rw [process_eq_output hsequence₁ hsize₁, hkind₁, Term.value, Term.values]

theorem tick_of_means {limit : Nat} {t : Term} (ht : s₀.Means limit [] id t) (hs : Alike s₀ s) :
    ((tick limit id).exec s).1 = .ok t.value := by
  obtain ⟨pass, hexec, -⟩ := sample_of_means limit ht ⟨s, []⟩ ⟨hs, nofun⟩
  rw [tick, Task.exec_onPart, hexec]

/-- A node that has an expression means a term with that text, and has the value of the term as its
sample, before the expression was written and afterwards. -/
theorem means_of_compile {root : NodeId} (hgenuine : s.Genuine) (hstateless : s.Stateless root)
    {limit : Nat} {text : String} (h : (compile limit root).exec s = (.ok text, s')) :
    ∃ t : Term, text.toList = t.chars ∧ ((tick limit root).exec s).1 = .ok t.value ∧
      ((tick limit root).exec s').1 = .ok t.value := by
  obtain ⟨hs', t, ht, htext⟩ :=
    means_of_write hgenuine hstateless limit limit [] .root s text s' (.refl s) h
  exact ⟨t, htext, tick_of_means ht (.refl s), tick_of_means ht hs'⟩

/-- **The expression determines the sample.** Two nodes, each in a store of its own or in the same,
at or below which there is no sequence: if both have the same expression under a limit, then under
that limit both have a sample, and the same one, before the expressions were written and
afterwards. -/
theorem tick_of_compile_eq {s t s' t' : Store} {a b : NodeId} {limit : Nat} {text : String}
    (hs : s.Genuine) (ht : t.Genuine) (ha : s.Stateless a) (hb : t.Stateless b)
    (hcompile : (compile limit a).exec s = (.ok text, s'))
    (hcompile' : (compile limit b).exec t = (.ok text, t')) :
    ∃ x : Float, ((tick limit a).exec s).1 = .ok x ∧ ((tick limit b).exec t).1 = .ok x ∧
      ((tick limit a).exec s').1 = .ok x ∧ ((tick limit b).exec t').1 = .ok x := by
  obtain ⟨u, hu, htick, htick'⟩ := means_of_compile hs ha hcompile
  obtain ⟨v, hv, hsame, hsame'⟩ := means_of_compile ht hb hcompile'
  have hvalue : v.value = u.value := Term.value_eq_of_chars (hv.symm.trans hu)
  rw [hvalue] at hsame hsame'
  exact ⟨u.value, htick, hsame, htick', hsame'⟩

/-- The magnitude of a truth value, which is added to itself as the only operand of a product. -/
def sharedSum : Store :=
  (((empty.add (.fresh (.function .abs) (.positional [.bool true]))).2.add
    (.fresh (.chain .mul) (.positional [.node ⟨1, false⟩]))).2.add
    (.fresh (.chain .add) (.positional [.node ⟨2, false⟩, .node ⟨1, false⟩]))).2

/-- The same with a number, two magnitudes and a sum of one operand. -/
def spreadSum : Store :=
  ((((empty.add (.fresh (.function .abs) (.positional [.scalar 1.0]))).2.add
    (.fresh (.chain .add) (.positional [.node ⟨1, false⟩]))).2.add
    (.fresh (.function .abs) (.positional [.scalar 1.0]))).2.add
    (.fresh (.chain .add) (.positional [.node ⟨2, false⟩, .node ⟨3, false⟩]))).2

theorem genuine_sharedSum : sharedSum.Genuine := by
  refine ((genuine_empty.add ?_).add ?_).add ?_
  · exact Node.genuine_function rfl
  · exact Node.genuine_chain (List.cons_ne_nil _ _)
  · exact Node.genuine_chain (List.cons_ne_nil _ _)

theorem genuine_spreadSum : spreadSum.Genuine := by
  refine (((genuine_empty.add ?_).add ?_).add ?_).add ?_
  · exact Node.genuine_function rfl
  · exact Node.genuine_chain (List.cons_ne_nil _ _)
  · exact Node.genuine_function rfl
  · exact Node.genuine_chain (List.cons_ne_nil _ _)

theorem stateless_of_forall (root : NodeId)
    (h : ∀ id < s.nextId, ∀ node ∈ s.get? id, node.isSequence = false) : s.Stateless root :=
  fun id node _ hnode => h id (lt_nextId hnode) node hnode

/-- Both sums are written alike, although they are not the same graph. -/
theorem tick_of_sums : ∃ x : Float,
    ((tick 8 3).exec sharedSum).1 = .ok x ∧ ((tick 8 4).exec spreadSum).1 = .ok x ∧
      ((tick 8 3).exec ((compile 8 3).exec sharedSum).2).1 = .ok x ∧
      ((tick 8 4).exec ((compile 8 4).exec spreadSum).2).1 = .ok x := by
  have hshared : ((compile 8 3).exec sharedSum).1 = .ok "( ( abs(1) ) + abs(1) )" := by
    decide +kernel
  have hspread : ((compile 8 4).exec spreadSum).1 = .ok "( ( abs(1) ) + abs(1) )" := by
    decide +kernel
  exact tick_of_compile_eq genuine_sharedSum genuine_spreadSum
    (stateless_of_forall 3 (by decide +kernel)) (stateless_of_forall 4 (by decide +kernel))
    (Prod.ext hshared rfl) (Prod.ext hspread rfl)

end Store

end Patchbay
