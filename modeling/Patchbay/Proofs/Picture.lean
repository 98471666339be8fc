import Patchbay.Proofs.Edit
import Patchbay.Replica.Apply

/-!
# What a receiver shows

A picture says of each number of the other program which kind of node it is and what its
properties hold. A receiver shows a picture if its table has exactly the numbers of the picture,
and each node in the table has the kind and the properties that the picture says, the nodes among
them replaced by those that the table has for them.

* `Tells`: what a message says about the picture: a node that is new to it, made by its
  constructor, or a call on a node that is in it;
* `Shows.apply`: a receiver that shows a picture shows, after such a message, the picture that it
  tells, and leaves all other nodes of its store alone;
* `Shows.applyAll`: so it does after a list of messages.
-/

namespace Patchbay

/-- The kind and the properties of a node. -/
structure Shape where
  kind : Kind
  properties : Bag

/-- The nodes of another program, by their numbers. -/
abbrev Picture := NodeId → Option Shape

/-- A picture with one node more, or with another shape of it. -/
def Picture.put (pic : Picture) (id : NodeId) (shape : Shape) : Picture :=
  fun other => if other = id then some shape else pic other

@[simp] theorem Picture.put_self (pic : Picture) (id : NodeId) (shape : Shape) :
    pic.put id shape id = some shape := if_pos rfl

theorem Picture.put_eq_self {pic : Picture} {id : NodeId} {shape : Shape}
    (h : pic id = some shape) : pic.put id shape = pic := by
  funext other
  by_cases hother : other = id
  · rw [hother, put_self, h]
  · exact if_neg hother

theorem Picture.put_of_ne {pic : Picture} {id other : NodeId} (h : other ≠ id) (shape : Shape) :
    pic.put id shape other = pic other := if_neg h

/-- The value that stands for a value of the other program: for a node the one in the table. -/
def Replica.counterpart? (r : Replica) : Value → Option Value
  | .node n => (r.get? n.id).map .node
  | v => some v

/-! ## What messages tell -/

/-- A snapshot stands for a value, the node being in the picture if it is one. -/
inductive Carries (pic : Picture) : Snapshot → Value → Prop where
  | scalar (x : Float) : Carries pic (.scalar x) (.scalar x)
  | bool (b : Bool) : Carries pic (.bool b) (.bool b)
  | text (t : String) : Carries pic (.text t) (.text t)
  | unset : Carries pic .unset .unset
  | reference {n : NodeRef} (h : pic n.id ≠ none) : Carries pic (.reference n.id) (.node n)
  | created {n : NodeRef} (path : NamePath) (properties : List (String × Snapshot))
      (h : pic n.id ≠ none) : Carries pic (.created path properties n.id) (.node n)

/-- What a message makes of the picture. -/
inductive Tells (pic : Picture) : Message → Picture → Prop where
  | create {c : Create} {shape : Shape} (fresh : pic c.id = none)
      (name : Text.lowercase (c.path.leaf?.getD "") = shape.kind.name)
      (makes : shape.kind.Makes shape.properties)
      (properties : List.Forall₂ (fun p e => p.1 = e.1.text ∧ Carries pic p.2 e.2) c.properties
        shape.properties.entries) :
      Tells pic (.create c) (pic.put c.id shape)
  | call {c : Call} {shape : Shape} {args : List Value} (known : pic c.object = some shape)
      (carries : List.Forall₂ (Carries pic) c.args args) :
      Tells pic (.call c) (pic.put c.object ⟨shape.kind, shape.properties.edit c.method args⟩)

/-- What messages make of the picture, one after the other. -/
inductive TellsAll : Picture → List Message → Picture → Prop where
  | nil (pic : Picture) : TellsAll pic [] pic
  | cons {pic pic' pic'' : Picture} {message : Message} {rest : List Message}
      (head : Tells pic message pic') (tail : TellsAll pic' rest pic'') :
      TellsAll pic (message :: rest) pic''

theorem TellsAll.append {pic pic' pic'' : Picture} {messages : List Message} {message : Message}
    (h : TellsAll pic messages pic') (hlast : Tells pic' message pic'') :
    TellsAll pic (messages ++ [message]) pic'' := by
  induction h with
  | nil => exact .cons hlast (.nil _)
  | cons head _ ih => exact .cons head (ih hlast)

/-! ## The table -/

namespace Replica

theorem lookup_cons (i : NodeId) (r : NodeRef) (table : List (NodeId × NodeRef)) (id : NodeId) :
    List.lookup id ((i, r) :: table) = if id = i then some r else table.lookup id := by
  rw [List.lookup_cons]
  by_cases h : id = i
  · rw [if_pos h, beq_iff_eq.2 h]
  · rw [if_neg h, beq_false_of_ne h]

theorem lookup_fileEntry (id : NodeId) (ref : NodeRef) (table : List (NodeId × NodeRef))
    (other : NodeId) :
    (fileEntry id ref table).lookup other =
      if other = id then some ref else table.lookup other := by
  induction table with
  | nil => exact lookup_cons id ref [] other
  | cons e table ih =>
    obtain ⟨i, r⟩ := e
    rw [fileEntry]
    split
    · rw [lookup_cons]
    · split
      · rename_i heq
        subst heq
        rw [lookup_cons, lookup_cons]
        split
        · rfl
        · rfl
      · rename_i hne
        rw [lookup_cons, lookup_cons, ih]
        by_cases h : other = id
        · rw [if_pos h, h, if_neg hne, if_pos rfl]
        · rw [if_neg h, if_neg h]

theorem get?_file (r : Replica) (id : NodeId) (ref : NodeRef) (other : NodeId) :
    (r.file id ref).get? other = if other = id then some ref else r.get? other :=
  lookup_fileEntry id ref r.table other

theorem mem_ids {r : Replica} {id : NodeId} : id ∈ r.ids ↔ r.get? id ≠ none := by
  unfold ids get?
  induction r.table with
  | nil => simp
  | cons e table ih =>
    obtain ⟨i, ref⟩ := e
    rw [List.map_cons, List.mem_cons, lookup_cons]
    split
    · rename_i h
      simp [h]
    · rename_i h
      rw [ih]
      simp [h]

variable {r : Replica} {v v' : Value}

theorem counterpart?_file {id : NodeId} (hfresh : r.get? id = none) (ref : NodeRef)
    (h : r.counterpart? v = some v') : (r.file id ref).counterpart? v = some v' := by
  cases v with
  | node n =>
    have hne : n.id ≠ id := by
      rintro rfl
      rw [counterpart?, hfresh] at h
      cases h
    rw [counterpart?, get?_file, if_neg hne]
    exact h
  | _ => exact h

theorem counterpart?_ne_unset (h : r.counterpart? v = some v') (hv : v ≠ .unset) : v' ≠ .unset := by
  rintro rfl
  cases v with
  | node n =>
    rw [counterpart?] at h
    cases hn : r.get? n.id <;> rw [hn] at h <;> cases h
  | unset => exact hv rfl
  | _ => cases h

theorem counterpart?_key? (h : r.counterpart? v = some v') : v'.key? = v.key? := by
  cases v with
  | node n =>
    rw [counterpart?] at h
    cases hn : r.get? n.id with
    | none =>
      rw [hn] at h
      cases h
    | some ref =>
      rw [hn] at h
      cases h
      rfl
  | _ =>
    cases h
    rfl

end Replica

/-! ## What a receiver shows -/

/-- A receiver shows a picture, and its nodes are none of `own`, the nodes that the other program
has in the same store. -/
structure Shows (own : List NodeId) (r : Receiver) (pic : Picture) : Prop where
  constructors : r.replica.constructors = Replica.builtins
  absent : ∀ id, pic id = none → r.replica.get? id = none
  copied : ∀ id shape, pic id = some shape → ∃ ref node, r.replica.get? id = some ref ∧
    r.store.get? ref.id = some node ∧ node.kind = shape.kind ∧
    shape.properties.Matches (fun v v' => r.replica.counterpart? v = some v') node.properties
  distinct : ∀ id id' ref ref', r.replica.get? id = some ref → r.replica.get? id' = some ref' →
    ref.id = ref'.id → id = id'
  apart : ∀ id ref, r.replica.get? id = some ref → ref.id ∉ own
  below : ∀ id ∈ own, id < r.store.nextId

/-- A receiver after another one: it has taken no number back, and left the nodes of `own` alone. -/
structure Spares (own : List NodeId) (r r' : Receiver) : Prop where
  nextId_le : r.store.nextId ≤ r'.store.nextId
  kept : ∀ id ∈ own, r'.store.get? id = r.store.get? id

theorem Spares.refl (own : List NodeId) (r : Receiver) : Spares own r r :=
  ⟨Nat.le_refl _, fun _ _ => rfl⟩

theorem Spares.trans {own : List NodeId} {r r' r'' : Receiver} (h : Spares own r r')
    (h' : Spares own r' r'') : Spares own r r'' :=
  ⟨Nat.le_trans h.nextId_le h'.nextId_le, fun id hid => (h'.kept id hid).trans (h.kept id hid)⟩

variable {own : List NodeId} {r : Receiver} {pic pic' : Picture}

theorem Shows.get?_of_ne_none (h : Shows own r pic) {id : NodeId} (hid : pic id ≠ none) :
    ∃ ref, r.replica.get? id = some ref := by
  obtain ⟨shape, hshape⟩ := Option.ne_none_iff_exists'.1 hid
  obtain ⟨ref, -, href, -⟩ := h.copied id shape hshape
  exact ⟨ref, href⟩

/-- The nodes in the table are in the store. -/
theorem Shows.ref_lt (h : Shows own r pic) {id : NodeId} {ref : NodeRef}
    (href : r.replica.get? id = some ref) : ref.id < r.store.nextId := by
  cases hshape : pic id with
  | none =>
    rw [h.absent id hshape] at href
    cases href
  | some shape =>
    obtain ⟨ref', node, href', hnode, -⟩ := h.copied id shape hshape
    rw [href] at href'
    cases href'
    exact Store.lt_nextId hnode

/-- What happens to nodes that are not in the table does not show. -/
theorem Shows.of_store (h : Shows own r pic) {store : Store} {own' : List NodeId}
    (hkept : ∀ id ref, r.replica.get? id = some ref → store.get? ref.id = r.store.get? ref.id)
    (hapart : ∀ id ref, r.replica.get? id = some ref → ref.id ∉ own')
    (hbelow : ∀ id ∈ own', id < store.nextId) : Shows own' ⟨store, r.replica⟩ pic := by
  refine ⟨h.constructors, h.absent, fun id shape hid => ?_, h.distinct, hapart, hbelow⟩
  obtain ⟨ref, node, href, hnode, hrest⟩ := h.copied id shape hid
  exact ⟨ref, node, href, (hkept id ref href).trans hnode, hrest⟩

/-! ## Snapshots -/

open Receiver

/-- A snapshot of what is in the picture is built from the table alone. -/
theorem Shows.exec_build (h : Shows own r pic) {snapshot : Snapshot} {v : Value}
    (hcarries : Carries pic snapshot v) :
    ∃ v', r.replica.counterpart? v = some v' ∧ (build snapshot).exec r = (.ok v', r) := by
  cases hcarries with
  | scalar x =>
    refine ⟨_, rfl, ?_⟩
    rw [build]
    rfl
  | bool b =>
    refine ⟨_, rfl, ?_⟩
    rw [build]
    rfl
  | text t =>
    refine ⟨_, rfl, ?_⟩
    rw [build]
    rfl
  | unset =>
    refine ⟨_, rfl, ?_⟩
    rw [build]
    rfl
  | @reference n hid =>
    obtain ⟨ref, href⟩ := h.get?_of_ne_none hid
    refine ⟨.node ref, by rw [Replica.counterpart?, href]; rfl, ?_⟩
    rw [build, lookup, Task.exec_bind, Task.exec_get_bind, href]
    rfl
  | @created n path properties hid =>
    obtain ⟨ref, href⟩ := h.get?_of_ne_none hid
    refine ⟨.node ref, by rw [Replica.counterpart?, href]; rfl, ?_⟩
    rw [build, Task.exec_get_bind, href]
    rfl

theorem Shows.exec_buildAll (h : Shows own r pic) {snapshots : List Snapshot} {vs : List Value}
    (hcarries : List.Forall₂ (Carries pic) snapshots vs) :
    ∃ vs', List.Forall₂ (fun v v' => r.replica.counterpart? v = some v') vs vs' ∧
      (buildAll snapshots).exec r = (.ok vs', r) := by
  induction hcarries with
  | nil => exact ⟨[], .nil, rfl⟩
  | cons hhead _ ih =>
    obtain ⟨v', hv', hbuild⟩ := h.exec_build hhead
    obtain ⟨vs', hvs', hbuildAll⟩ := ih
    refine ⟨v' :: vs', .cons hv' hvs', ?_⟩
    rw [buildAll, Task.exec_bind_ok hbuild, Task.exec_bind_ok hbuildAll]
    rfl

/-- Properties in the picture are built from the table alone, under the keys that they had. -/
theorem Shows.exec_buildBag (h : Shows own r pic) {properties : List (String × Snapshot)}
    {es : List (Key × Value)} (hreadable : ∀ key ∈ es.map Prod.fst, key.Readable)
    (hcarries : List.Forall₂ (fun p e => p.1 = e.1.text ∧ Carries pic p.2 e.2) properties es)
    (b : Bag) :
    ∃ es', List.Forall₂ (fun e e' => e'.1 = e.1 ∧ r.replica.counterpart? e.2 = some e'.2) es es' ∧
      (buildBag properties b).exec r = (.ok (b.write es'), r) := by
  induction hcarries generalizing b with
  | nil =>
    refine ⟨[], .nil, ?_⟩
    rw [buildBag]
    rfl
  | @cons p e properties es hhead _ ih =>
    obtain ⟨text, snapshot⟩ := p
    obtain ⟨key, v⟩ := e
    obtain ⟨rfl, hcarries⟩ := hhead
    obtain ⟨v', hv', hbuild⟩ := h.exec_build hcarries
    obtain ⟨es', hes', hbuildBag⟩ :=
      ih (fun key hkey => hreadable key (List.mem_cons_of_mem _ hkey)) (b.set key v')
    refine ⟨(key, v') :: es', .cons ⟨rfl, hv'⟩ hes', ?_⟩
    have hkey : Key.parse key.text = key := hreadable key List.mem_cons_self
    rw [buildBag, Task.exec_bind_ok hbuild, hkey, hbuildBag]
    rfl

/-! ## Messages -/

/-- The receiver after it has made a node and filed it. -/
def Receiver.filed (r : Receiver) (id : NodeId) (node : Node) : Receiver :=
  ⟨(r.store.add node).2, r.replica.file id (r.store.add node).1⟩

theorem Receiver.get?_filed (r : Receiver) (id : NodeId) (node : Node) (other : NodeId) :
    (r.filed id node).replica.get? other =
      if other = id then some (r.store.add node).1 else r.replica.get? other :=
  r.replica.get?_file id (r.store.add node).1 other

theorem Receiver.nextId_filed (r : Receiver) (id : NodeId) (node : Node) :
    (r.filed id node).store.nextId = r.store.nextId + 1 := Array.size_push _

theorem Receiver.of_get?_filed {r : Receiver} {id other : NodeId} {node : Node} {ref : NodeRef}
    (h : (r.filed id node).replica.get? other = some ref) :
    other = id ∧ ref.id = r.store.nextId ∨ r.replica.get? other = some ref := by
  rw [get?_filed] at h
  split at h
  · rename_i hid
    cases h
    exact Or.inl ⟨hid, rfl⟩
  · exact Or.inr h

theorem exec_construct {id : NodeId} {name : String} {bag : Bag} {constructor : Constructor}
    {node : Node} (hname : r.replica.constructor? name = some constructor)
    (hmade : constructor bag = .ok node) :
    (construct id name bag).exec r = (.ok (r.store.add node).1, r.filed id node) := by
  rw [construct, Task.exec_get_bind, hname]
  show (onStore (Store.build (constructor bag)) >>= _).exec r = _
  rw [hmade, Task.exec_bind, onStore, Task.exec_onPart, Store.exec_build_ok]
  rfl

theorem Shows.filed (h : Shows own r pic) {id : NodeId} (hfresh : pic id = none) {shape : Shape}
    {node : Node} (hkind : node.kind = shape.kind)
    (hmatch : shape.properties.Matches (fun v v' => r.replica.counterpart? v = some v')
      node.properties) :
    Shows own (r.filed id node) (pic.put id shape) ∧ Spares own r (r.filed id node) := by
  have hnextId := r.nextId_filed id node
  have hkept {other : NodeId} (hlt : other < r.store.nextId) :
      (r.filed id node).store.get? other = r.store.get? other := Store.get?_add_of_lt hlt node
  have hmatches {b b' : Bag}
      (hb : b.Matches (fun v v' => r.replica.counterpart? v = some v') b') :
      b.Matches (fun v v' => (r.filed id node).replica.counterpart? v = some v') b' :=
    hb.imp fun v _ v' hv => Replica.counterpart?_file (h.absent id hfresh) _ hv
  refine ⟨⟨h.constructors, fun other hother => ?_, fun other shape' hother => ?_,
    fun i j ref ref' hi hj heq => ?_, fun other ref href => ?_, fun other hother => ?_⟩,
    ⟨hnextId ▸ Nat.le_succ _, fun other hother => hkept (h.below other hother)⟩⟩
  · by_cases hid : other = id
    · rw [hid, Picture.put_self] at hother
      cases hother
    · rw [Picture.put_of_ne hid] at hother
      rw [r.get?_filed, if_neg hid]
      exact h.absent other hother
  · by_cases hid : other = id
    · rw [hid, Picture.put_self] at hother
      cases hother
      refine ⟨(r.store.add node).1, node, ?_, ?_, hkind, hmatches hmatch⟩
      · rw [r.get?_filed, if_pos hid]
      · exact Store.get?_add_self r.store node
    · rw [Picture.put_of_ne hid] at hother
      obtain ⟨ref, node', href, hnode', hkind', hmatch'⟩ := h.copied other shape' hother
      refine ⟨ref, node', ?_, ?_, hkind', hmatches hmatch'⟩
      · rw [r.get?_filed, if_neg hid]
        exact href
      · rw [hkept (h.ref_lt href)]
        exact hnode'
  · rcases Receiver.of_get?_filed hi with ⟨hi, href⟩ | hi
    · rcases Receiver.of_get?_filed hj with ⟨hj, -⟩ | hj
      · rw [hi, hj]
      · exact absurd (heq.symm.trans href) (Nat.ne_of_lt (h.ref_lt hj))
    · rcases Receiver.of_get?_filed hj with ⟨hj, href'⟩ | hj
      · exact absurd (heq.trans href') (Nat.ne_of_lt (h.ref_lt hi))
      · exact h.distinct i j ref ref' hi hj heq
  · rcases Receiver.of_get?_filed href with ⟨-, hnew⟩ | href
    · exact fun hmem => Nat.ne_of_lt (h.below ref.id hmem) hnew
    · exact h.apart other ref href
  · exact hnextId ▸ Nat.lt_succ_of_lt (h.below other hother)

theorem Shows.exec_create (h : Shows own r pic) {c : Create} {shape : Shape}
    (hfresh : pic c.id = none)
    (hname : Text.lowercase (c.path.leaf?.getD "") = shape.kind.name)
    (hmakes : shape.kind.Makes shape.properties)
    (hcarries : List.Forall₂ (fun p e => p.1 = e.1.text ∧ Carries pic p.2 e.2) c.properties
      shape.properties.entries) :
    Shows own ((apply (.create c)).exec r).2 (pic.put c.id shape) ∧
      Spares own r ((apply (.create c)).exec r).2 := by
  obtain ⟨es', hes', hbuildBag⟩ := h.exec_buildBag hmakes.readable hcarries .empty
  have hmatch : shape.properties.Matches (fun v v' => r.replica.counterpart? v = some v') ⟨es'⟩ :=
    hes'
  have hbag : Bag.empty.write es' = ⟨es'⟩ := by
    refine Bag.ofList_of_nodup ?_
    rw [show es'.map Prod.fst = shape.properties.keys from hmatch.keys_eq]
    exact hmakes.nodup_keys
  obtain ⟨node, hmade, hkind, hproperties⟩ :=
    (hmakes.of_matches hmatch fun _ _ => Replica.counterpart?_ne_unset).rebuild
  have hexec : (apply (.create c)).exec r = (.ok (.node (r.store.add node).1),
      r.filed c.id node) := by
    rw [apply, create, Task.exec_bind, Task.exec_bind_ok hbuildBag, hbag,
      exec_construct (Replica.constructor?_kind h.constructors hname) hmade]
    rfl
  rw [hexec]
  exact h.filed hfresh hkind (hproperties ▸ hmatch)

theorem Shows.exec_call (h : Shows own r pic) {c : Call} {shape : Shape} {args : List Value}
    (hknown : pic c.object = some shape) (hcarries : List.Forall₂ (Carries pic) c.args args) :
    Shows own ((apply (.call c)).exec r).2
        (pic.put c.object ⟨shape.kind, shape.properties.edit c.method args⟩) ∧
      Spares own r ((apply (.call c)).exec r).2 := by
  obtain ⟨ref, node, href, hnode, hkind, hmatch⟩ := h.copied c.object shape hknown
  obtain ⟨args', hargs', hbuildAll⟩ := h.exec_buildAll hcarries
  have hexec : ((apply (.call c)).exec r).2 =
      { r with store := ((Store.call ref.id c.method args').exec r.store).2 } := by
    rw [apply, call, lookup, Task.exec_bind, Task.exec_get_bind, href]
    show ((buildAll c.args >>= _).exec r).2 = _
    rw [Task.exec_bind_ok hbuildAll]
    rfl
  obtain ⟨node', hnode', hkind', hproperties', hothers, hnextId⟩ :=
    Store.call_edits hnode c.method args'
  rw [hexec]
  refine ⟨⟨h.constructors, fun other hother => ?_, fun other shape' hother => ?_, h.distinct,
    h.apart, fun other hother => ?_⟩, ⟨Nat.le_of_eq hnextId.symm, fun other hother => ?_⟩⟩
  · by_cases hid : other = c.object
    · rw [hid, Picture.put_self] at hother
      cases hother
    · rw [Picture.put_of_ne hid] at hother
      exact h.absent other hother
  · by_cases hid : other = c.object
    · rw [hid, Picture.put_self] at hother
      cases hother
      refine ⟨ref, node', hid ▸ href, hnode', hkind'.trans hkind, ?_⟩
      rw [hproperties']
      exact hmatch.edit (fun _ _ => Replica.counterpart?_key?) c.method hargs'
    · rw [Picture.put_of_ne hid] at hother
      obtain ⟨ref'', node'', href'', hnode'', hrest⟩ := h.copied other shape' hother
      refine ⟨ref'', node'', href'', ?_, hrest⟩
      rw [hothers ref''.id fun heq => hid (h.distinct other c.object ref'' ref href'' href heq)]
      exact hnode''
  · show other < ((Store.call ref.id c.method args').exec r.store).2.nextId
    rw [hnextId]
    exact h.below other hother
  · exact hothers other fun heq => h.apart c.object ref href (heq ▸ hother)

/-- After a message the receiver shows the picture that it tells. -/
theorem Shows.apply (h : Shows own r pic) {message : Message} (ht : Tells pic message pic') :
    Shows own ((Receiver.apply message).exec r).2 pic' ∧
      Spares own r ((Receiver.apply message).exec r).2 := by
  cases ht with
  | create hfresh hname hmakes hcarries => exact h.exec_create hfresh hname hmakes hcarries
  | call hknown hcarries => exact h.exec_call hknown hcarries

theorem applyAll_cons (message : Message) (rest : List Message) (r : Receiver) :
    ((applyAll (message :: rest)).run r).2 =
      ((applyAll rest).run ((Receiver.apply message).exec r).2).2 := rfl

/-- After messages, applied in order, the receiver shows the picture that they tell. -/
theorem Shows.applyAll (h : Shows own r pic) {messages : List Message}
    (ht : TellsAll pic messages pic') :
    Shows own ((Receiver.applyAll messages).run r).2 pic' ∧
      Spares own r ((Receiver.applyAll messages).run r).2 := by
  induction ht generalizing r with
  | nil => exact ⟨h, .refl own r⟩
  | cons head _ ih =>
    rw [applyAll_cons]
    obtain ⟨hshows, hspares⟩ := h.apply head
    obtain ⟨hshows', hspares'⟩ := ih hshows
    exact ⟨hshows', hspares.trans hspares'⟩

end Patchbay
