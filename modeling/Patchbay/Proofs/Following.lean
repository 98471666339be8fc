import Patchbay.Proofs.Closed
import Patchbay.Proofs.Delivery
import Patchbay.Proofs.Leftover

/-!
# Messages that a replica can follow

A snapshot names nodes by the numbers that they have on the sending side. A replica can follow a
log of messages in which each message names nodes only that were announced before it: it misses none
of them, wherever in the snapshots their names stand, if it could make all nodes announced to it.

* `Causal`: each message of a log names nodes that were announced before it;
* `Receiver.safe_build`: a snapshot that names nodes of the table is not built in vain for want of
  one;
* `Receiver.Ready.apply`: nor is a message, and so the replica is ready for the next one;
* `Receiver.Ready.steps`: nor is any message of a log.
-/

namespace Patchbay

/-! ## The nodes that a message names -/

/-- The node that a snapshot names: one referred to, or one announced. -/
def Snapshot.named? : Snapshot → Option NodeId
  | .reference id | .created _ _ id => some id
  | _ => none

/-- The nodes that some snapshots name. -/
def Snapshot.names (parts : List Snapshot) : List NodeId := parts.filterMap named?

/-- The nodes that a message names, at any depth. The one that it announces is not named. -/
def Message.names : Message → List NodeId
  | .create c => Snapshot.names (Snapshot.partsOf c.properties)
  | .call c => c.object :: Snapshot.names (c.args.flatMap Snapshot.parts)

/-- Each message names nodes only that those before it announced, `before` coming before all. -/
def Causal : List Message → List Message → Prop
  | _, [] => True
  | before, m :: rest =>
    (∀ id ∈ m.names, before.any (Message.announces id) = true) ∧ Causal (before ++ [m]) rest

theorem Causal.append {before log : List Message} (h : Causal before log) {m : Message}
    (hm : ∀ id ∈ m.names, (before ++ log).any (Message.announces id) = true) :
    Causal before (log ++ [m]) := by
  induction log generalizing before with
  | nil => exact ⟨by rwa [List.append_nil] at hm, trivial⟩
  | cons first rest ih => exact ⟨h.1, ih h.2 (by rwa [List.append_assoc])⟩

/-! ## A replica that has what is named -/

/-- Whether a node is missed. -/
def Fault.isUnknownReference : Fault → Bool
  | unknownReference _ => true
  | _ => false

namespace Receiver

/-- A replica whose nodes are in its store, and whose constructors miss no node. -/
structure Sound (r : Receiver) : Prop where
  constructors : ∀ name constructor bag e, r.replica.constructor? name = some constructor →
    constructor bag = .error e → e.isUnknownReference = false
  table : ∀ id ref, r.replica.get? id = some ref → r.store.Has ref.id

/-- A sound replica that has the nodes announced before, while the nodes `held` are in the store. -/
structure Ready (before : List Message) (held : List NodeId) (r : Receiver) : Prop
    extends Sound r where
  known : ∀ id, before.any (Message.announces id) = true → r.replica.get? id ≠ none
  held : ∀ id ∈ held, r.store.Has id

variable {before : List Message} {held : List NodeId} {r : Receiver}

theorem sound_of_builtins (hconstructors : r.replica.constructors = Replica.builtins)
    (htable : ∀ id ref, r.replica.get? id = some ref → r.store.Has ref.id) : r.Sound := by
  refine ⟨fun name constructor bag e hname herror => ?_, htable⟩
  obtain ⟨k, -, rfl⟩ := Replica.exists_kind hconstructors hname
  rcases Kind.constructor_error herror with ⟨_, rfl⟩ | ⟨_, _, _, rfl⟩ | ⟨_, _, rfl⟩ <;> rfl

theorem get?_filed_ne_none {id other : NodeId} (h : r.replica.get? other ≠ none) (node : Node) :
    (r.filed id node).replica.get? other ≠ none := by
  rw [get?_filed]
  split
  · exact Option.some_ne_none _
  · exact h

theorem Ready.filed (h : r.Ready before held) (id : NodeId) (node : Node) :
    (r.filed id node).Ready before held := by
  refine ⟨⟨h.constructors, fun other ref href => ?_⟩,
    fun other hother => get?_filed_ne_none (h.known other hother) node,
    fun other hother => (h.held other hother).mono (Store.outlasts_add _ _)⟩
  rcases of_get?_filed href with ⟨-, hid⟩ | hold
  · unfold Store.Has
    rw [hid, show (r.filed id node).store = (r.store.add node).2 from rfl, Store.get?_add_self]
    exact Option.some_ne_none node
  · exact (h.table other ref hold).mono (Store.outlasts_add _ _)

theorem safe_construct (id : NodeId) (name : String) (bag : Bag) :
    (construct id name bag).Safe (Ready before held) (·.isUnknownReference = false) := by
  intro r hr
  rcases exec_construct_cases id name bag r with ⟨_, node, -, -, hexec⟩ | ⟨e, hexec, he⟩
  · rw [hexec]
    exact ⟨hr.filed id node, nofun⟩
  · rw [hexec]
    refine ⟨hr, fun e' he' => ?_⟩
    cases he'
    rcases he with rfl | ⟨constructor, hname, hmade⟩
    · rfl
    · exact hr.constructors name constructor bag e hname hmade

theorem safe_lookup {id : NodeId} (hid : before.any (Message.announces id) = true) :
    (lookup id).Safe (Ready before held) (·.isUnknownReference = false) := by
  refine Task.safe_get_bind fun r hr => ?_
  split
  · exact Task.safe_pure _
  · rename_i hnone
    exact absurd hnone (hr.known id hid)

/-- Snapshots name nodes only that were announced before. -/
def Named (before : List Message) (parts : List Snapshot) : Prop :=
  ∀ id ∈ Snapshot.names parts, before.any (Message.announces id) = true

theorem Named.mono {parts parts' : List Snapshot} (h : Named before parts)
    (hsub : parts' ⊆ parts) : Named before parts' := by
  intro id hid
  obtain ⟨snapshot, hmem, hnamed⟩ := List.mem_filterMap.1 hid
  exact h id (List.mem_filterMap.2 ⟨snapshot, hsub hmem, hnamed⟩)

mutual

/-- A snapshot that names nodes only that the replica has is not built in vain for want of one. -/
theorem safe_build : ∀ {snapshot : Snapshot}, Named before snapshot.parts →
    (build snapshot).Safe (Ready before held) (·.isUnknownReference = false)
  | .scalar _, _ | .bool _, _ | .text _, _ | .unset, _ => by
    rw [build]
    exact Task.safe_pure _
  | .reference id, h => by
    rw [build]
    exact (safe_lookup (h id List.mem_cons_self)).bind fun _ => Task.safe_pure _
  | .created path properties id, h => by
    rw [build]
    refine Task.safe_get_bind fun r hr => ?_
    split
    · exact Task.safe_pure _
    · -- what is announced inside a snapshot was announced before, and so is there
      rename_i hnone
      exact absurd hnone (hr.known id (h id List.mem_cons_self))
  | .node id name properties, h => by
    rw [build]
    exact (safe_buildBag (h.mono (List.subset_cons_self _ _)) _).bind fun bag =>
      (safe_construct id name bag).bind fun _ => Task.safe_pure _

theorem safe_buildBag : ∀ {properties : List (String × Snapshot)},
    Named before (Snapshot.partsOf properties) → ∀ bag : Bag,
      (buildBag properties bag).Safe (Ready before held) (·.isUnknownReference = false)
  | [], _, _ => by
    rw [buildBag]
    exact Task.safe_pure _
  | (_, _) :: _, h, _ => by
    rw [Snapshot.partsOf] at h
    rw [buildBag]
    exact (safe_build (h.mono (List.subset_append_left _ _))).bind fun _ =>
      safe_buildBag (h.mono (List.subset_append_right _ _)) _

end

theorem safe_buildAll {snapshots : List Snapshot}
    (h : Named before (snapshots.flatMap Snapshot.parts)) :
    (buildAll snapshots).Safe (Ready before held) (·.isUnknownReference = false) := by
  induction snapshots with
  | nil => exact Task.safe_pure _
  | cons snapshot rest ih =>
    rw [List.flatMap_cons] at h
    exact (safe_build (h.mono (List.subset_append_left _ _))).bind fun _ =>
      (ih (h.mono (List.subset_append_right _ _))).bind fun _ => Task.safe_pure _

theorem Ready.call (h : r.Ready before held) {id : NodeId} (hid : r.store.Has id)
    (method : String) (args : List Value) :
    (∀ e, ((onStore (Store.call id method args)).exec r).1 = .error e →
      e.isUnknownReference = false) ∧
    ((onStore (Store.call id method args)).exec r).2.Ready before held := by
  obtain ⟨node, hnode⟩ := Option.ne_none_iff_exists'.1 hid
  have hlasts := Store.outlasts_call r.store id method args
  rw [onStore, Task.exec_onPart]
  refine ⟨fun e he => ?_,
    ⟨h.constructors, fun other ref href => (h.table other ref href).mono hlasts⟩, h.known,
    fun other hother => (h.held other hother).mono hlasts⟩
  rw [Store.exec_call hnode] at he
  split at he
  · cases he
  · rename_i hcall
    cases he
    have hrecoverable := Node.isRecoverable_of_call hcall
    cases e with
    | unknownReference => cases hrecoverable
    | _ => rfl

/-- The replica after a message has what it announces, if it is applied successfully. -/
theorem known_of_create {c : Create} {v : Value}
    (hok : ((apply (.create c)).exec r).1 = .ok v) :
    ((apply (.create c)).exec r).2.replica.get? c.id ≠ none := by
  rcases hexec : (apply (.create c)).exec r with ⟨outcome, r'⟩
  rw [hexec] at hok
  obtain rfl : outcome = .ok v := hok
  rw [apply, Task.exec_bind_ok_iff] at hexec
  obtain ⟨ref, r₂, hcreate, hreturn⟩ := hexec
  cases hreturn
  rw [create, Task.exec_bind_ok_iff] at hcreate
  obtain ⟨bag, r₁, -, hconstruct⟩ := hcreate
  rcases exec_construct_cases c.id (c.path.leaf?.getD "") bag r₁ with
    ⟨_, node, -, -, hexec⟩ | ⟨e, hexec, -⟩
  · rw [hexec] at hconstruct
    cases hconstruct
    rw [get?_filed, if_pos rfl]
    exact Option.some_ne_none _
  · rw [hexec] at hconstruct
    cases hconstruct

/-- **A message that names announced nodes misses none.** If a replica has all nodes announced
before, then the message is not applied in vain for want of a node, and the replica has all nodes
announced after it as well, unless this is an announcement that fails. -/
theorem Ready.apply (h : r.Ready before []) {m : Message}
    (hnames : ∀ id ∈ m.names, before.any (Message.announces id) = true)
    (hcreate : ∀ c, m = .create c → ∃ v, ((Receiver.apply m).exec r).1 = .ok v) :
    (∀ e, ((Receiver.apply m).exec r).1 = .error e → e.isUnknownReference = false) ∧
      ((Receiver.apply m).exec r).2.Ready (before ++ [m]) [] := by
  cases m with
  | create c =>
    obtain ⟨v, hok⟩ := hcreate c rfl
    have hsafe : (Receiver.apply (.create c)).Safe (Ready before [])
        (·.isUnknownReference = false) :=
      ((safe_buildBag hnames .empty).bind fun bag => safe_construct c.id _ bag).bind fun _ =>
        Task.safe_pure _
    obtain ⟨hready, herror⟩ := hsafe r h
    refine ⟨herror, hready.toSound, fun id hid => ?_, List.forall_mem_nil _⟩
    rw [List.any_append, Bool.or_eq_true] at hid
    rcases hid with hid | hid
    · exact hready.known id hid
    · obtain rfl : c.id = id := by simpa using hid
      exact known_of_create hok
  | call c =>
    have hobject := h.known c.object (hnames c.object List.mem_cons_self)
    obtain ⟨target, htarget⟩ := Option.ne_none_iff_exists'.1 hobject
    -- the target is found before the arguments are built, and these may replace it in the table
    have hheld : r.Ready before [target.id] :=
      ⟨h.toSound, h.known, fun id hid => by
        rw [List.mem_singleton.1 hid]
        exact h.table c.object target htarget⟩
    have hargs : Named before (c.args.flatMap Snapshot.parts) :=
      fun id hid => hnames id (List.mem_cons_of_mem c.object hid)
    have hafter (r' : Receiver) (h' : r'.Ready before [target.id]) :
        r'.Ready (before ++ [.call c]) [] :=
      ⟨h'.toSound, fun id hid => h'.known id (by simpa using hid), List.forall_mem_nil _⟩
    have hsafe : (buildAll c.args >>= fun args => onStore (Store.call target.id c.method args)).Safe
        (Ready before [target.id]) (·.isUnknownReference = false) :=
      (safe_buildAll hargs).bind fun args r' hr' =>
        (hr'.call (hr'.held target.id List.mem_cons_self) c.method args).symm
    rw [Receiver.apply, Receiver.call, Task.exec_bind_ok (exec_lookup htarget)]
    obtain ⟨hready, herror⟩ := hsafe r hheld
    exact ⟨herror, hafter _ hready⟩

/-- The messages of a log, each with the replica that it is applied to. -/
def steps : List Message → Receiver → List (Message × Receiver)
  | [], _ => []
  | m :: rest, r => (m, r) :: steps rest ((Receiver.apply m).exec r).2

/-- A causal log, applied by a replica that makes all nodes announced to it, misses no node. -/
theorem Ready.steps (h : r.Ready before []) {log : List Message} (hlog : Causal before log)
    (hcreates : ∀ c r', (.create c, r') ∈ Receiver.steps log r →
      ∃ v, ((Receiver.apply (.create c)).exec r').1 = .ok v) :
    ∀ m r', (m, r') ∈ Receiver.steps log r →
      (∀ id, ((Receiver.apply m).exec r').1 ≠ .error (.unknownReference id)) ∧
      ∀ id ∈ m.names, r'.replica.get? id ≠ none := by
  induction log generalizing before r with
  | nil => exact nofun
  | cons first rest ih =>
    obtain ⟨hfirst, hrest⟩ := hlog
    obtain ⟨herror, hready⟩ := h.apply hfirst fun c hc =>
      hc ▸ hcreates c r (hc ▸ List.mem_cons_self)
    intro m r' hmem
    rcases List.mem_cons.1 hmem with heq | hmem
    · cases heq
      exact ⟨fun id hunknown => absurd (herror _ hunknown) nofun,
        fun id hid => h.known id (hfirst id hid)⟩
    · exact ih hready hrest (fun c r'' hc => hcreates c r'' (List.mem_cons_of_mem _ hc)) m r' hmem

end Receiver

end Patchbay
