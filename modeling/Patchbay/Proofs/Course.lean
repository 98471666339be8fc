import Patchbay.Proofs.Footprint
import Patchbay.Proofs.Identity

/-!
# What becomes of a node

A node that is in the store stays there. From then on its methods are called, it is sampled as a
part of some graph, and expressions are written for it, and nothing else is done to it, whatever is
done in the session: a constructor makes another node, and a wrap is a layer around the node.

* `Node.Course`: what such operations make of a node, one after another;
* `Store.passOf_cases`: what one sample of a graph makes of a node of the store, which is processed
  with all its properties or not at all;
* `Store.Evolves`: the store later on, where each node is as a course made it;
* `Identity.evolves_task`: so it is after each action of a session, with the methods that the action
  may call;
* `Identity.Later`, `Identity.Later.evolves`: and after any number of them.
-/

namespace Patchbay

namespace Node

/-- What becomes of the node `n`: methods that `M` allows are called, it is processed with the
values of its properties, and expressions are written for it. -/
inductive Course (M : String → Prop) (n : Node) : Node → Prop
  | start : Course M n n
  | called {n' n'' : Node} {id : NodeId} {method : String} {args : List Value} {answer : Value}
    (h : Course M n n') (hmethod : M method) (hcall : n'.call id method args = .ok (answer, n'')) :
    Course M n n''
  | processed {n' : Node} {output : NodeId → Option Float} {inputs : List Float}
    (h : Course M n n') (hinputs : n'.inputs? output = some inputs) :
    Course M n (n'.process inputs).2
  | written {n' : Node} (h : Course M n n') (text : String) : Course M n (n'.withExpression text)

variable {M M' : String → Prop} {n n' n'' : Node}

theorem Course.trans (h : Course M n n') (h' : Course M n' n'') : Course M n n'' := by
  induction h' with
  | start => exact h
  | called _ hmethod hcall ih => exact ih.called hmethod hcall
  | processed _ hinputs ih => exact ih.processed hinputs
  | written _ text ih => exact ih.written text

theorem Course.mono (h : Course M n n') (hM : ∀ method, M method → M' method) :
    Course M' n n' := by
  induction h with
  | start => exact .start
  | called _ hmethod hcall ih => exact ih.called (hM _ hmethod) hcall
  | processed _ hinputs ih => exact ih.processed hinputs
  | written _ text ih => exact ih.written text

theorem Course.genuine (h : Course M n n') (hn : n.Genuine) : n'.Genuine := by
  induction h with
  | start => exact hn
  | called _ _ hcall ih => exact .called ih hcall
  | processed _ _ ih => exact .processed ih _
  | written _ text ih => exact .written ih text

end Node

namespace Store

variable {s s' s'' s₀ : Store} {id : NodeId} {node node' : Node}

/-! ## One sample -/

/-- The pass that a sample of the node `root` ends in. -/
def passOf (s : Store) (limit : Nat) (root : NodeId) : Pass :=
  ((sample limit limit [] root).exec ⟨s, []⟩).2

/-- The output of a node in the pass, if it has been processed. -/
def Pass.output (pass : Pass) (id : NodeId) : Option Float := pass.outputs.lookup id

/-- A sample takes turns in order, and its value is the output that the root has then. -/
theorem exists_turns (s : Store) (limit : Nat) (root : NodeId) :
    ∃ turns, InOrder s turns ∧ s.passOf limit root = played s turns ∧
      (s.passOf limit root).output = Turn.outputOf turns ∧
      ((tick limit root).exec s).1.toOption = Turn.outputOf turns root := by
  obtain ⟨outcome, turns, hexec, hfurther, houtcome⟩ :=
    plays_sample s limit limit [] root [] .nil
  have hpass : s.passOf limit root = played s turns := congrArg Prod.snd hexec
  have htick : ((tick limit root).exec s).1 = outcome := congrArg Prod.fst hexec
  refine ⟨turns, hfurther.inOrder, hpass, ?_, htick ▸ houtcome⟩
  rw [hpass]
  exact funext fun _ => hfurther.inOrder.lookup_played

theorem toOption_tick (s : Store) (limit : Nat) (root : NodeId) :
    ((tick limit root).exec s).1.toOption = (s.passOf limit root).output root := by
  obtain ⟨turns, -, -, houtput, hvalue⟩ := exists_turns s limit root
  rw [houtput, hvalue]

/-- A node that has no output after a sample is as it was. Any other has been processed once, with
the values that its properties have in this sample. -/
theorem passOf_cases (h : s.get? id = some node) (limit : Nat) (root : NodeId) :
    ((s.passOf limit root).output id = none ∧
      ((tick limit root).exec s).2.get? id = some node) ∨
    ∃ inputs, node.inputs? (s.passOf limit root).output = some inputs ∧
      (s.passOf limit root).output id = some (node.process inputs).1 ∧
      ((tick limit root).exec s).2.get? id = some (node.process inputs).2 := by
  obtain ⟨turns, hturns, hpass, houtput, -⟩ := exists_turns s limit root
  have htick : ((tick limit root).exec s).2 = (played s turns).store :=
    congrArg Pass.store hpass
  obtain ⟨hothers, hafter, -⟩ := hturns.store_played
  rw [htick, houtput]
  by_cases hid : id ∈ turns.map Turn.id
  · obtain ⟨t, ht, rfl⟩ := List.mem_map.1 hid
    cases (hturns.node ht).symm.trans h
    exact .inr ⟨t.inputs, hturns.inputs ht, hturns.outputOf_of_mem ht, hafter t ht⟩
  · exact .inl ⟨outputOf_eq_none_iff.2 hid, (hothers id hid).trans h⟩

/-! ## The store later on -/

variable {M M' : NodeId → String → Prop}

/-- The store later on: each of its nodes is as a course made it in which methods were called that
`M` allows for the node. -/
def Evolves (M : NodeId → String → Prop) (s s' : Store) : Prop :=
  ∀ id node, s.get? id = some node → ∃ node', s'.get? id = some node' ∧ node.Course (M id) node'

theorem evolves_of_kept (h : ∀ id node, s.get? id = some node → s'.get? id = some node) :
    Evolves M s s' :=
  fun id node hnode => ⟨node, h id node hnode, .start⟩

theorem Evolves.refl (s : Store) : Evolves M s s := evolves_of_kept fun _ _ hnode => hnode

theorem Evolves.trans (h : Evolves M s s') (h' : Evolves M s' s'') : Evolves M s s'' := by
  intro id node hnode
  obtain ⟨node', hnode', hcourse⟩ := h id node hnode
  obtain ⟨node'', hnode'', hcourse'⟩ := h' id node' hnode'
  exact ⟨node'', hnode'', hcourse.trans hcourse'⟩

theorem Evolves.mono (h : Evolves M s s') (hM : ∀ id method, M id method → M' id method) :
    Evolves M' s s' := by
  intro id node hnode
  obtain ⟨node', hnode', hcourse⟩ := h id node hnode
  exact ⟨node', hnode', hcourse.mono (hM id)⟩

theorem evolves_add (s : Store) (node : Node) : Evolves M s (s.add node).2 :=
  evolves_of_kept fun _ _ hnode => (get?_add_of_lt (lt_nextId hnode) node).trans hnode

theorem evolves_put (hnode : s.get? id = some node) (hcourse : node.Course (M id) node') :
    Evolves M s (s.put id node') := by
  intro other node₁ hother
  rw [get?_put hnode]
  split
  · rename_i heq
    subst heq
    cases hnode.symm.trans hother
    exact ⟨node', rfl, hcourse⟩
  · exact ⟨node₁, hother, .start⟩

theorem evolves_build (s : Store) (m : Maker) : Evolves M s ((build m.make).exec s).2 :=
  keeps_build (fun s' node hs _ => hs.trans (evolves_add s' node)) s (.refl s)

theorem evolves_call {method : String} (hM : M id method) (s : Store) (args : List Value) :
    Evolves M s ((call id method args).exec s).2 :=
  keeps_call (fun _ _ _ _ hs hnode hcall => hs.trans (evolves_put hnode (.called .start hM hcall)))
    s (.refl s)

theorem evolves_compile (limit : Nat) (id : NodeId) (s : Store) :
    Evolves M s ((compile limit id).exec s).2 :=
  keeps_compile (fun _ _ _ text hs hnode => hs.trans (evolves_put hnode (.written .start text)))
    limit id s (.refl s)

theorem evolves_compileApart (limit : Nat) (id : NodeId) (s : Store) :
    Evolves M s ((compileApart limit id).exec s).2 :=
  keeps_compileApart (fun _ _ _ text hs hnode =>
    hs.trans (evolves_put hnode (.written .start text))) limit id s (.refl s)

theorem evolves_tick (limit : Nat) (root : NodeId) (s : Store) :
    Evolves M s ((tick limit root).exec s).2 := by
  intro id node hnode
  rcases passOf_cases hnode limit root with ⟨-, hsame⟩ | ⟨inputs, hinputs, -, hafter⟩
  · exact ⟨node, hsame, .start⟩
  · exact ⟨_, hafter, .processed .start hinputs⟩

end Store

/-! ## Messages -/

namespace Receiver

variable {M : NodeId → String → Prop} {r : Receiver}

theorem evolves_build (snapshot : Snapshot) (r : Receiver) :
    Store.Evolves M r.store ((build snapshot).exec r).2.store :=
  Store.evolves_of_kept (grows_build (List.Subset.refl _) r (.refl snapshot.parts r)).kept

/-- A message that is a call may call its method of any node. -/
theorem evolves_apply {m : Message} (hM : ∀ c, m = .call c → ∀ id, M id c.method) (r : Receiver) :
    Store.Evolves M r.store ((apply m).exec r).2.store := by
  have hfootprint : Footprint m r ((apply m).exec r).2 := by
    cases m with
    | create c => exact footprint_of_create c r
    | call c => exact footprint_of_call c r
  intro id node hnode
  rcases hfootprint.nodes id node hnode with hsame | ⟨c, ref, rfl, -, -, _, _, node', -, hcall, hid⟩
  · exact ⟨node, hsame, .start⟩
  · exact ⟨node', hid, .called .start (hM c rfl id) hcall⟩

theorem evolves_applyAll (messages : List Message) (r : Receiver) :
    Store.Evolves (fun _ _ => True) r.store ((applyAll messages).run r).2.store := by
  induction messages generalizing r with
  | nil => exact .refl _
  | cons m messages ih =>
    rw [applyAll_cons]
    exact (evolves_apply (fun _ _ _ => trivial) r).trans (ih _)

end Receiver

/-! ## Sessions -/

namespace Identity

variable {M : NodeId → String → Prop} {s s' : Session}

/-- The action may call the method of the node. Of what a message calls only the method is known,
and of what waits in a channel nothing. -/
def Action.MayCall (id : NodeId) (method : String) : Action → Prop
  | invoke other called _ => other = id ∧ called = method
  | apply (.call c) => c.method = method
  | sync _ => True
  | _ => False

instance (id : NodeId) (method : String) : (a : Action) → Decidable (a.MayCall id method)
  | .invoke other called _ => inferInstanceAs (Decidable (other = id ∧ called = method))
  | .apply (.call c) => inferInstanceAs (Decidable (c.method = method))
  | .sync _ => inferInstanceAs (Decidable True)
  | .make _ | .addRelay _ | .wrap .. | .unwrap _ | .compile .. | .compileApart .. | .tick ..
  | .build _ | .apply (.create _) => inferInstanceAs (Decidable False)

/-- **What an action makes of the nodes that there are**: it calls methods that it may call, takes
samples and writes expressions, and does nothing else to them. -/
theorem evolves_task (a : Action) (s : Session) :
    Store.Evolves (fun id method => a.MayCall id method) s.store (a.task.exec s).2.store := by
  have hreceiver {s' : Session} (h : s'.receiver = s.receiver) :
      Store.Evolves (fun id method => a.MayCall id method) s.store s'.store := by
    have hstore : s'.store = s.store := congrArg Receiver.store h
    rw [hstore]
    exact .refl s.store
  cases a with
  | make maker =>
    rw [Action.task, Task.exec_map, Session.exec_onStore]
    exact Store.evolves_build s.store maker
  | addRelay relay => exact .refl s.store
  | wrap number path suppress id =>
    rw [Action.task, Task.exec_map]
    exact hreceiver (Session.keeps_receiver_wrap number path suppress id s rfl)
  | unwrap id => exact .refl s.store
  | invoke id method args =>
    rcases s.receiver_invoke id method args with ⟨e, -, hsame⟩ | ⟨-, hafter⟩
    · exact hreceiver hsame
    · have hstore : ((Session.invoke id method args).exec s).2.store =
          ((Store.call id method args).exec s.store).2 := congrArg Receiver.store hafter
      rw [Action.task, hstore]
      exact Store.evolves_call ⟨rfl, rfl⟩ s.store args
  | compile limit id =>
    rw [Action.task, Task.exec_map, Session.exec_onStore]
    exact Store.evolves_compile limit id s.store
  | compileApart limit id =>
    rw [Action.task, Task.exec_map, Session.exec_onStore]
    exact Store.evolves_compileApart limit id s.store
  | tick limit id =>
    rw [Action.task, Task.exec_map, Session.exec_onStore]
    exact Store.evolves_tick limit id s.store
  | build snapshot => exact Receiver.evolves_build snapshot s.receiver
  | apply message =>
    refine Receiver.evolves_apply (fun c hc _ => ?_) s.receiver
    subst hc
    exact rfl
  | sync number =>
    rw [Action.task, Task.exec_map, Task.exec_modify]
    show Store.Evolves _ s.store (((s.sync? number).map Prod.snd).getD s).store
    unfold Session.sync?
    split
    · exact (Receiver.evolves_applyAll _ s.receiver).mono fun _ _ _ => trivial
    · exact .refl s.store

/-- The sessions that come of `s` by actions which may call such methods only as `M` allows, in any
order and whether they succeed or fail. Any replica may be in its turn. -/
inductive Later (M : NodeId → String → Prop) (s : Session) : Session → Prop
  | refl : Later M s s
  | step {s' : Session} (h : Later M s s') (a : Action)
    (ha : ∀ id method, a.MayCall id method → M id method) : Later M s (a.task.exec s').2
  | turned {s' : Session} (h : Later M s s') (replica : Replica) : Later M s { s' with replica }

/-- The session after actions, one after another. -/
def after (script : List Action) (s : Session) : Session :=
  script.foldl (fun s a => (a.task.exec s).2) s

theorem Later.after (h : Later M s s') {script : List Action}
    (hscript : ∀ a ∈ script, ∀ id method, a.MayCall id method → M id method) :
    Later M s (after script s') := by
  induction script generalizing s' with
  | nil => exact h
  | cons a script ih =>
    rw [List.forall_mem_cons] at hscript
    exact ih (h.step a hscript.1) hscript.2

theorem Later.evolves (h : Later M s s') : Store.Evolves M s.store s'.store := by
  induction h with
  | refl => exact .refl _
  | step _ a ha ih => exact ih.trans ((evolves_task a _).mono ha)
  | turned _ _ ih => exact ih

end Identity

end Patchbay
