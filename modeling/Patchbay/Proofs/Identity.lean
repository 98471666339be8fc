import Patchbay.Proofs.Intact
import Patchbay.Proofs.Session

/-!
# The identity of nodes

In a session nodes are constructed, wrapped, called, compiled and sampled, and messages and
snapshots are built by its replica, in any order. Replicas may take turns. Whoever does all that has
nodes from answers, from the properties of nodes and from the tables, and has no other nodes to pass
on.

* `Identity.Action`, `Identity.Held`, `Identity.Reached`: what is done, the nodes there are to do it
  with, and the sessions that come of it;
* `Identity.ends_task`, `Identity.Reached.intact`: each action keeps the replica intact, with all
  that was answered, and so do all actions in a row;
* `Identity.identities`: so the numbers of nodes ascend in the order of construction, every value
  that is a node names a node, and a table gives different nodes to different numbers.
-/

namespace Patchbay

namespace Session

/-- The replica of a session, with the store. -/
def receiver (s : Session) : Receiver := ⟨s.store, s.replica⟩

variable {r : Receiver}

theorem keeps_receiver_onStore_fetch (id : NodeId) :
    (onStore (Store.fetch id)).Keeps (·.receiver = r) := by
  intro s hs
  rw [exec_onStore, Store.keeps_fetch (· = s.store) id s.store rfl]
  exact hs

/-- A wrap changes the layers and a relay. -/
theorem keeps_receiver_wrap (number : Nat) (path : NamePath) (suppress : Bool) (id : NodeId) :
    (wrap number path suppress id).Keeps (·.receiver = r) := by
  have hlayer (layer : Option Layer) :
      (modify (addLayer id layer) : Task Session Unit).Keeps (·.receiver = r) :=
    Task.keeps_modify fun _ hs => hs
  have hcreate (create : Create) :
      (modify (modifyRelay number (·.sendCreate create)) : Task Session Unit).Keeps
        (·.receiver = r) :=
    Task.keeps_modify fun _ hs => hs
  unfold wrap
  refine Task.keeps_get_bind fun s _ => ?_
  split
  · split
    · unfold wrapActive
      refine Task.keeps_get_bind fun s _ => (keeps_receiver_onStore_fetch id).bind fun node => ?_
      refine (Task.keeps_ofExcept _).bind fun properties => ?_
      exact (hcreate _).bind fun _ => (hlayer _).bind fun _ => Task.keeps_pure _
    · exact (hlayer none).bind fun _ => Task.keeps_pure _
  · exact (hlayer none).bind fun _ => Task.keeps_pure _

/-- Sending a call on changes relays. -/
theorem keeps_receiver_sendCalls (id : NodeId) (method : String) (args : List Value)
    (layers : List (Option Layer)) :
    (sendCalls id method args layers).Keeps (·.receiver = r) := by
  have hcall (layer : Layer) : (sendCall id method args layer).Keeps (·.receiver = r) := by
    unfold sendCall
    refine Task.keeps_get_bind fun s _ => ?_
    split
    · exact Task.keeps_pure ()
    · split
      · exact (Task.keeps_ofExcept _).bind fun _ => Task.keeps_modify fun _ hs => hs
      · exact Task.keeps_pure ()
  induction layers with
  | nil => exact Task.keeps_pure ()
  | cons layer rest ih =>
    cases layer with
    | none => exact ih
    | some layer => exact (hcall layer).bind fun _ => ih

/-- An invocation fails, or it calls the method on the nodes as they were. -/
theorem receiver_invoke (s : Session) (id : NodeId) (method : String) (args : List Value) :
    (∃ e, ((invoke id method args).exec s).1 = .error e ∧
      ((invoke id method args).exec s).2.receiver = s.receiver) ∨
    ((invoke id method args).exec s).1 =
        ((Receiver.onStore (Store.call id method args)).exec s.receiver).1 ∧
      ((invoke id method args).exec s).2.receiver =
        ((Receiver.onStore (Store.call id method args)).exec s.receiver).2 := by
  cases hpublic : isPrivate method with
  | true =>
    rw [invoke_private hpublic]
    exact .inr ⟨rfl, rfl⟩
  | false =>
    have hsent := keeps_receiver_sendCalls id method args (s.layersOf id) s rfl
    rw [invoke_public hpublic]
    rcases hexec : (sendCalls id method args (s.layersOf id)).exec s with ⟨e | u, s'⟩
    · rw [hexec] at hsent
      exact .inl ⟨e, rfl, hsent⟩
    · rw [hexec] at hsent
      rw [← hsent]
      exact .inr ⟨rfl, rfl⟩

end Session

namespace Identity

/-! ## Actions -/

/-- What is done in a session. -/
inductive Action where
  | make (maker : Maker)
  | addRelay (relay : Relay)
  | wrap (number : Nat) (path : NamePath) (suppress : Bool) (id : NodeId)
  | unwrap (id : NodeId)
  | invoke (id : NodeId) (method : String) (args : List Value)
  | compile (limit : Nat) (id : NodeId)
  | compileApart (limit : Nat) (id : NodeId)
  | tick (limit : Nat) (id : NodeId)
  | build (snapshot : Snapshot)
  | apply (message : Message)
  /-- applies what waits in the channel of a relay -/
  | sync (number : Nat)

namespace Action

/-- The action, with its answer. -/
def task : Action → Task Session Value
  | make maker => .node <$> Session.onStore (Store.build maker.make)
  | addRelay relay =>
    (fun _ => .unset) <$> (modify fun s => (s.addRelay relay).2 : Task Session Unit)
  | wrap number path suppress id => (fun _ => .unset) <$> Session.wrap number path suppress id
  | unwrap id => (fun _ => .unset) <$> (modify (Session.dropLayer id) : Task Session Unit)
  | invoke id method args => Session.invoke id method args
  | compile limit id => .text <$> Session.onStore (Store.compile limit id)
  | compileApart limit id => .text <$> Session.onStore (Store.compileApart limit id)
  | tick limit id => .scalar <$> Session.onStore (Store.tick limit id)
  | build snapshot => Session.build snapshot
  | apply message => Session.apply message
  | sync number => (fun _ => .unset) <$>
      (modify fun s => ((s.sync? number).map Prod.snd).getD s : Task Session Unit)

/-- The values that the action passes to a constructor or a method. -/
def given : Action → List Value
  | make maker => maker.values
  | invoke _ _ args => args
  | _ => []

end Action

/-- The answer of an action, if it succeeds. -/
def answered : Except Fault Value → List Value
  | .ok v => [v]
  | .error _ => []

/-- The value that is a node is at hand: as an answer, as a property of a node, or in a table, that
of the session or of one of the other replicas. -/
def Held (s : Session) (others : List Replica) (answers : List Value) (n : NodeRef) : Prop :=
  .node n ∈ answers ∨
    (∃ id node, s.store.get? id = some node ∧ .node n ∈ node.properties.values) ∨
    ∃ replica ∈ s.replica :: others, ∃ wire, replica.get? wire = some n

/-- The sessions that come of actions, in any order and whether they succeed or fail, with the
replicas that do not have their turn, and with what was answered, the last answer first. Each action
passes on nodes that are at hand. -/
inductive Reached : Session → List Replica → List Value → Prop
  | start : Reached .start [] []
  | step {s : Session} {others : List Replica} {answers : List Value}
    (h : Reached s others answers) (a : Action)
    (hgiven : ∀ n, .node n ∈ a.given → Held s others answers n) :
    Reached (a.task.exec s).2 others (answered (a.task.exec s).1 ++ answers)
  /-- a new replica has its turn -/
  | begun {s : Session} {others : List Replica} {answers : List Value}
    (h : Reached s others answers) :
    Reached { s with replica := .empty } (s.replica :: others) answers
  /-- one of the other replicas has its turn again -/
  | resumed {s : Session} {before after : List Replica} {replica : Replica} {answers : List Value}
    (h : Reached s (before ++ replica :: after) answers) :
    Reached { s with replica } (before ++ s.replica :: after) answers

variable {s : Session} {others : List Replica} {answers values : List Value} {n : NodeRef}

/-- An action that answers no node keeps the replica intact if it does so in the session. -/
theorem ends_map {α : Type} (f : α → Value) (hf : ∀ a, (f a).node? = none) {t : Task Session α}
    (ht : t.Keeps fun s => s.receiver.Intact others values) :
    (f <$> t).Ends (fun s => s.receiver.Intact others values) fun outcome s =>
      Receiver.Lands (Receiver.Intact others) (fun _ => True) values (fun v => [v]) outcome
        s.receiver := by
  intro s hs
  have hafter := ht s hs
  rw [Task.exec_map]
  rcases (t.exec s).1 with e | a
  · exact ⟨hafter, trivial⟩
  · exact hafter.cons_of_node?_eq_none (hf a)

/-- Each action keeps the replica intact, and its answer is one more value at hand. -/
theorem ends_task (a : Action) :
    a.task.Ends (fun s => s.receiver.Intact others (a.given ++ values)) fun outcome s =>
      Receiver.Lands (Receiver.Intact others) (fun _ => True) values (fun v => [v]) outcome
        s.receiver := by
  have hstore {α : Type} {t : Task Store α} (halike : ∀ s, Store.Alike s (t.exec s).2)
      (hproper : t.Keeps Store.Proper) :
      (Session.onStore t).Keeps fun s => s.receiver.Intact others values :=
    fun s hs => hs.outlasted (halike s.store).outlasts (hproper s.store hs.store)
  cases a with
  | make maker =>
    intro s hs
    rw [Action.task, Task.exec_map, Session.exec_onStore]
    cases hmake : maker.make with
    | error e =>
      rw [Store.exec_build_error]
      exact ⟨hs.mono (List.subset_append_right _ _), trivial⟩
    | ok node =>
      rw [Store.exec_build_ok]
      exact (hs.mono (List.subset_append_right _ _)).built
        (fun n hn => hs.values n (List.mem_append_left values hn)) hmake
  | addRelay relay => exact ends_map _ (fun _ => rfl) (Task.keeps_modify fun _ hs => hs)
  | wrap number path suppress id =>
    have hwrap : (Session.wrap number path suppress id).Keeps
        (·.receiver.Intact others values) := by
      intro s hs
      rw [Session.keeps_receiver_wrap number path suppress id s rfl]
      exact hs
    exact ends_map _ (fun _ => rfl) hwrap
  | unwrap id => exact ends_map _ (fun _ => rfl) (Task.keeps_modify fun _ hs => hs)
  | invoke id method args =>
    intro s hs
    rcases s.receiver_invoke id method args with ⟨e, houtcome, hsame⟩ | ⟨houtcome, hafter⟩
    · rw [Action.task, houtcome, hsame]
      exact ⟨hs.mono (List.subset_append_right _ _), trivial⟩
    · rw [Action.task, houtcome, hafter]
      exact Receiver.intact_called id method args s.receiver hs
  | compile limit id =>
    exact ends_map _ (fun _ => rfl) (hstore (Store.alike_compile limit id)
      (Store.proper_compile limit id))
  | compileApart limit id =>
    exact ends_map _ (fun _ => rfl) (hstore (Store.alike_compileApart limit id)
      (Store.proper_compileApart limit id))
  | tick limit id =>
    exact ends_map _ (fun _ => rfl) (hstore (Store.alike_tick limit id)
      (Store.proper_tick limit id))
  | build snapshot =>
    intro s hs
    exact Receiver.handling_intact.ends_build snapshot values s.receiver hs
  | apply message =>
    intro s hs
    have hvalues : s.receiver.Intact others values := hs
    exact Receiver.intact_apply message s.receiver hvalues
  | sync number =>
    refine ends_map _ (fun _ => rfl) (Task.keeps_modify fun s hs => ?_)
    unfold Session.sync?
    split
    · exact hs.applyAll _
    · exact hs

theorem knows_of_held (h : s.receiver.Intact others answers) (hn : Held s others answers n) :
    s.store.Knows n := by
  rcases hn with hanswer | ⟨id, node, hnode, hproperty⟩ | ⟨replica, hreplica, wire, hwire⟩
  · exact Store.denotes_iff.1 h.values n hanswer
  · exact h.store.linked id node hnode n hproperty
  · exact (List.forall_mem_cons.2 ⟨h.replica, h.others⟩ replica hreplica).table wire n hwire

theorem Reached.intact (h : Reached s others answers) : s.receiver.Intact others answers := by
  induction h with
  | start => exact Receiver.intact_start
  | @step s others answers _ a hgiven ih =>
    have hvalues : s.receiver.Intact others (a.given ++ answers) := by
      refine { ih with values := Store.denotes_iff.2 fun n hn => ?_ }
      rcases List.mem_append.1 hn with hn | hn
      · exact knows_of_held ih (hgiven n hn)
      · exact Store.denotes_iff.1 ih.values n hn
    have hend := ends_task a s hvalues
    rcases hexec : a.task.exec s with ⟨e | v, s'⟩
    · rw [hexec] at hend
      exact hend.1
    · rw [hexec] at hend
      exact hend
  | begun _ ih =>
    exact ⟨ih.store, Replica.intact_empty _,
      List.forall_mem_cons.2 ⟨ih.replica, ih.others⟩, ih.values⟩
  | resumed _ ih =>
    obtain ⟨hbefore, hrest⟩ := List.forall_mem_append.1 ih.others
    obtain ⟨hreplica, hafter⟩ := List.forall_mem_cons.1 hrest
    exact ⟨ih.store, hreplica,
      List.forall_mem_append.2 ⟨hbefore, List.forall_mem_cons.2 ⟨ih.replica, hafter⟩⟩, ih.values⟩

/-- **Every store that a session reaches is sound**: its nodes have come about as nodes do, and
those in properties are there. -/
theorem Reached.sound (h : Reached s others answers) : s.store.Sound := h.intact.store.sound

/-- The numbers of nodes ascend, also as numbers of 64 bits while there are fewer nodes than those
can number. -/
theorem pairwise_numbers {count : Nat} {refs : List NodeRef}
    (h : refs.map NodeRef.id = List.range' 1 count) (hcount : count < 2 ^ 64) :
    (refs.map fun n => UInt64.ofNat n.id).Pairwise (· < ·) := by
  have hmap : (refs.map fun n => UInt64.ofNat n.id) = (List.range' 1 count).map UInt64.ofNat := by
    rw [← h, List.map_map]
    rfl
  rw [hmap, List.pairwise_map]
  refine List.Pairwise.imp_of_mem (fun {i j} hi hj hlt => ?_) (List.pairwise_lt_range' 1)
  rw [List.mem_range'_1] at hi hj
  rw [UInt64.lt_iff_toNat_lt, UInt64.toNat_ofNat_of_lt' (show i < 2 ^ 64 by omega),
    UInt64.toNat_ofNat_of_lt' (show j < 2 ^ 64 by omega)]
  exact hlt

/-- **Numbers are the identity of nodes.** In every session that comes of actions, in any order and
whether they succeed or fail, the nodes that were constructed, here or by messages, have ascending
numbers in the order of their construction, and these are all that were taken. Every value that is a
node, whether it was answered or stands in a property or in a table, is one that a constructor gave
out, and names a node that is a sequence exactly if the value says so. Different numbers of a table
have different nodes. A constructor that fails changes nothing, on either side. -/
theorem identities (h : Reached s others answers) :
    (∃ refs : List NodeRef, Store.History .empty refs s.store ∧
      refs.map NodeRef.id = List.range' 1 refs.length ∧ s.store.nextId = refs.length + 1 ∧
      (refs.map NodeRef.id).Pairwise (· < ·) ∧
      (refs.length < 2 ^ 64 → (refs.map fun n => UInt64.ofNat n.id).Pairwise (· < ·)) ∧
      (∀ n, Held s others answers n → n ∈ refs) ∧
      ∀ n ∈ refs, ∃ node, s.store.get? n.id = some node ∧ node.isSequence = n.isSequence) ∧
    (∀ replica ∈ s.replica :: others, ∀ wire wire' n n', wire ≠ wire' →
      replica.get? wire = some n → replica.get? wire' = some n' → n.id ≠ n'.id) ∧
    (∀ maker e, maker.make = .error e → (Action.make maker).task.exec s = (.error e, s)) ∧
    ∀ wire name bag e r', (Receiver.construct wire name bag).exec s.receiver = (.error e, r') →
      r' = s.receiver := by
  have hintact := h.intact
  obtain ⟨refs, hrefs⟩ := hintact.store.history
  obtain ⟨hids, hnext⟩ := hrefs.numbers
  refine ⟨⟨refs, hrefs, hids, hnext, ?_, pairwise_numbers hids, ?_, fun n hn => hrefs.mem_iff.1 hn⟩,
    ?_, ?_, ?_⟩
  · rw [hids]
    exact List.pairwise_lt_range' 1
  · exact fun n hn => hrefs.mem_iff.2 (knows_of_held hintact hn)
  · intro replica hreplica wire wire' n n' hne hn hn' heq
    have htable := List.forall_mem_cons.2 ⟨hintact.replica, hintact.others⟩ replica hreplica
    exact hne (htable.distinct wire wire' n n' hn hn' heq)
  · intro maker e hmake
    rw [Action.task, Task.exec_map, Session.exec_onStore, hmake, Store.exec_build_error]
    rfl
  · exact fun wire name bag e r' hexec => Receiver.exec_construct_error hexec

theorem held_of_answers {a : Action}
    (h : ∀ v ∈ a.given, ∀ n ∈ v.node?, Value.node n ∈ answers) :
    ∀ n, .node n ∈ a.given → Held s others answers n :=
  fun n hn => .inl (Value.forall_node_iff.2 h n hn)

/-- A sum that holds a sequence that holds the sum, a constructor that fails here and one that fails
behind a full copy of a node, what a relay sends of it, and a product that another replica makes. -/
theorem identities_mixed : ∃ s others answers, Reached s others answers ∧
    s.replica.ids = [1, 2, 4, 9] ∧ others.map Replica.ids = [[5]] ∧
    ∃ refs : List NodeRef, Store.History .empty refs s.store ∧ s.store.nextId = refs.length + 1 ∧
      (refs.map NodeRef.id).Pairwise (· < ·) ∧ ∀ n, Held s others answers n → n ∈ refs := by
  have h₁ := Reached.start.step (.make (.chain .add [.bool true, .unset]))
    (held_of_answers (by decide +kernel))
  have h₂ := h₁.step (.make (.chain .mul [])) (held_of_answers (by decide +kernel))
  have h₃ := h₂.step (.addRelay (.start .worklet (.channel .context (some [])) []))
    (held_of_answers (by decide +kernel))
  have h₄ := h₃.step (.wrap 0 ["Add"] false 1) (held_of_answers (by decide +kernel))
  have h₅ := h₄.step (.make (.sequence [.node ⟨1, false⟩] (.bool true)))
    (held_of_answers (by decide +kernel))
  have h₆ := h₅.step (.invoke 1 "set" [.text "gain", .node ⟨2, true⟩])
    (held_of_answers (by decide +kernel))
  have h₇ := h₆.step (.apply (.create ⟨["Sine"], [("0", .node 9 "add" [("0", .unset)])], 8⟩))
    (held_of_answers (by decide +kernel))
  have h₈ := h₇.begun.step (.apply (.create ⟨["Mul"], [("0", .bool true)], 5⟩))
    (held_of_answers (by decide +kernel))
  have h₉ := (@Reached.resumed _ [] [] _ _ h₈).step
    (.apply (.create ⟨["Mul"], [("0", .reference 9)], 4⟩)) (held_of_answers (by decide +kernel))
  have h₁₀ := h₉.step (.sync 0) (held_of_answers (by decide +kernel))
  obtain ⟨⟨refs, hrefs, -, hnext, hascending, -, hheld, -⟩, -⟩ := identities h₁₀
  exact ⟨_, _, _, h₁₀, by decide +kernel, by decide +kernel, refs, hrefs, hnext, hascending, hheld⟩

end Identity

end Patchbay
