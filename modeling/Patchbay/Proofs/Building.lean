import Patchbay.Proofs.Leftover

/-!
# What is true of all that a receiver builds

A receiver builds a value from nothing, from its table, or by a constructor from values that it has
built before. So what is true of the receiver and of the values at hand stays true while snapshots
are built, if it does in these three cases; and a fault comes from one of the last two.

* `Receiver.Handling`: what is true of a receiver and of values at hand, with the three cases;
* `Receiver.Handling.ends_build`: it is true of the value of a snapshot as well, or the task fails
  and it is true as before;
* `Receiver.Handling.ends_create`, `Receiver.Handling.ends_call`: so it is for messages.
-/

namespace Patchbay.Receiver

/-- What is true of a receiver and of values at hand, whatever is built from them, and the faults
that building meets. -/
structure Handling (Handles : List Value → Receiver → Prop) (Meets : Fault → Prop) : Prop where
  mono {values values' : List Value} {r : Receiver} :
    Handles values r → values' ⊆ values → Handles values' r
  /-- a value that is no node -/
  plain {values : List Value} {r : Receiver} {v : Value} :
    Handles values r → v.node? = none → Handles (v :: values) r
  /-- a node of the table -/
  table {values : List Value} {r : Receiver} {id : NodeId} {ref : NodeRef} :
    Handles values r → r.replica.get? id = some ref → Handles (.node ref :: values) r
  /-- a new node, made of properties at hand -/
  filed {values : List Value} {r : Receiver} {bag : Bag} {name : String}
    {constructor : Constructor} {node : Node} :
    Handles (bag.values ++ values) r → r.replica.constructor? name = some constructor →
      constructor bag = .ok node → ∀ id, Handles (.node (r.store.add node).1 :: values)
        (r.filed id node)
  unknownReference (id : NodeId) : Meets (.unknownReference id)
  unknownConstructor (name : String) : Meets (.unknownConstructor name)
  refused {values : List Value} {r : Receiver} {bag : Bag} {name : String}
    {constructor : Constructor} {e : Fault} :
    Handles values r → r.replica.constructor? name = some constructor →
      constructor bag = .error e → Meets e

/-- How a task ends that makes something with values: they are at hand then, or the task fails. -/
def Lands {α : Type} (Handles : List Value → Receiver → Prop) (Meets : Fault → Prop)
    (values : List Value) (made : α → List Value) : Except Fault α → Receiver → Prop
  | .ok a, r => Handles (made a ++ values) r
  | .error e, r => Handles values r ∧ Meets e

namespace Handling

variable {Handles : List Value → Receiver → Prop} {Meets : Fault → Prop} {values : List Value}

theorem ends_construct (h : Handling Handles Meets) (id : NodeId) (name : String) (bag : Bag) :
    (construct id name bag).Ends (Handles (bag.values ++ values))
      (Lands Handles Meets values fun ref => [.node ref]) := by
  intro r hr
  rcases exec_construct_cases id name bag r with
    ⟨constructor, node, hname, hmade, hexec⟩ | ⟨e, hexec, he⟩
  · rw [hexec]
    exact h.filed hr hname hmade id
  · rw [hexec]
    refine ⟨h.mono hr (List.subset_append_right _ _), ?_⟩
    rcases he with rfl | ⟨constructor, hname, hmade⟩
    · exact h.unknownConstructor name
    · exact h.refused hr hname hmade

theorem ends_lookup (h : Handling Handles Meets) (id : NodeId) :
    (lookup id).Ends (Handles values) (Lands Handles Meets values fun ref => [.node ref]) := by
  refine Task.ends_get_bind fun r hr => ?_
  split
  · rename_i ref href
    rintro _ rfl
    exact h.table hr href
  · rintro _ rfl
    exact ⟨hr, h.unknownReference id⟩

mutual

/-- A snapshot lands at hand, with the parts that are built before it. -/
theorem ends_build (h : Handling Handles Meets) : ∀ (snapshot : Snapshot) (values : List Value),
    (build snapshot).Ends (Handles values) (Lands Handles Meets values fun v => [v])
  | .scalar _, _ | .bool _, _ | .text _, _ | .unset, _ => by
    rw [build]
    exact Task.ends_pure fun r hr => h.plain hr rfl
  | .reference id, values => by
    rw [build]
    exact (h.ends_lookup id).bind (fun _ => Task.ends_pure fun _ hr => hr) fun _ _ hr => hr
  | .created path properties id, values => by
    rw [build]
    refine Task.ends_get_bind fun r hr => ?_
    split
    · rename_i ref href
      rintro _ rfl
      exact h.table hr href
    · refine Task.Ends.imp (P := Handles values) ?_ (by rintro _ rfl; exact hr) fun _ _ hr => hr
      exact (ends_buildBag h properties .empty values).bind
        (fun bag => (h.ends_construct id _ bag).bind (fun _ => Task.ends_pure fun _ hr => hr)
          fun _ _ hr => hr) fun _ _ hr => hr
  | .node id name properties, values => by
    rw [build]
    exact (ends_buildBag h properties .empty values).bind
      (fun bag => (h.ends_construct id name bag).bind (fun _ => Task.ends_pure fun _ hr => hr)
        fun _ _ hr => hr) fun _ _ hr => hr

/-- So does each value of properties. -/
theorem ends_buildBag (h : Handling Handles Meets) :
    ∀ (properties : List (String × Snapshot)) (bag : Bag) (values : List Value),
      (buildBag properties bag).Ends (Handles (bag.values ++ values))
        (Lands Handles Meets values Bag.values)
  | [], _, _ => by
    rw [buildBag]
    exact Task.ends_pure fun _ hr => hr
  | (key, snapshot) :: rest, bag, values => by
    rw [buildBag]
    refine (ends_build h snapshot (bag.values ++ values)).bind (fun v => ?_) fun _ _ hr =>
      ⟨h.mono hr.1 (List.subset_append_right _ _), hr.2⟩
    refine (ends_buildBag h rest (bag.set (Key.parse key) v) values).imp (fun r hr => ?_)
      fun _ _ hr => hr
    refine h.mono hr fun w hw => ?_
    rcases List.mem_append.1 hw with hw | hw
    · rcases Bag.mem_values_set hw with rfl | hw
      · exact List.mem_cons_self
      · exact List.mem_cons_of_mem v (List.mem_append_left values hw)
    · exact List.mem_cons_of_mem v (List.mem_append_right bag.values hw)

end

theorem ends_buildAll (h : Handling Handles Meets) (snapshots : List Snapshot)
    (values : List Value) :
    (buildAll snapshots).Ends (Handles values)
      (Lands Handles Meets values fun made => made) := by
  induction snapshots generalizing values with
  | nil => exact Task.ends_pure fun _ hr => hr
  | cons snapshot rest ih =>
    refine (h.ends_build snapshot values).bind (fun v => ?_) fun _ _ hr => hr
    refine (ih (v :: values)).bind (fun vs => Task.ends_pure fun r hr => ?_) fun _ _ hr =>
      ⟨h.mono hr.1 (List.subset_cons_self _ _), hr.2⟩
    refine h.mono hr fun w hw => ?_
    rcases List.mem_cons.1 hw with rfl | hw
    · exact List.mem_append_right vs List.mem_cons_self
    · rcases List.mem_append.1 hw with hw | hw
      · exact List.mem_append_left _ hw
      · exact List.mem_append_right vs (List.mem_cons_of_mem v hw)

/-! ## Messages -/

theorem ends_create (h : Handling Handles Meets) (c : Create) :
    (create c).Ends (Handles values) (Lands Handles Meets values fun ref => [.node ref]) :=
  (h.ends_buildBag c.properties .empty values).bind
    (fun bag => h.ends_construct c.id _ bag) fun _ _ hr => hr

/-- A call ends as its method does, on a node of the table and with its arguments at hand. -/
theorem ends_call (h : Handling Handles Meets) (c : Call)
    (hmethod : ∀ (target : NodeRef) (args : List Value),
      (onStore (Store.call target.id c.method args)).Ends (Handles (args ++ values))
        (Lands Handles Meets values fun v => [v])) :
    (call c).Ends (Handles values) (Lands Handles Meets values fun v => [v]) := by
  refine (h.ends_lookup c.object).bind (fun target => ?_) fun _ _ hr => hr
  refine ((h.ends_buildAll c.args values).bind (hmethod target) fun _ _ hr => hr).imp
    (fun r hr => ?_) fun _ _ hr => hr
  exact h.mono hr (List.subset_cons_self _ _)

end Handling

end Patchbay.Receiver
