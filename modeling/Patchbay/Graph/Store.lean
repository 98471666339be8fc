import Patchbay.Graph.Method

/-!
# The store of nodes

All nodes of a program are filed in one store under ascending numbers, the first of which is 1. A
number is used once, also when it is taken for no node.

* `Store.get?_add_self`, `Store.get?_add_of_lt`: a new node is found under its number, and the
  others where they were;
* `Store.get?_put_self`, `Store.get?_put_of_ne`: replacing a node changes no other.

An operation that can fail midway is a `Task`: it keeps what it did to the state before it failed.
-/

namespace Patchbay

/-- A computation on a state that may fail, keeping the state that it reached. -/
abbrev Task (State : Type) (α : Type) := ExceptT Fault (StateM State) α

namespace Task

/-- Runs a task: the outcome and the state reached. -/
def exec {State α : Type} (task : Task State α) (s : State) : Except Fault α × State :=
  (ExceptT.run task).run s

/-- Makes a task of a computation that needs no state. -/
def ofExcept {State α : Type} (e : Except Fault α) : Task State α := ExceptT.mk (pure e)

/-- Runs a task on a part of the state. -/
def onPart {State Part α : Type} (get : State → Part) (put : Part → State → State)
    (task : Task Part α) : Task State α :=
  ExceptT.mk fun s =>
    let (outcome, part) := task.exec (get s)
    (outcome, put part s)

end Task

/-- The nodes by number. Slot 0 is never used. -/
structure Store where
  slots : Array (Option Node)
deriving DecidableEq

namespace Store

/-- The store before the first node. -/
def empty : Store := ⟨#[none]⟩

/-- The number that is taken next. -/
def nextId (s : Store) : NodeId := s.slots.size

/-- The node under a number. -/
def get? (s : Store) (id : NodeId) : Option Node := s.slots[id]?.join

/-- Files a node under the next number. -/
def add (s : Store) (node : Node) : NodeRef × Store :=
  (⟨s.nextId, node.isSequence⟩, ⟨s.slots.push (some node)⟩)

/-- Takes the next number for no node. -/
def reserve (s : Store) : NodeId × Store := (s.nextId, ⟨s.slots.push none⟩)

/-- Replaces the node under a number that has been taken. -/
def put (s : Store) (id : NodeId) (node : Node) : Store := ⟨s.slots.setIfInBounds id (some node)⟩

theorem get?_add_self (s : Store) (node : Node) : (s.add node).2.get? s.nextId = some node := by
  simp [add, get?, nextId]

theorem get?_add_of_lt {s : Store} {id : NodeId} (h : id < s.nextId) (node : Node) :
    (s.add node).2.get? id = s.get? id := by
  have h' : id < s.slots.size := h
  simp [add, get?, Array.getElem?_push, Nat.ne_of_lt h']

theorem get?_put_self {s : Store} {id : NodeId} (h : id < s.nextId) (node : Node) :
    (s.put id node).get? id = some node := by
  have h' : id < s.slots.size := h
  simp [put, get?, h']

theorem get?_put_of_ne {s : Store} {id other : NodeId} (h : id ≠ other) (node : Node) :
    (s.put id node).get? other = s.get? other := by
  simp [put, get?, h]

theorem nextId_put (s : Store) (id : NodeId) (node : Node) : (s.put id node).nextId = s.nextId := by
  simp [put, nextId]

/-- The node under a number, which must be there. -/
def fetch (id : NodeId) : Task Store Node := do
  match (← get).get? id with
  | some node => return node
  | none => throw (.unknownReference id)

/-- Files a node that a constructor has made. -/
def build (made : Except Fault Node) : Task Store NodeRef := do
  let node ← Task.ofExcept made
  let (ref, s) := (← get).add node
  set s
  return ref

/-- Calls a method of a node. -/
def call (id : NodeId) (method : String) (args : List Value) : Task Store Value := do
  let node ← fetch id
  let (answer, node) ← Task.ofExcept (node.call id method args)
  modify (·.put id node)
  return answer

/-- One sample of a node from the values of its properties. -/
def process (id : NodeId) (inputs : List Float) : Task Store Float := do
  let (output, node) := (← fetch id).process inputs
  modify (·.put id node)
  return output

/-- Puts a value under a key of a node. -/
def setProperty (id : NodeId) (key : Key) (value : Value) : Task Store Unit := do
  let node ← fetch id
  modify (·.put id (node.setProperty key value))

end Store

end Patchbay
