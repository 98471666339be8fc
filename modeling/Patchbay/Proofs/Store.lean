import Patchbay.Proofs.Task

/-!
# Running the operations of the store

What each operation does to the store, and that none of them takes a node away: a number that is
taken stays taken, and the node under it keeps its kind of form.
-/

namespace Patchbay.Store

open Patchbay.Task

variable {s : Store} {id other : NodeId} {node : Node}

theorem lt_nextId (h : s.get? id = some node) : id < s.nextId := by
  unfold get? at h
  refine Nat.lt_of_not_le fun hle => ?_
  rw [Array.getElem?_eq_none hle] at h
  cases h

theorem get?_put (h : s.get? id = some node) (node' : Node) (other : NodeId) :
    (s.put id node').get? other = if other = id then some node' else s.get? other := by
  split
  · rename_i heq
    rw [heq, get?_put_self (lt_nextId h)]
  · rename_i hne
    exact get?_put_of_ne (Ne.symm hne) node'

theorem get?_add (s : Store) (node : Node) (id : NodeId) :
    (s.add node).2.get? id = if id = s.nextId then some node else s.get? id := by
  split
  · rename_i heq
    rw [heq, get?_add_self]
  · rename_i hne
    rcases Nat.lt_or_gt_of_ne hne with hlt | hgt
    · exact get?_add_of_lt hlt node
    · have hsize : s.slots.size < id := hgt
      simp only [add, get?, Array.getElem?_push]
      rw [if_neg (Nat.ne_of_gt hsize)]

theorem exec_fetch (h : s.get? id = some node) : (fetch id).exec s = (.ok node, s) := by
  unfold fetch
  rw [exec_get_bind, h]
  rfl

theorem exec_fetch_none (h : s.get? id = none) :
    (fetch id).exec s = (.error (.unknownReference id), s) := by
  unfold fetch
  rw [exec_get_bind, h]
  rfl

theorem get?_of_fetch {s' : Store} (h : (fetch id).exec s = (.ok node, s')) :
    s.get? id = some node ∧ s' = s := by
  cases hid : s.get? id with
  | none =>
    rw [exec_fetch_none hid] at h
    cases h
  | some node' =>
    rw [exec_fetch hid] at h
    cases h
    exact ⟨rfl, rfl⟩

theorem exec_build_ok (node : Node) :
    (build (.ok node)).exec s = (.ok (s.add node).1, (s.add node).2) := by
  unfold build
  rw [exec_bind, exec_ofExcept]
  rfl

theorem exec_build_error (e : Fault) : (build (.error e)).exec s = (.error e, s) := by
  unfold build
  rw [exec_bind, exec_ofExcept]

/-- A call on a node answers and changes that node alone, or fails and changes nothing. -/
theorem exec_call (h : s.get? id = some node) (method : String) (args : List Value) :
    (call id method args).exec s =
      match node.call id method args with
      | .ok (answer, node') => (.ok answer, s.put id node')
      | .error e => (.error e, s) := by
  unfold call
  rw [exec_bind, exec_fetch h]
  simp only
  rw [exec_bind, exec_ofExcept]
  rcases node.call id method args with e | ⟨answer, node'⟩
  · rfl
  · rfl

theorem exec_process (h : s.get? id = some node) (inputs : List Float) :
    (process id inputs).exec s =
      (.ok (node.process inputs).1, s.put id (node.process inputs).2) := by
  unfold process
  rw [exec_bind, exec_fetch h]
  rfl

end Patchbay.Store
