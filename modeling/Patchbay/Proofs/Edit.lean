import Patchbay.Proofs.Kind
import Patchbay.Proofs.Store

/-!
# What a call does to a node

Of all methods only `set` changes a property, and no method changes the kind of a node. So what a
call does to the properties is a function of them alone (`Bag.edit`), whether it succeeds or fails
(`Node.edit_of_call`, `Node.edit_of_fault`), and it does the same to bags that match
(`Bag.Matches.edit`). A store has the same nodes after it, one of them edited (`Store.get?_call`).
-/

namespace Patchbay

/-- The properties after a call. -/
def Bag.edit (b : Bag) (method : String) (args : List Value) : Bag :=
  if method = "set" then
    match args with
    | [key, value] =>
      match key.key? with
      | some key => b.set key value
      | none => b
    | _ => b
  else b

theorem Bag.edit_of_ne {method : String} (h : method ≠ "set") (b : Bag) (args : List Value) :
    b.edit method args = b := if_neg h

theorem Bag.Matches.edit {R : Value → Value → Prop} (hkey : ∀ v v', R v v' → v'.key? = v.key?)
    {b b' : Bag} (h : b.Matches R b') (method : String) {args args' : List Value}
    (hargs : List.Forall₂ R args args') :
    (b.edit method args).Matches R (b'.edit method args') := by
  unfold Bag.edit
  split
  · rcases hargs with _ | ⟨hk, _ | ⟨hv, _ | ⟨_, _⟩⟩⟩
    · exact h
    · exact h
    · simp only [hkey _ _ hk]
      split
      · exact h.set _ hv
      · exact h
    · exact h
  · exact h

/-- The nodes among the values after a call are those before it and those among the arguments. -/
theorem Bag.mem_values_edit {b : Bag} {method : String} {args : List Value} {v : Value}
    (h : v ∈ (b.edit method args).values) : v ∈ args ∨ v ∈ b.values := by
  unfold Bag.edit at h
  split at h
  · split at h
    · split at h
      · rcases Bag.mem_values_set h with rfl | h
        · exact Or.inl (List.mem_cons_of_mem _ List.mem_cons_self)
        · exact Or.inr h
      · exact Or.inr h
    · exact Or.inr h
  · exact Or.inr h

namespace Node

variable {n n' : Node} {id : NodeId} {method : String} {args : List Value} {answer : Value}
  {e : Fault}

theorem edit_of_callCommon (h : callCommon id n method args = .ok (answer, n')) :
    n'.kind = n.kind ∧ n'.properties = n.properties.edit method args := by
  unfold callCommon at h
  split at h
  · rename_i hset
    subst hset
    unfold callSet at h
    split at h
    · rename_i key value
      split at h
      · rename_i k hk
        cases h
        refine ⟨rfl, ?_⟩
        simp only [Bag.edit, if_true, hk]
        rfl
      · cases h
    · cases h
  · rename_i hset
    rw [Bag.edit_of_ne hset]
    split at h
    · unfold callGet at h
      split at h
      · cases h
        exact ⟨rfl, rfl⟩
      · cases h
    · cases h

theorem edit_of_callSet_fault (h : n.callSet args = .error e) :
    n.properties.edit "set" args = n.properties := by
  rcases args with _ | ⟨key, _ | ⟨value, _ | ⟨_, _⟩⟩⟩
  · rfl
  · rfl
  · rw [callSet] at h
    cases hkey : key.key? with
    | none => simp only [Bag.edit, if_true, hkey]
    | some k =>
      rw [hkey] at h
      cases h
  · rfl

theorem edit_of_callCommon_fault (h : callCommon id n method args = .error e) :
    n.properties.edit method args = n.properties := by
  unfold callCommon at h
  by_cases hset : method = "set"
  · rw [if_pos hset] at h
    rw [hset]
    exact edit_of_callSet_fault h
  · exact Bag.edit_of_ne hset _ _

theorem ne_set_of_callPlayback? {p p' : Playback} (h : callPlayback? p method = some (answer, p')) :
    method ≠ "set" := by
  rintro rfl
  cases h

/-- A call that succeeds keeps the kind and edits the properties. -/
theorem edit_of_call (h : n.call id method args = .ok (answer, n')) :
    n'.kind = n.kind ∧ n'.properties = n.properties.edit method args := by
  unfold call at h
  split at h
  · split at h
    · rename_i hmethod
      cases h
      exact ⟨rfl, (Bag.edit_of_ne (hmethod ▸ by decide) _ _).symm⟩
    · exact edit_of_callCommon h
  · rename_i p hbody
    split at h
    · rename_i hplayback
      cases h
      refine ⟨?_, (Bag.edit_of_ne (ne_set_of_callPlayback? hplayback) _ _).symm⟩
      rw [kind, kind, hbody]
      rfl
    · exact edit_of_callCommon h
  · exact edit_of_callCommon h

/-- A call that fails is one that would edit nothing. -/
theorem edit_of_fault (h : n.call id method args = .error e) :
    n.properties.edit method args = n.properties := by
  unfold call at h
  split at h
  · split at h
    · cases h
    · exact edit_of_callCommon_fault h
  · split at h
    · cases h
    · exact edit_of_callCommon_fault h
  · exact edit_of_callCommon_fault h

end Node

/-- A call edits one node and leaves all others alone, whether it succeeds or fails. -/
theorem Store.call_edits {s : Store} {id : NodeId} {node : Node} (h : s.get? id = some node)
    (method : String) (args : List Value) :
    ∃ node', ((call id method args).exec s).2.get? id = some node' ∧ node'.kind = node.kind ∧
      node'.properties = node.properties.edit method args ∧
      (∀ other, other ≠ id → ((call id method args).exec s).2.get? other = s.get? other) ∧
      ((call id method args).exec s).2.nextId = s.nextId := by
  rw [exec_call h]
  split
  · rename_i answer node' hcall
    obtain ⟨hkind, hproperties⟩ := Node.edit_of_call hcall
    refine ⟨node', get?_put_self (lt_nextId h) node', hkind, hproperties, fun other hne => ?_,
      nextId_put ..⟩
    exact get?_put_of_ne (Ne.symm hne) node'
  · rename_i hcall
    exact ⟨node, h, rfl, (Node.edit_of_fault hcall).symm, fun _ _ => rfl, rfl⟩

/-- What becomes of any node when a method is called. -/
theorem Store.get?_call {s : Store} {other : NodeId} {node : Node} (h : s.get? other = some node)
    (id : NodeId) (method : String) (args : List Value) :
    ∃ node', ((call id method args).exec s).2.get? other = some node' ∧ node'.kind = node.kind ∧
      node'.properties =
        if other = id then node.properties.edit method args else node.properties := by
  cases hid : s.get? id with
  | none =>
    have hne : other ≠ id := by
      rintro rfl
      cases hid.symm.trans h
    rw [call, Task.exec_bind_error (exec_fetch_none hid), if_neg hne]
    exact ⟨node, h, rfl, rfl⟩
  | some target =>
    obtain ⟨target', htarget', hkind, hproperties, hothers, -⟩ := call_edits hid method args
    by_cases heq : other = id
    · subst heq
      cases hid.symm.trans h
      exact ⟨target', htarget', hkind, hproperties.trans (if_pos rfl).symm⟩
    · exact ⟨node, (hothers other heq).trans h, rfl, (if_neg heq).symm⟩

/-- A call makes no node. -/
theorem Store.of_get?_call {s : Store} {id other : NodeId} {method : String} {args : List Value}
    {node' : Node} (h : ((call id method args).exec s).2.get? other = some node') :
    ∃ node, s.get? other = some node ∧ node'.kind = node.kind ∧ node'.properties =
      if other = id then node.properties.edit method args else node.properties := by
  cases hother : s.get? other with
  | some node =>
    obtain ⟨node'', hnode'', hafter⟩ := get?_call hother id method args
    cases h.symm.trans hnode''
    exact ⟨node, rfl, hafter⟩
  | none =>
    cases hid : s.get? id with
    | none =>
      rw [call, Task.exec_bind_error (exec_fetch_none hid)] at h
      cases h.symm.trans hother
    | some target =>
      have hne : other ≠ id := by
        rintro rfl
        cases hid.symm.trans hother
      obtain ⟨-, -, -, -, hothers, -⟩ := call_edits hid method args
      cases h.symm.trans ((hothers other hne).trans hother)

end Patchbay
