import Patchbay.Proofs.Footprint

/-!
# Which numbers a message records

A message that succeeds has recorded a node under the number that it announces, and under those of
all nodes that came up to be made while it was built. No other numbers come into the table.

* `Receiver.Builds`: snapshots are built one after another, and none fails;
* `Receiver.Reached.recorded`: then the number of each node that came up is in the table;
* `Receiver.mem_ids_of_apply`: so the table after a message has the numbers of before and those that
  the message recorded.
-/

namespace Patchbay

/-- The message records a node under the number, if it succeeds: it announces the node, or while its
snapshots are built one comes up that makes a node under the number. -/
def Message.Records (m : Message) (r : Receiver) (id : NodeId) : Prop :=
  (∃ c, m = .create c ∧ c.id = id) ∨ Receiver.Entered r m.snapshots id

namespace Receiver

/-- The snapshots are built one after another, and none fails. -/
inductive Builds : Receiver → List Snapshot → Receiver → Prop
  | nil {r : Receiver} : Builds r [] r
  | cons {r r₁ r' : Receiver} {snapshot : Snapshot} {rest : List Snapshot} {value : Value}
    (built : (build snapshot).exec r = (.ok value, r₁)) (later : Builds r₁ rest r') :
    Builds r (snapshot :: rest) r'

variable {r r' r₁ : Receiver} {snapshot part : Snapshot} {snapshots : List Snapshot}
  {properties : List (String × Snapshot)} {bag bag' : Bag} {id : NodeId} {name : String}
  {value : Value} {ref : NodeRef}

theorem builds_of_buildBag (h : (buildBag properties bag).exec r = (.ok bag', r')) :
    Builds r (properties.map Prod.snd) r' := by
  induction properties generalizing bag r with
  | nil =>
    rw [buildBag] at h
    cases h
    exact .nil
  | cons entry properties ih =>
    rw [buildBag, Task.exec_bind_ok_iff] at h
    obtain ⟨value, r₁, hbuild, hrest⟩ := h
    exact .cons hbuild (ih hrest)

theorem builds_of_buildAll {values : List Value}
    (h : (buildAll snapshots).exec r = (.ok values, r')) : Builds r snapshots r' := by
  induction snapshots generalizing values r with
  | nil =>
    cases h
    exact .nil
  | cons snapshot snapshots ih =>
    rw [buildAll, Task.exec_bind_ok_iff] at h
    obtain ⟨value, r₁, hbuild, h⟩ := h
    rw [Task.exec_bind_ok_iff] at h
    obtain ⟨values', r₂, hrest, h⟩ := h
    cases h
    exact .cons hbuild (ih hrest)

/-! ## Numbers stay -/

theorem stays_of_build (h : (build snapshot).exec r = (.ok value, r'))
    (hid : r.replica.get? id ≠ none) : r'.replica.get? id ≠ none := by
  have hgrows : Grows snapshot.parts r r' :=
    (grows_build (List.Subset.refl _)).of_exec h (.refl _ r)
  exact hgrows.get?_ne_none hid

theorem Builds.stays (h : Builds r snapshots r') (hid : r.replica.get? id ≠ none) :
    r'.replica.get? id ≠ none := by
  induction h with
  | nil => exact hid
  | cons hbuild _ ih => exact ih (stays_of_build hbuild hid)

/-- A constructor that succeeds puts its number in, and takes none out. -/
theorem get?_ne_none_of_construct {id' : NodeId}
    (h : (construct id' name bag).exec r = (.ok ref, r')) :
    r'.replica.get? id ≠ none ↔ id' = id ∨ r.replica.get? id ≠ none := by
  rcases exec_construct_cases id' name bag r with ⟨_, node, -, -, hexec⟩ | ⟨e, hexec, -⟩
  · rw [hexec] at h
    cases h
    rw [get?_filed]
    by_cases heq : id = id'
    · rw [if_pos heq]
      exact iff_of_true (Option.some_ne_none _) (.inl heq.symm)
    · rw [if_neg heq]
      exact (or_iff_right (Ne.symm heq)).symm
  · rw [hexec] at h
    cases h

/-- A node that is made from properties. -/
theorem exists_made {id' : NodeId}
    (h : (buildBag properties .empty >>= fun bag =>
      construct id' name bag >>= fun ref => pure (Value.node ref)).exec r = (.ok value, r')) :
    ∃ bag r₁ ref, (buildBag properties .empty).exec r = (.ok bag, r₁) ∧
      (construct id' name bag).exec r₁ = (.ok ref, r') := by
  rw [Task.exec_bind_ok_iff] at h
  obtain ⟨bag, r₁, hbag, h⟩ := h
  rw [Task.exec_bind_ok_iff] at h
  obtain ⟨ref, r₂, hconstruct, h⟩ := h
  cases h
  exact ⟨bag, r₁, ref, hbag, hconstruct⟩

theorem exists_made_of_node {id' : NodeId}
    (h : (build (.node id' name properties)).exec r = (.ok value, r')) :
    ∃ bag r₁ ref, (buildBag properties .empty).exec r = (.ok bag, r₁) ∧
      (construct id' name bag).exec r₁ = (.ok ref, r') := by
  rw [build] at h
  exact exists_made h

theorem exists_made_of_created {path : NamePath} {id' : NodeId} (hfresh : r.replica.get? id' = none)
    (h : (build (.created path properties id')).exec r = (.ok value, r')) :
    ∃ bag r₁ ref, (buildBag properties .empty).exec r = (.ok bag, r₁) ∧
      (construct id' (path.leaf?.getD "") bag).exec r₁ = (.ok ref, r') := by
  rw [build, Task.exec_get_bind, hfresh] at h
  exact exists_made h

/-! ## What is recorded -/

/-- A snapshot that makes a node under a number has put the number in. -/
theorem recorded_of_enters (h : (build snapshot).exec r = (.ok value, r'))
    (henters : snapshot.Enters r id) : r'.replica.get? id ≠ none := by
  cases snapshot with
  | created path properties id' =>
    obtain ⟨rfl, hfresh⟩ := henters
    obtain ⟨bag, r₁, ref, -, hconstruct⟩ := exists_made_of_created hfresh h
    exact (get?_ne_none_of_construct hconstruct).2 (.inl rfl)
  | node id' name properties =>
    obtain rfl := henters
    obtain ⟨bag, r₁, ref, -, hconstruct⟩ := exists_made_of_node h
    exact (get?_ne_none_of_construct hconstruct).2 (.inl rfl)
  | reference | scalar | bool | text | unset => cases henters

/-- If all snapshots are built, the numbers of the nodes that came up are in the table. -/
theorem Reached.recorded (h : Reached r snapshots r₁ part) (henters : part.Enters r₁ id)
    (hbuilds : Builds r snapshots r') : r'.replica.get? id ≠ none := by
  induction h generalizing r' with
  | here =>
    cases hbuilds with
    | cons hbuild hlater => exact hlater.stays (recorded_of_enters hbuild henters)
  | inCreated hfresh _ ih =>
    cases hbuilds with
    | cons hbuild hlater =>
      obtain ⟨bag, r₂, ref, hbag, hconstruct⟩ := exists_made_of_created hfresh hbuild
      have hinside := ih henters (builds_of_buildBag hbag)
      exact hlater.stays ((get?_ne_none_of_construct hconstruct).2 (.inr hinside))
  | inNode _ ih =>
    cases hbuilds with
    | cons hbuild hlater =>
      obtain ⟨bag, r₂, ref, hbag, hconstruct⟩ := exists_made_of_node hbuild
      have hinside := ih henters (builds_of_buildBag hbag)
      exact hlater.stays ((get?_ne_none_of_construct hconstruct).2 (.inr hinside))
  | next hbuilt _ ih =>
    cases hbuilds with
    | cons hbuild hlater =>
      cases hbuilt.symm.trans hbuild
      exact ih henters hlater

theorem Footprint.get?_ne_none {m : Message} (h : Footprint m r r')
    (hid : r'.replica.get? id ≠ none) : r.replica.get? id ≠ none ∨ m.Records r id := by
  by_cases hbefore : r.replica.get? id = none
  · refine .inr ((h.entered id fun heq => hid (heq.trans hbefore)).imp_right ?_)
    rintro ⟨r₁, part, -, hreached, henters⟩
    exact ⟨r₁, part, hreached, henters⟩
  · exact .inl hbefore

/-- The numbers in the table after a message that succeeds are those of before and those that it has
recorded. -/
theorem mem_ids_of_apply {m : Message} (h : (apply m).exec r = (.ok value, r')) :
    id ∈ r'.replica.ids ↔ id ∈ r.replica.ids ∨ m.Records r id := by
  rw [Replica.mem_ids, Replica.mem_ids]
  cases m with
  | create c =>
    have hfoot := footprint_of_create c r
    rw [h] at hfoot
    rw [apply_create] at h
    refine ⟨hfoot.get?_ne_none, ?_⟩
    rintro (hid | ⟨c', hc', rfl⟩ | ⟨r₁, part, hreached, henters⟩)
    · exact hfoot.stays id hid
    · cases hc'
      exact recorded_of_enters h rfl
    · have hinside : Reached r [.node c.id (c.path.leaf?.getD "") c.properties] r₁ part :=
        .inNode hreached
      exact hinside.recorded henters (.cons h .nil)
  | call c =>
    have hfoot := footprint_of_call c r
    rw [h] at hfoot
    refine ⟨hfoot.get?_ne_none, ?_⟩
    rintro (hid | ⟨c', hc', -⟩ | ⟨r₁, part, hreached, henters⟩)
    · exact hfoot.stays id hid
    · cases hc'
    · rw [apply, call, Task.exec_bind_ok_iff] at h
      obtain ⟨target, r₂, htarget, h⟩ := h
      obtain rfl : r₂ = r := (keeps_lookup (· = r) c.object).of_exec htarget rfl
      rw [Task.exec_bind_ok_iff] at h
      obtain ⟨args, r₃, hargs, hcall⟩ := h
      have hrecorded := hreached.recorded henters (builds_of_buildAll hargs)
      rw [onStore, Task.exec_onPart] at hcall
      obtain ⟨-, rfl⟩ := Prod.mk.inj hcall
      exact hrecorded

end Receiver

end Patchbay
