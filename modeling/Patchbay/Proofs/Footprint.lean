import Patchbay.Proofs.Leftover

/-!
# What a message can change

A receiver builds the snapshots in a message one after another, those inside a snapshot before the
snapshot itself. By the time one of them comes up, those before it may have filed nodes of their
own: whether an announcement makes a node depends on the table of that moment, not on the one that
the message found. In the same way a call may bring a full copy of the very node that it is on;
the node called is the one that the table had before.

* `Receiver.Reached`: a snapshot comes up while others are built, and in which receiver it does;
* `Receiver.enters_of_build`: a number has another node after a snapshot was built, or failed to
  build, only if it is the number of a full copy that came up, or of an announcement that came up
  while the number was not in the table;
* `Receiver.Footprint`: all that a message can change;
* `Receiver.footprint_of_apply`: every message, whether it fails or not, changes no more.
-/

namespace Patchbay

/-- In such a receiver the snapshot makes a node under the number, if it builds: a full copy always
does, and an announcement if the number is not in the table. -/
def Snapshot.Enters (r : Receiver) (id : NodeId) : Snapshot → Prop
  | .created _ _ id' => id' = id ∧ r.replica.get? id = none
  | .node id' _ _ => id' = id
  | _ => False

theorem Snapshot.partsOf_eq (properties : List (String × Snapshot)) :
    partsOf properties = (properties.map Prod.snd).flatMap parts := by
  induction properties with
  | nil => rw [partsOf, List.map_nil, List.flatMap_nil]
  | cons entry properties ih => rw [partsOf, List.map_cons, List.flatMap_cons, ih]

/-- The snapshots in a message, in the order in which they are built. -/
def Message.snapshots : Message → List Snapshot
  | .create c => c.properties.map Prod.snd
  | .call c => c.args

theorem Message.parts_eq (m : Message) : m.parts = m.snapshots.flatMap Snapshot.parts := by
  cases m with
  | create c => exact Snapshot.partsOf_eq c.properties
  | call c => rfl

namespace Receiver

/-- While the snapshots are built one after another, starting in `r`, the snapshot `part` comes up,
and the receiver is `r'` then. -/
inductive Reached : Receiver → List Snapshot → Receiver → Snapshot → Prop where
  | here {r : Receiver} {snapshot : Snapshot} {rest : List Snapshot} :
      Reached r (snapshot :: rest) r snapshot
  | inCreated {r r' : Receiver} {path : NamePath} {properties : List (String × Snapshot)}
      {id : NodeId} {rest : List Snapshot} {part : Snapshot} (fresh : r.replica.get? id = none)
      (inside : Reached r (properties.map Prod.snd) r' part) :
      Reached r (.created path properties id :: rest) r' part
  | inNode {r r' : Receiver} {id : NodeId} {name : String} {properties : List (String × Snapshot)}
      {rest : List Snapshot} {part : Snapshot}
      (inside : Reached r (properties.map Prod.snd) r' part) :
      Reached r (.node id name properties :: rest) r' part
  | next {r r₁ r' : Receiver} {snapshot : Snapshot} {rest : List Snapshot} {part : Snapshot}
      {value : Value} (built : (build snapshot).exec r = (.ok value, r₁))
      (later : Reached r₁ rest r' part) : Reached r (snapshot :: rest) r' part

/-- While the snapshots are built, one comes up that makes a node under the number. -/
def Entered (r : Receiver) (snapshots : List Snapshot) (id : NodeId) : Prop :=
  ∃ r' part, Reached r snapshots r' part ∧ part.Enters r' id

variable {r r' r₁ : Receiver} {snapshot part : Snapshot} {snapshots rest : List Snapshot}
  {properties : List (String × Snapshot)} {id id' : NodeId} {name : String}

/-- What comes up is a part of what is built. -/
theorem Reached.mem_parts (h : Reached r snapshots r' part) :
    part ∈ snapshots.flatMap Snapshot.parts := by
  induction h with
  | @here r snapshot rest =>
    have hself : snapshot ∈ snapshot.parts := by
      cases snapshot <;> exact List.mem_cons_self
    exact List.mem_flatMap.2 ⟨snapshot, List.mem_cons_self, hself⟩
  | inCreated _ _ ih | inNode _ ih =>
    rw [← Snapshot.partsOf_eq] at ih
    exact List.mem_append_left _ (List.mem_cons_of_mem _ ih)
  | next _ _ ih => exact List.mem_append_right _ ih

theorem Entered.next {value : Value} (hbuild : (build snapshot).exec r = (.ok value, r₁))
    (h : Entered r₁ rest id) : Entered r (snapshot :: rest) id :=
  let ⟨r', part, hreached, henters⟩ := h
  ⟨r', part, .next hbuild hreached, henters⟩

theorem Entered.inNode (h : Entered r (properties.map Prod.snd) id) :
    Entered r (.node id' name properties :: rest) id :=
  let ⟨r', part, hreached, henters⟩ := h
  ⟨r', part, .inNode hreached, henters⟩

theorem Entered.inCreated {path : NamePath} (hfresh : r.replica.get? id' = none)
    (h : Entered r (properties.map Prod.snd) id) :
    Entered r (.created path properties id' :: rest) id :=
  let ⟨r', part, hreached, henters⟩ := h
  ⟨r', part, .inCreated hfresh hreached, henters⟩

/-! ## Which numbers have another node -/

/-- The task leaves another node under the number, or one where none was. -/
def Alters {α : Type} (t : Task Receiver α) (r : Receiver) (id : NodeId) : Prop :=
  (t.exec r).2.replica.get? id ≠ r.replica.get? id

theorem not_alters_of_keeps {α : Type} {t : Task Receiver α}
    (h : t.Keeps (·.replica.get? id = r.replica.get? id)) : ¬ Alters t r id :=
  fun halters => halters (h r rfl)

theorem alters_bind {α β : Type} {t : Task Receiver α} {f : α → Task Receiver β}
    (h : Alters (t >>= f) r id) :
    Alters t r id ∨ ∃ a r₁, t.exec r = (.ok a, r₁) ∧
      r₁.replica.get? id = r.replica.get? id ∧ Alters (f a) r₁ id := by
  by_cases ht : Alters t r id
  · exact .inl ht
  refine .inr ?_
  have hsame : (t.exec r).2.replica.get? id = r.replica.get? id := not_not.1 ht
  rw [Alters, Task.exec_bind] at h
  rcases hexec : t.exec r with ⟨e | a, r₁⟩
  · rw [hexec] at h hsame
    exact absurd hsame h
  · rw [hexec] at h hsame
    exact ⟨a, r₁, rfl, hsame, fun heq => h (heq.trans hsame)⟩

theorem eq_of_alters_construct {bag : Bag} (h : Alters (construct id' name bag) r id) :
    id' = id := by
  rcases exec_construct_cases id' name bag r with ⟨_, node, -, -, hexec⟩ | ⟨e, hexec, -⟩
  · rw [Alters, hexec, get?_filed] at h
    by_contra hne
    exact h (if_neg (Ne.symm hne))
  · rw [Alters, hexec] at h
    exact absurd rfl h

/-- A node that is made from properties has its own number. -/
theorem alters_made
    (h : Alters (buildBag properties .empty >>= fun bag =>
      construct id' name bag >>= fun ref => pure (Value.node ref)) r id) :
    Alters (buildBag properties .empty) r id ∨ id' = id := by
  refine (alters_bind h).imp_right fun ⟨bag, r₁, _, _, hmade⟩ => ?_
  rcases alters_bind hmade with hconstruct | ⟨ref, r₂, -, -, hpure⟩
  · exact eq_of_alters_construct hconstruct
  · exact absurd hpure (not_alters_of_keeps (Task.keeps_pure _))

mutual

/-- A number that has another node after a snapshot was built, or failed to build, is one that a
part of the snapshot entered when it came up. -/
theorem enters_of_build : ∀ {snapshot : Snapshot} {r : Receiver} (rest : List Snapshot),
    Alters (build snapshot) r id → Entered r (snapshot :: rest) id
  | .scalar _, _, _, h | .bool _, _, _, h | .text _, _, _, h | .unset, _, _, h => by
    rw [build] at h
    exact absurd h (not_alters_of_keeps (Task.keeps_pure _))
  | .reference id', _, _, h => by
    rw [build] at h
    exact absurd h (not_alters_of_keeps ((keeps_lookup _ id').bind fun _ => Task.keeps_pure _))
  | .created path properties id', r, rest, h => by
    rw [build, Alters, Task.exec_get_bind] at h
    cases hid : r.replica.get? id' with
    | some ref =>
      rw [hid] at h
      exact absurd h (not_alters_of_keeps (Task.keeps_pure _))
    | none =>
      rw [hid] at h
      rcases alters_made h with hbag | rfl
      · exact (enters_of_buildBag .empty hbag).inCreated hid
      · exact ⟨r, _, .here, rfl, hid⟩
  | .node id' name properties, r, rest, h => by
    rw [build] at h
    rcases alters_made h with hbag | rfl
    · exact (enters_of_buildBag .empty hbag).inNode
    · exact ⟨r, _, .here, rfl⟩

/-- So it is for properties. -/
theorem enters_of_buildBag : ∀ {properties : List (String × Snapshot)} {r : Receiver} (bag : Bag),
    Alters (buildBag properties bag) r id → Entered r (properties.map Prod.snd) id
  | [], _, _, h => by
    rw [buildBag] at h
    exact absurd h (not_alters_of_keeps (Task.keeps_pure _))
  | (_, snapshot) :: rest, _, _, h => by
    rw [buildBag] at h
    rcases alters_bind h with hhead | ⟨value, r₁, hbuild, -, hrest⟩
    · exact enters_of_build (rest.map Prod.snd) hhead
    · exact (enters_of_buildBag _ hrest).next hbuild

end

theorem enters_of_buildAll (h : Alters (buildAll snapshots) r id) : Entered r snapshots id := by
  induction snapshots generalizing r with
  | nil => exact absurd h (not_alters_of_keeps (Task.keeps_pure _))
  | cons snapshot rest ih =>
    rcases alters_bind h with hhead | ⟨value, r₁, hbuild, -, hrest⟩
    · exact enters_of_build rest hhead
    · rcases alters_bind hrest with hrest | ⟨values, r₂, -, -, hpure⟩
      · exact (ih hrest).next hbuild
      · exact absurd hpure (not_alters_of_keeps (Task.keeps_pure _))

/-- Snapshots without properties of their own build in the table as it is. -/
theorem keeps_buildAll_of_plain (h : ∀ snapshot ∈ snapshots, snapshot.properties? = none) :
    (buildAll snapshots).Keeps (· = r) := by
  induction snapshots with
  | nil => exact Task.keeps_pure _
  | cons snapshot rest ih =>
    rw [List.forall_mem_cons] at h
    have hbuild : (build snapshot).Keeps (· = r) := by
      cases snapshot with
      | created _ _ _ | node _ _ _ => cases h.1
      | reference id =>
        rw [build]
        exact (keeps_lookup _ id).bind fun _ => Task.keeps_pure _
      | scalar _ | bool _ | text _ | unset =>
        rw [build]
        exact Task.keeps_pure _
    exact hbuild.bind fun _ => (ih h.2).bind fun _ => Task.keeps_pure _

/-! ## Messages -/

/-- A receiver after a message has at most these marks of it. -/
structure Footprint (m : Message) (r r' : Receiver) : Prop where
  constructors : r'.replica.constructors = r.replica.constructors
  /-- no number leaves the table -/
  stays : ∀ id, r.replica.get? id ≠ none → r'.replica.get? id ≠ none
  /-- a number has another node only if it is the one that the message announces, or that of a
  snapshot in the message which was to make a node under it when it came up -/
  entered : ∀ id, r'.replica.get? id ≠ r.replica.get? id →
    (∃ c, m = .create c ∧ c.id = id) ∨
      ∃ r₁, ∃ part ∈ m.parts, Reached r m.snapshots r₁ part ∧ part.Enters r₁ id
  /-- the other node is a new one -/
  new : ∀ id ref, r'.replica.get? id = some ref →
    r.replica.get? id = some ref ∨ r.store.nextId ≤ ref.id
  /-- a call whose arguments are no copies and no announcements leaves the table alone -/
  plain : ∀ c, m = .call c → (∀ arg ∈ c.args, arg.properties? = none) → r'.replica = r.replica
  /-- each node is as it was, except for the one that the table had for the object of a call before
  the arguments were built; that one is what the method made of it -/
  nodes : ∀ id node, r.store.get? id = some node → r'.store.get? id = some node ∨
    ∃ c ref, m = .call c ∧ r.replica.get? c.object = some ref ∧ ref.id = id ∧
      ∃ args answer node', ((buildAll c.args).exec r).1 = .ok args ∧
        node.call id c.method args = .ok (answer, node') ∧ r'.store.get? id = some node'

variable {m : Message} {parts : List Snapshot}

/-- Numbers stay in the table of a receiver that grows. -/
theorem Grows.get?_ne_none (h : Grows parts r r') (hid : r.replica.get? id ≠ none) :
    r'.replica.get? id ≠ none :=
  fun hnone => hid (h.get?_eq_none hnone)

theorem Grows.new (h : Grows parts r r') {ref : NodeRef} (href : r'.replica.get? id = some ref) :
    r.replica.get? id = some ref ∨ r.store.nextId ≤ ref.id := by
  rcases h.table id with heq | ⟨-, ref', node, href', hnew, -⟩
  · exact .inl (heq.symm.trans href)
  · rw [href] at href'
    cases href'
    exact .inr hnew

/-- The announcement of a node is applied as a full copy under its number is built. -/
theorem apply_create (c : Create) :
    apply (.create c) = build (.node c.id (c.path.leaf?.getD "") c.properties) := by
  rw [apply, build, create, bind_assoc]

theorem footprint_of_create (c : Create) (r : Receiver) :
    Footprint (.create c) r ((apply (.create c)).exec r).2 := by
  rw [apply_create]
  generalize hcopy : Snapshot.node c.id (c.path.leaf?.getD "") c.properties = copy
  have hgrows : Grows copy.parts r ((build copy).exec r).2 :=
    grows_build (List.Subset.refl _) r (.refl _ r)
  refine ⟨hgrows.constructors, fun id => hgrows.get?_ne_none, fun id hid => ?_,
    fun id ref => hgrows.new, nofun, fun id node h => .inl (hgrows.kept id node h)⟩
  obtain ⟨r₁, part, hreached, henters⟩ := enters_of_build [] hid
  subst hcopy
  cases hreached with
  | here => exact .inl ⟨c, rfl, henters⟩
  | inNode inside =>
    have hpart : part ∈ (Message.create c).parts := by
      rw [Message.parts_eq]
      exact inside.mem_parts
    exact .inr ⟨r₁, part, hpart, inside, henters⟩
  | next _ later => cases later

theorem Footprint.refl (m : Message) (r : Receiver) : Footprint m r r :=
  ⟨rfl, fun _ h => h, fun _ h => absurd rfl h, fun _ _ h => .inl h, fun _ _ _ => rfl,
    fun _ _ h => .inl h⟩

/-- Building the arguments of a call is a part of it. -/
theorem footprint_of_buildAll (c : Call) (r : Receiver) :
    Footprint (.call c) r ((buildAll c.args).exec r).2 := by
  have hgrows : Grows (Message.call c).parts r ((buildAll c.args).exec r).2 :=
    grows_buildAll (List.Subset.refl _) r (.refl _ r)
  refine ⟨hgrows.constructors, fun id => hgrows.get?_ne_none, fun id hid => ?_,
    fun id ref => hgrows.new, fun c' hc' hplain => ?_,
    fun id node h => .inl (hgrows.kept id node h)⟩
  · obtain ⟨r₁, part, hreached, henters⟩ := enters_of_buildAll hid
    exact .inr ⟨r₁, part, hreached.mem_parts, hreached, henters⟩
  · cases hc'
    rw [keeps_buildAll_of_plain hplain r rfl]

/-- So is the call on the node that the table had for its object. -/
theorem Footprint.called {c : Call} (h : Footprint (.call c) r r₁) {args : List Value}
    (hargs : (buildAll c.args).exec r = (.ok args, r₁)) {ref : NodeRef}
    (href : r.replica.get? c.object = some ref) :
    Footprint (.call c) r ((onStore (Store.call ref.id c.method args)).exec r₁).2 := by
  rw [onStore, Task.exec_onPart]
  cases hnode : r₁.store.get? ref.id with
  | none =>
    rw [Store.call, Task.exec_bind_error (Store.exec_fetch_none hnode)]
    exact h
  | some target =>
    rw [Store.exec_call hnode]
    cases hcall : target.call ref.id c.method args with
    | error e => exact h
    | ok answered =>
      obtain ⟨answer, node'⟩ := answered
      refine ⟨h.constructors, h.stays, h.entered, h.new, h.plain, fun id node hid => ?_⟩
      have hkept : r₁.store.get? id = some node := by
        have hbuild : (buildAll c.args).Keeps (Grows (Message.call c).parts r) :=
          grows_buildAll (List.Subset.refl _)
        exact (hbuild.of_exec hargs (.refl _ r)).kept id node hid
      show (r₁.store.put ref.id node').get? id = some node ∨ _
      rw [Store.get?_put hnode]
      split
      · rename_i heq
        subst heq
        rw [hkept] at hnode
        cases hnode
        refine .inr ⟨c, ref, rfl, href, rfl, args, answer, node', ?_, hcall, ?_⟩
        · rw [hargs]
        · rfl
      · exact .inl hkept

theorem footprint_of_call (c : Call) (r : Receiver) :
    Footprint (.call c) r ((apply (.call c)).exec r).2 := by
  rw [apply, call]
  cases href : r.replica.get? c.object with
  | none =>
    rw [Task.exec_bind_error (exec_lookup_none href)]
    exact .refl _ r
  | some ref =>
    have hbuild := footprint_of_buildAll c r
    rw [Task.exec_bind_ok (exec_lookup href), Task.exec_bind]
    rcases hargs : (buildAll c.args).exec r with ⟨e | args, r₁⟩
    · rw [hargs] at hbuild
      exact hbuild
    · rw [hargs] at hbuild
      exact hbuild.called hargs href

/-- **What a message can change.** Applied to any receiver, and whether it fails or not, a message
takes no number from the table. It gives another node to no number but the one that it announces
and those of the full copies and of the new announcements that come up while it is built, and the
other node is a new one. A call whose arguments are no copies and no announcements leaves the table
alone. Of the nodes that were there before, the one that the table had for the object of a call
before its arguments were built may be changed by the method; every other node stays as it was,
also one that has been replaced in the table, and one that holds a replaced one. -/
theorem footprint_of_apply (m : Message) (r : Receiver) :
    Footprint m r ((apply m).exec r).2 := by
  cases m with
  | create c => exact footprint_of_create c r
  | call c => exact footprint_of_call c r

/-- A sum, and a call on it that brings a full copy of the sum itself. -/
def ownCopy : List Message :=
  [.create ⟨["Add"], [("0", .scalar 1.0)], 1⟩,
    .call ⟨1, "set", [.text "0", .node 1 "add" [("0", .scalar 2.0)]]⟩]

-- The table has the copy, but the call is on the sum: it holds the copy now.
example :
    let r := ((applyAll ownCopy).run start).2
    r.replica.get? 1 = some ⟨2, false⟩ ∧
      (r.store.get? 1).map (·.properties.values) = some [.node ⟨2, false⟩] ∧
      (r.store.get? 2).map (·.properties.values) = some [.scalar 2.0] := by
  decide +kernel

end Receiver

end Patchbay
