import Patchbay.Proofs.Copy

/-!
# Wrapping a node late

A wrap announces a node by the properties that it has at the moment, and a replica makes the node
from those by the constructor of its kind. What that constructor makes it also takes. So a node can
be wrapped at any time as long as its properties are such ones, whatever has become of their values;
a node that a call has given one more property is rejected or made with other keys, and a map of
nothing, which can be made but not made again, is rejected.

* `Receiver.Stands`: what a replica puts in the place of a value;
* `Receiver.recovers_announced`: what is announced of a node stands for its properties;
* `Receiver.accepts_iff`: a replica makes the node that is announced, with the keys that it has and
  values that stand for its own, exactly if its constructor of the kind makes such properties.
-/

namespace Patchbay

open Transparency

/-- What an active wrap announces. -/
theorem Session.encodeProperties_of_wrap {s : Session} {r : Relay} (h : s.relays = #[r])
    {path : NamePath} {suppress : Bool} {id : NodeId} {node : Node}
    (hnode : s.store.get? id = some node) {c : Create}
    (hwrap : ((wrap 0 path suppress id).exec s).1 = .ok (some c)) :
    c.path = path ∧ c.id = id ∧
      s.store.encodeProperties r.config.maxDepth s.announcement? id node.properties =
        .ok c.properties := by
  cases hactive : r.isActive suppress with
  | false =>
    rw [exec_wrap_inactive h hactive] at hwrap
    cases hwrap
  | true =>
    rw [exec_wrap_active h hactive path hnode] at hwrap
    cases hproperties : s.store.encodeProperties r.config.maxDepth s.announcement? id
        node.properties with
    | error e =>
      rw [hproperties] at hwrap
      cases hwrap
    | ok properties =>
      rw [hproperties] at hwrap
      cases hwrap
      exact ⟨rfl, rfl, rfl⟩

namespace Receiver

/-- A value of the replica stands for one of the other side, with the store `s`. It is the same
value; or a node that was in the table of `r₀` under the number; or a sequence that has been made
since, by its constructor, of properties that stand for those of the sequence there. -/
inductive Stands (s : Store) (r₀ r : Receiver) : Value → Value → Prop
  | same {v : Value} (h : v.node? = none) : Stands s r₀ r v v
  | held {n ref : NodeRef} (h : r₀.replica.get? n.id = some ref) :
    Stands s r₀ r (.node n) (.node ref)
  | copied {n ref : NodeRef} {node made : Node} {bag : Bag} {R : Value → Value → Prop}
    (hR : ∀ v v', R v v' → Stands s r₀ r v v') (hnode : s.get? n.id = some node)
    (hkind : node.kind = .sequence) (hmatch : node.properties.Matches R bag)
    (hmade : Node.sequenceOf bag = .ok made) (hnew : r₀.store.nextId ≤ ref.id)
    (hfiled : r.store.get? ref.id = some made) : Stands s r₀ r (.node n) (.node ref)

section

variable {s : Store} {r₀ r : Receiver} {lo hi : Nat} {v v' : Value} {snapshot : Snapshot}

/-- What has been built from a value since `r₀` stands for it. -/
theorem BuiltFrom.stands (h : BuiltFrom s r₀.replica.get? r.store lo hi v v')
    (hlo : r₀.store.nextId ≤ lo) : Stands s r₀ r v v' := by
  induction h with
  | same h => exact .same h
  | held h => exact .held h
  | @copied lo hi id node es bag R hR hnode hkind hentries hmade hfiled ih =>
    have hle (lo hi : Nat) (v v' : Value) (h : R lo hi v v') : lo ≤ hi := (hR lo hi v v' h).le
    have hstands : Consecutive (fun _ _ => Stands s r₀ r) lo hi node.properties.entries es :=
      hentries.imp hle fun lo' hi' v v' hlo' _ h => ih lo' hi' v v' h (Nat.le_trans hlo hlo')
    exact .copied (fun _ _ h => h) hnode hkind hstands.forall₂ hmade
      (Nat.le_trans hlo (hentries.le hle)) hfiled

theorem Copies.stands (h : Copies s r₀ v snapshot) :
    Recovers s r₀ (fun t _ _ => Stands s r₀ t) v snapshot := by
  intro r hr
  obtain ⟨v', r', hexec, hr', hremains, hfiled, hbuilt⟩ := h r hr
  exact ⟨v', r', hexec, hr', hremains, hfiled, fun t ht => (hbuilt t ht).stands hr.nextId_le⟩

/-- A node that was in the table has not gone, and what is there now stands for it. -/
theorem Since.stands (h : Since s r₀ r) {n : NodeRef} (hn : s.Denotes [.node n])
    (hheld : r₀.replica.get? n.id ≠ none) :
    ∃ ref, r.replica.get? n.id = some ref ∧
      ∀ t, r.store.Remains t.store → Stands s r₀ t (.node n) (.node ref) := by
  rcases h.table n.id with hsame | ⟨ref, lo, hi, href, hlo, hbuilt⟩
  · obtain ⟨ref, href⟩ := Option.ne_none_iff_exists'.1 hheld
    exact ⟨ref, hsame.trans href, fun _ _ => .held href⟩
  · obtain ⟨node, -, -, hnode, hkind, -⟩ := (hbuilt r.store (.refl _)).of_sequence
    have hsequence : n.isSequence = true := by
      have hdenotes := hn n List.mem_cons_self
      rw [hnode, Option.map_some, Node.isSequence_eq, hkind] at hdenotes
      exact (Option.some.inj hdenotes).symm
    refine ⟨ref, href, fun t ht => ?_⟩
    have hstands := (hbuilt t.store ht).stands hlo
    rw [← hsequence] at hstands
    exact hstands

end

variable {s : Session} {r₀ r : Receiver}

/-- A node in a property is announced by a snapshot that the replica builds to a node that stands
for it. -/
theorem recovers_announced (hs : Formed s)
    (hmaker : r₀.replica.constructor? "sequence" = some Node.sequenceOf) {maxDepth : Nat}
    {owner : NodeId} {v : Value} (hv : s.store.Denotes [v]) {snapshot : Snapshot}
    (h : (match v.node?.bind (s.announcement? ·.id) with
      | some create => return Snapshot.ofCreate create
      | none => s.store.encodeInside maxDepth owner v : Except Fault Snapshot) = .ok snapshot)
    (hneeds : ∀ i ∈ snapshot.needs, r₀.replica.get? i ≠ none) :
    Recovers s.store r₀ (fun t _ _ => Stands s.store r₀ t) v snapshot := by
  cases hc : v.node?.bind (s.announcement? ·.id) with
  | none =>
    rw [hc] at h
    refine (copies_encodeWith h hv hneeds ?_).stands
    rintro id rfl hcopied
    exact copies_fullCopy hmaker hcopied (hv _ List.mem_cons_self)
      (fun _ _ _ => portable_of_formed hs) hneeds
  | some c =>
    rw [hc] at h
    cases h
    obtain ⟨n, hn, hc⟩ := Option.bind_eq_some_iff.1 hc
    obtain rfl : v = .node n := Value.node?_eq_some.1 hn
    have hid : c.id = n.id := hs.announcement? hc
    intro r hr
    -- an announced node is not made again, and what the table has for it stands for it
    obtain ⟨ref, href, hstands⟩ := hr.stands hv (hid ▸ hneeds c.id List.mem_cons_self)
    have hbuild : (build (.ofCreate c)).exec r = (.ok (.node ref), r) := by
      rw [Snapshot.ofCreate, build, Task.exec_get_bind, hid, href]
      rfl
    refine ⟨.node ref, r, hbuild, hr, .refl _, fun m hm => ?_, hstands⟩
    cases hm
    exact href

theorem Stands.unset_iff {store : Store} {v v' : Value} (h : Stands store r₀ r v v') :
    v = .unset ↔ v' = .unset := by
  cases h with
  | same => rfl
  | held | copied => exact iff_of_false nofun nofun

/-- An announcement is applied by building its properties and making a node of them. -/
theorem exec_apply_create {c : Create} {bag : Bag} {r r₁ r₂ : Receiver} {ref : NodeRef}
    (hbag : (buildBag c.properties .empty).exec r = (.ok bag, r₁))
    (hmade : (construct c.id (c.path.leaf?.getD "") bag).exec r₁ = (.ok ref, r₂)) :
    (apply (.create c)).exec r = (.ok (.node ref), r₂) := by
  have hcreate : (create c).exec r = (.ok ref, r₂) := (Task.exec_bind_ok hbag).trans hmade
  exact Task.exec_bind_ok hcreate

/-- **When a node can be wrapped.** In a session in which anything has been done, a node is wrapped
under the name of its constructor, and what is announced is applied by a replica that has the nodes
named there. The replica makes a node of the same kind, with the same keys in the same order and
values that stand for those of the node, exactly if its constructor of the kind makes such
properties. -/
theorem accepts_iff (relay : Relay) {script : List Action}
    (hscript : Along (fun s a => a.Denotes s) (session relay .empty) script) {id : NodeId}
    {node : Node}
    (hnode : (run Action.task script (session relay .empty)).2.store.get? id = some node)
    {path : NamePath} (hname : Text.lowercase (path.leaf?.getD "") = node.name) {suppress : Bool}
    {c : Create}
    (hwrap : ((Session.wrap 0 path suppress id).exec
      (run Action.task script (session relay .empty)).2).1 = .ok (some c))
    {r : Receiver} (hr : r.replica.constructors = Replica.builtins)
    (hneeds : ∀ i ∈ Snapshot.needsOf c.properties, r.replica.get? i ≠ none) :
    (∃ ref r' node', (apply (.create c)).exec r = (.ok (.node ref), r') ∧
      r'.replica.get? id = some ref ∧ r'.store.get? ref.id = some node' ∧
      node'.kind = node.kind ∧ node.properties.Matches
        (Stands (run Action.task script (session relay .empty)).2.store r r') node'.properties) ↔
    node.kind.Makes node.properties := by
  have hs := formed_run relay hscript
  obtain ⟨relay', hrelay⟩ := hs.relay
  have hallows := hs.allows hnode
  have hdenotes := hs.store.denotes hnode
  have hmaker : r.replica.constructor? "sequence" = some Node.sequenceOf :=
    Replica.constructor?_kind hr (k := .sequence) (by decide +kernel)
  obtain ⟨rfl, rfl, hproperties⟩ := Session.encodeProperties_of_wrap hrelay hnode hwrap
  obtain ⟨es, r₁, hbag, -, hr₁, -, hstands⟩ := exec_buildBag_empty hproperties hallows.readable
    hallows.nodup_keys hneeds
    (fun v hv snapshot => recovers_announced hs hmaker (hdenotes.of_mem hv)) (.refl _ r)
  have hmatch (t : Receiver) (ht : r₁.store.Remains t.store) :
      node.properties.Matches (Stands _ r t) ⟨es⟩ := (hstands t ht).forall₂
  have hconstructor : r₁.replica.constructor? (c.path.leaf?.getD "") =
      some node.kind.constructor :=
    Replica.constructor?_kind (hr₁.constructors.trans hr) (hname.trans node.name_eq)
  constructor
  · -- what was made is such as the constructor makes, and the node has the same keys
    rintro ⟨ref, r', node', happly, -, hnode', hkind, hmatch'⟩
    rcases exec_construct_cases c.id (c.path.leaf?.getD "") ⟨es⟩ r₁ with
      ⟨constructor, made, hname', hmade, hconstruct⟩ | ⟨e, hconstruct, -⟩
    · rw [exec_apply_create hbag hconstruct] at happly
      cases happly
      cases hconstructor.symm.trans hname'
      obtain rfl : made = node' := Option.some.inj ((Store.get?_add_self _ _).symm.trans hnode')
      exact (Kind.makes_constructor hmade).2.of_matches hmatch'.symm fun v' v hstands hset =>
        mt hstands.unset_iff.1 hset
    · have hcreate : (create c).exec r = (.error e, r₁) := (Task.exec_bind_ok hbag).trans hconstruct
      have herror : (apply (.create c)).exec r = (.error e, r₁) := Task.exec_bind_error hcreate
      rw [herror] at happly
      cases happly
  · -- what was built from the announcement is such as well, and so it is made again
    intro hmakes
    have hbagMakes : node.kind.Makes ⟨es⟩ := hmakes.of_matches (hmatch r₁ (.refl _))
      fun v v' hstands hset => mt hstands.unset_iff.2 hset
    obtain ⟨made, hmade, hkind, heq⟩ := hbagMakes.rebuild
    refine ⟨_, _, made, exec_apply_create hbag (exec_construct hconstructor hmade), ?_,
      Store.get?_add_self _ _, hkind, ?_⟩
    · rw [get?_filed, if_pos rfl]
    · rw [heq]
      exact hmatch _ (Store.remains_add _ made)

section Changed

/-- A merger that is announced, and then a map of nothing; a function and an operator that are each
given one more property; and an operator over the merger and a sequence of its own, which is
stopped and given to the operator once more. -/
def changing : List Action :=
  [.make (.function .merge [.bool true, .bool false]), .wrap ["Merge"] false 1,
    .make (.map .unset ⟨0.0, 1.0, 0.0, 1.0, .linear, false⟩),
    .make (.function .abs [.bool true]), .invoke 3 "set" [.text "1", .bool false],
    .make (.chain .add [.bool true]), .invoke 4 "set" [.text "gain", .bool false],
    .make (.sequence [.node ⟨1, false⟩] (.bool true)),
    .make (.chain .mul [.node ⟨1, false⟩, .node ⟨5, true⟩]), .invoke 5 "stop" [],
    .invoke 6 "set" [.text "2", .node ⟨5, true⟩]]

/-- The session after that. -/
def changed : Session :=
  (run Action.task changing (session (.start .worklet (.channel .context (some [])) []) .empty)).2

/-- What is announced of the function and of the operator that were given a property. -/
def lateAbs : Create := ⟨["Abs"], [("0", .bool true), ("1", .bool false)], 3⟩

def lateAdd : Create := ⟨["Add"], [("0", .bool true), ("gain", .bool false)], 4⟩

/-- The map and the function are rejected, and the operator is made with other keys. -/
theorem rejected_of_changed :
    (∃ c, ((Session.wrap 0 ["Map"] false 2).exec changed).1 = .ok (some c) ∧
      Snapshot.needsOf c.properties = [] ∧
      ((apply (.create c)).exec start).1 = .error (.invalidArgument "map" (.missing "input"))) ∧
    (((Session.wrap 0 ["Abs"] false 3).exec changed).1 = .ok (some lateAbs) ∧
      ((apply (.create lateAbs)).exec start).1 = .error (.arity "abs" 1 2)) ∧
    ((Session.wrap 0 ["Add"] false 4).exec changed).1 = .ok (some lateAdd) ∧
      (changed.store.get? 4).map (·.properties.keys) = some [.index 0, .named "gain"] ∧
      ∃ ref r' node', (apply (.create lateAdd)).exec start = (.ok (.node ref), r') ∧
        r'.store.get? ref.id = some node' ∧ node'.properties.keys = [.index 0, .index 1] :=
  ⟨⟨_, rfl, rfl, rfl⟩, ⟨rfl, rfl⟩, rfl, rfl, _, _, _, rfl, rfl, rfl⟩

theorem accepts_changed :
    ∃ node c, changed.store.get? 6 = some node ∧
      ((Session.wrap 0 ["Mul"] false 6).exec changed).1 = .ok (some c) ∧
      ∃ ref r' node', (apply (.create c)).exec holder = (.ok (.node ref), r') ∧
        r'.store.get? ref.id = some node' ∧ node'.kind = node.kind ∧
        node.properties.Matches (Stands changed.store holder r') node'.properties := by
  have hscript : Along (fun s a => a.Denotes s)
      (session (.start .worklet (.channel .context (some [])) []) .empty) changing := by
    decide +kernel
  obtain ⟨node, c, hnode, hname, hwrap, hneeds, hmakes⟩ :
      ∃ node c, changed.store.get? 6 = some node ∧
        Text.lowercase "Mul" = node.name ∧
        ((Session.wrap 0 ["Mul"] false 6).exec changed).1 = .ok (some c) ∧
        (∀ i ∈ Snapshot.needsOf c.properties, holder.replica.get? i ≠ none) ∧
        node.kind.Makes node.properties :=
    ⟨_, _, rfl, rfl, rfl, by decide +kernel,
      by rw [Bag.Positional]; decide +kernel, nofun⟩
  obtain ⟨ref, r', node', happly, -, hnode', hkind, hmatch⟩ :=
    (accepts_iff (.start .worklet (.channel .context (some [])) []) hscript hnode
      (by exact hname) hwrap rfl hneeds).2 hmakes
  exact ⟨node, c, hnode, hwrap, ref, r', node', happly, hnode', hkind, hmatch⟩

end Changed

end Receiver

end Patchbay
