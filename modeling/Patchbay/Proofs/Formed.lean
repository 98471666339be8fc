import Patchbay.Proofs.History
import Patchbay.Proofs.Transparency

/-!
# What nodes look like in a session

Constructors make the properties of a node and calls edit them. Nothing takes a property away, and
so a node has in all its life what its constructor gave it, though not with the same values.

* `Kind.Allows`: the properties that a node of the kind can have at any time. Their keys differ, are
  read back from their texts, and among those of a sequence there is a step;
* `Kind.lasting_allows`: nodes have such properties for all their lives;
* `Transparency.formed_run`: whatever is done in a session, its store came about by that, all nodes
  that stand in properties are there, and each of its layers has an announcement of the node that it
  is around.
-/

namespace Patchbay

/-- A key that a value names is read back from its text. -/
theorem Key.readable_of_key? {v : Value} {key : Key} (h : v.key? = some key) : key.Readable := by
  cases v with
  | scalar x =>
    obtain ⟨n, -, rfl⟩ := Option.map_eq_some_iff.1 h
    exact readable_index _
  | text t =>
    cases h
    cases hparse : parse t with
    | index n => exact readable_index n
    | named name =>
      have hname : name = t := by
        unfold parse at hparse
        split at hparse
        · cases hparse
        · cases hparse
          rfl
      rw [Readable, text, hname, hparse, hname]
  | bool | node | unset => cases h

namespace Kind

/-- The properties that a node of the kind can have. -/
inductive Allows : Kind → Bag → Prop
  | made {m : Maker} {node : Node} (h : m.make = .ok node) : Allows node.kind node.properties
  | edited {k : Kind} {b : Bag} (h : Allows k b) (method : String) (args : List Value) :
    Allows k (b.edit method args)

end Kind

/-- An edit leaves the keys as they are, or puts one that a value named after them. -/
theorem Bag.keys_edit (b : Bag) (method : String) (args : List Value) :
    (b.edit method args).keys = b.keys ∨ ∃ (v : Value) (key : Key), v.key? = some key ∧
      key ∉ b.keys ∧ (b.edit method args).keys = b.keys ++ [key] := by
  unfold Bag.edit
  split
  · split
    · rename_i v value
      cases hkey : v.key? with
      | none => exact .inl rfl
      | some key =>
        by_cases hmem : key ∈ b.keys
        · exact .inl (Bag.keys_set_of_mem hmem value)
        · exact .inr ⟨v, key, hkey, hmem, Bag.keys_set_of_not_mem hmem value⟩
    · exact .inl rfl
  · exact .inl rfl

namespace Kind

variable {k : Kind} {b : Bag}

theorem Allows.readable (h : k.Allows b) : ∀ key ∈ b.keys, key.Readable := by
  induction h with
  | made h =>
    obtain ⟨b, hmakes, hkeys⟩ := Maker.exists_makes h
    rw [← hkeys]
    exact hmakes.readable
  | @edited k b _ method args ih =>
    intro key hkey
    rcases b.keys_edit method args with heq | ⟨v, key', hv, -, heq⟩
    · exact ih key (heq ▸ hkey)
    · rw [heq] at hkey
      rcases List.mem_append.1 hkey with hkey | hkey
      · exact ih key hkey
      · rw [List.mem_singleton.1 hkey]
        exact Key.readable_of_key? hv

theorem Allows.nodup_keys (h : k.Allows b) : b.keys.Nodup := by
  induction h with
  | made h =>
    obtain ⟨b, hmakes, hkeys⟩ := Maker.exists_makes h
    rw [← hkeys]
    exact hmakes.nodup_keys
  | @edited k b _ method args ih =>
    rcases b.keys_edit method args with heq | ⟨v, key, -, hnew, heq⟩
    · rw [heq]
      exact ih
    · rw [heq]
      exact List.nodup_append_comm.1 (List.nodup_cons.2 ⟨hnew, ih⟩)

/-- A sequence has a step. -/
theorem Makes.exists_step {b : Bag} (h : Kind.sequence.Makes b) : ∃ n, .index n ∈ b.keys := by
  obtain ⟨hsize, -, rate, steps, hentries, hsteps⟩ := h
  rw [Bag.keys, hentries]
  cases steps with
  | nil =>
    rw [Bag.size, hentries] at hsize
    exact absurd hsize (Nat.not_succ_le_self 1)
  | cons e steps =>
    obtain ⟨key, value⟩ := e
    have hstep := hsteps _ List.mem_cons_self
    cases key with
    | index n => exact ⟨n, by simp⟩
    | named name => cases hstep

/-- No call takes it away. -/
theorem Allows.exists_step (h : k.Allows b) (hk : k = .sequence) : ∃ n, .index n ∈ b.keys := by
  induction h with
  | made h =>
    obtain ⟨b, hmakes, hkeys⟩ := Maker.exists_makes h
    rw [hk] at hmakes
    exact hkeys ▸ hmakes.exists_step
  | @edited k b _ method args ih =>
    obtain ⟨n, hn⟩ := ih hk
    rcases b.keys_edit method args with heq | ⟨v, key, -, -, heq⟩
    · exact ⟨n, heq ▸ hn⟩
    · exact ⟨n, heq ▸ List.mem_append_left _ hn⟩

theorem lasting_allows : Node.Lasting fun n => n.kind.Allows n.properties where
  made _ _ h := .made h
  kept n n' hn h := by
    cases h with
    | @called _ _ method args _ h =>
      obtain ⟨hkind, hproperties⟩ := Node.edit_of_call h
      rw [hkind, hproperties]
      exact hn.edited method args
    | processed inputs =>
      rw [(n.process_keeps inputs).1, (n.process_keeps inputs).2]
      exact hn
    | written text => exact hn

end Kind

/-! ## Sessions -/

namespace Transparency

variable {s : Session} {a : Action}

/-- The nodes that an action passes to a constructor or a method are there, and are sequences
exactly if they say so. -/
def Action.Denotes (s : Session) : Action → Prop
  | make maker => s.store.Denotes maker.values
  | invoke _ _ args => s.store.Denotes args
  | _ => True

instance (s : Session) : (a : Action) → Decidable (a.Denotes s)
  | .make maker => inferInstanceAs (Decidable (s.store.Denotes maker.values))
  | .invoke _ _ args => inferInstanceAs (Decidable (s.store.Denotes args))
  | .wrap .. | .compile .. | .compileApart .. | .tick .. => inferInstanceAs (Decidable True)

theorem Action.Denotes.given (h : a.Denotes s) : s.store.Denotes a.given := by
  cases a with
  | make | invoke => exact h
  | wrap | compile | compileApart | tick => exact nofun

/-- The session after actions on nodes that are there. -/
structure Formed (s : Session) : Prop where
  relay : ∃ r, s.relays = #[r]
  layer : ∀ id l, (id, some l) ∈ s.layers → l.relay = 0 ∧ l.create.id = id
  store : s.store.Proper

theorem formed_session (relay : Relay) : Formed (session relay .empty) :=
  ⟨⟨relay, rfl⟩, nofun, Store.proper_empty⟩

/-- An action constructs a node or operates on nodes. -/
theorem proper_plain {s : Store} (h : s.Proper) (hgiven : s.Denotes a.given) :
    (a.plain.exec s).2.Proper := by
  cases a with
  | make maker =>
    rw [Action.plain, Task.exec_map]
    exact h.build hgiven
  | wrap path suppress id => exact h
  | invoke id method args =>
    rw [Action.plain, Task.exec_map]
    exact h.call id method hgiven
  | compile limit id =>
    rw [Action.plain, Task.exec_map]
    exact Store.proper_compile limit id s h
  | compileApart limit id =>
    rw [Action.plain, Task.exec_map]
    exact Store.proper_compileApart limit id s h
  | tick limit id =>
    rw [Action.plain, Task.exec_map]
    exact Store.proper_tick limit id s h

/-- A wrap puts a layer around the node that has its announcement, or one that sends nothing. -/
theorem Formed.exec_wrap (h : Formed s) (path : NamePath) (suppress : Bool) (id : NodeId) :
    Formed ((Session.wrap 0 path suppress id).exec s).2 := by
  obtain ⟨r, hr⟩ := h.relay
  cases hdue : s.createDue? r.config path suppress id with
  | some c =>
    rw [Session.wrap_due hr hdue]
    refine ⟨⟨_, rfl⟩, fun other l hl => ?_, h.store⟩
    rcases List.mem_cons.1 hl with heq | hl
    · cases heq
      exact ⟨rfl, Session.createDue?_id hdue⟩
    · exact h.layer other l hl
  | none =>
    rw [Session.wrap_idle hr hdue]
    split
    · exact h
    · refine ⟨⟨r, hr⟩, fun other l hl => ?_, h.store⟩
      exact h.layer other l ((List.mem_cons.1 hl).resolve_left nofun)

/-- Every action on nodes that are there leaves such a session. -/
theorem Formed.exec (h : Formed s) (hdenotes : a.Denotes s) : Formed (a.task.exec s).2 := by
  cases hcopies : a.copies with
  | false =>
    rw [exec_task hcopies]
    exact ⟨h.relay, h.layer, proper_plain h.store hdenotes.given⟩
  | true =>
    cases a with
    | wrap path suppress id =>
      rw [Action.task, Task.exec_map]
      exact h.exec_wrap path suppress id
    | invoke id method args =>
      obtain ⟨r, hr⟩ := h.relay
      have hlayer (l : Layer) (hl : some l ∈ s.layersOf id) : l.relay = 0 :=
        (h.layer id l (Session.mem_layersOf.1 hl)).1
      rw [Action.task, Task.exec_map]
      rcases Session.invoke_outcome hr hlayer method args with ⟨r', hinvoke⟩ | ⟨e, -, hinvoke⟩
      · rw [hinvoke, Session.exec_onStore]
        exact ⟨⟨r', rfl⟩, h.layer, h.store.call id method hdenotes.given⟩
      · rw [hinvoke]
        exact h
    | make | compile | compileApart | tick => cases hcopies

theorem Formed.run (h : Formed s) {script : List Action}
    (hscript : Along (fun s a => a.Denotes s) s script) :
    Formed (Transparency.run Action.task script s).2 := by
  induction script generalizing s with
  | nil => exact h
  | cons a rest ih => exact ih (h.exec hscript.1) hscript.2

/-- **What is done in a session keeps it formed**, from an empty store on. -/
theorem formed_run (relay : Relay) {script : List Action}
    (hscript : Along (fun s a => a.Denotes s) (session relay .empty) script) :
    Formed (run Action.task script (session relay .empty)).2 :=
  (formed_session relay).run hscript

/-- Each node has properties of its kind. -/
theorem Formed.allows (h : Formed s) {id : NodeId} {node : Node}
    (hnode : s.store.get? id = some node) : node.kind.Allows node.properties :=
  h.store.each Kind.lasting_allows id node hnode

theorem Formed.announcement? (h : Formed s) {id : NodeId} {c : Create}
    (hc : s.announcement? id = some c) : c.id = id := by
  obtain ⟨l, hl, rfl⟩ := Session.mem_of_announcement? hc
  exact (h.layer id l (Session.mem_layersOf.1 hl)).2

end Transparency

end Patchbay
