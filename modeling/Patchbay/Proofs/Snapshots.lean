import Patchbay.Proofs.Closed
import Patchbay.Proofs.Walk

/-!
# Which copies can be made, and what they are

A full copy goes from a sequence to the sequences in its properties, and nowhere else. A value can
be copied if all walks through sequences that start at it are short enough and keep clear of the
node around it (`Store.Confined`). The snapshot is then what the rule says of the value
(`Store.IsSnapshot`), whatever else is copied beside it.

* `Store.answers_fullCopy`: a copy with so many levels left, inside the nodes of a path, is made
  exactly if the walks are clear of it, and is what the rule makes of the sequence;
* `Store.isSnapshot_iff`: where walks are confined the rule says one thing;
* `Store.encode_of_walks`: when a value, arguments and properties can be encoded, and as what.
-/

namespace Patchbay

open Relation

/-! ## The rule -/

namespace Value

/-- The sequence that a value is. -/
def sequence? : Value → Option NodeId
  | node n => if n.isSequence then some n.id else none
  | scalar _ | bool _ | text _ | unset => none

/-- The snapshot of a value, where `copy` gives those of sequences. No other node is gone into. -/
def snapshot (copy : NodeId → Snapshot) : Value → Snapshot
  | scalar x => .scalar x
  | bool b => .bool b
  | text t => .text t
  | unset => .unset
  | node n => if n.isSequence then copy n.id else .reference n.id

theorem sequence?_eq_some {v : Value} {id : NodeId} :
    v.sequence? = some id ↔ v = .node ⟨id, true⟩ := by
  cases v with
  | node n =>
    obtain ⟨other, isSequence⟩ := n
    cases isSequence <;> simp [sequence?]
  | scalar | bool | text | unset => exact iff_of_false nofun nofun

theorem snapshot_congr {v : Value} {copy copy' : NodeId → Snapshot}
    (h : ∀ id, v.sequence? = some id → copy id = copy' id) :
    v.snapshot copy = v.snapshot copy' := by
  cases v with
  | node n =>
    obtain ⟨id, isSequence⟩ := n
    cases isSequence with
    | true => exact h id rfl
    | false => rfl
  | scalar | bool | text | unset => rfl

end Value

/-- The full copy of a node: its number, its name, and all its properties in order, each under the
text of its key. -/
def Node.snapshot (id : NodeId) (n : Node) (copy : NodeId → Snapshot) : Snapshot :=
  .node id n.name (n.properties.entries.map fun e => (e.1.text, e.2.snapshot copy))

/-- The outcome is a result as `R` says if `C` holds. If it does not, something nests too deep. -/
structure Overflows {α : Type} (C : Prop) (R : α → Prop) (outcome : Except Fault α) : Prop where
  succeeds : (∃ a, outcome = .ok a) ↔ C
  result : ∀ a, outcome = .ok a ↔ C ∧ R a
  fault : ∀ e, outcome = .error e → e.isOverflow = true

namespace Store

variable {s : Store} {levels : Nat} {path : List NodeId} {id : NodeId} {v : Value}

/-- The node has a property that is the sequence `child`. -/
def Unfolds (s : Store) (id child : NodeId) : Prop :=
  ∃ node, s.get? id = some node ∧ ∃ v ∈ node.properties.values, v.sequence? = some child

/-- Every walk through sequences that starts at the value has at most `levels` nodes, and meets none
of the path. -/
def Confined (s : Store) (levels : Nat) (path : List NodeId) (v : Value) : Prop :=
  ∀ id walk, v.sequence? = some id → (id :: walk).IsChain s.Unfolds →
    (id :: walk).length ≤ levels ∧ ∀ other ∈ id :: walk, other ∉ path

/-- The snapshot is that of the value, with copies of all sequences that the walks come to. -/
def IsSnapshot (s : Store) (v : Value) (snapshot : Snapshot) : Prop :=
  ∃ copy, (∀ id, v.sequence? = some id → s.Obeys s.Unfolds Node.snapshot id copy) ∧
    snapshot = v.snapshot copy

theorem confined_iff :
    s.Confined levels path v ↔ ∀ id, v.sequence? = some id → Clear s.Unfolds levels path id := by
  constructor
  · intro h id hid
    refine ⟨fun walk hwalk => (h id walk hid hwalk).1, fun other hother => ?_⟩
    obtain ⟨walk, hwalk, hlast⟩ := List.exists_isChain_cons_of_relationReflTransGen hother
    exact (h id walk hid hwalk).2 other (hlast ▸ List.getLast_mem _)
  · intro h id walk hid hwalk
    obtain ⟨hwithin, hclear⟩ := h id hid
    exact ⟨hwithin walk hwalk, fun other hother => hclear other (reaches_of_chain hwalk hother)⟩

theorem local_snapshot : s.Local s.Unfolds Node.snapshot := by
  intro id node f g hnode h
  simp only [Node.snapshot]
  congr 1
  refine List.map_congr_left fun e he => ?_
  rw [Value.snapshot_congr fun child hchild =>
    h child ⟨node, hnode, e.2, List.mem_map_of_mem he, hchild⟩]

theorem Closed.unfolds (hs : s.Closed) {other : NodeId} (hid : s.Has id)
    (h : ReflTransGen s.Unfolds id other) : s.Has other := by
  induction h with
  | refl => exact hid
  | tail _ hstep _ =>
    obtain ⟨node, hnode, v, hv, hchild⟩ := hstep
    obtain rfl := Value.sequence?_eq_some.1 hchild
    exact hs _ node hnode _ hv

theorem has_of_sequence? (hv : s.HasAll [v]) (hid : v.sequence? = some id) : s.Has id := by
  obtain rfl := Value.sequence?_eq_some.1 hid
  exact hv _ List.mem_cons_self

/-- Where walks are confined the rule says one thing. -/
theorem isSnapshot_iff (hs : s.Closed) (hv : s.HasAll [v]) (h : s.Confined levels path v)
    {snapshot : Snapshot} :
    s.IsSnapshot v snapshot ↔ snapshot = v.snapshot (s.unfold Node.snapshot levels) := by
  cases hid : v.sequence? with
  | none =>
    have hcopy (copy : NodeId → Snapshot) :
        v.snapshot copy = v.snapshot (s.unfold Node.snapshot levels) :=
      Value.snapshot_congr fun id hsome => nomatch hid.symm.trans hsome
    constructor
    · rintro ⟨copy, -, rfl⟩
      exact hcopy copy
    · exact fun heq => ⟨_, fun id hsome => (nomatch hid.symm.trans hsome), heq⟩
  | some id =>
    have hwithin := (confined_iff.1 h id hid).1
    have hthere (other : NodeId) (hother : ReflTransGen s.Unfolds id other) : s.get? other ≠ none :=
      hs.unfolds (has_of_sequence? hv hid) hother
    obtain rfl := Value.sequence?_eq_some.1 hid
    refine Iff.trans ?_ (exists_obeys_iff local_snapshot hwithin hthere)
    refine exists_congr fun copy => and_congr_left' ?_
    exact ⟨fun hobeys => hobeys id hid, fun hobeys _ hsome => Option.some.inj hsome ▸ hobeys⟩

/-! ## Copies -/

theorem encodeEntries_eq_mapM (encode : Value → Except Fault Snapshot) (es : List (Key × Value)) :
    encodeEntries encode es = es.mapM fun e => encode e.2 >>= fun p => pure (e.1.text, p) := by
  induction es with
  | nil => rfl
  | cons e es ih => simp only [encodeEntries, ih, List.mapM_cons, bind_assoc, pure_bind]

theorem answers_encodeEntries {encode : Value → Except Fault Snapshot} {D : Key × Value → Prop}
    {f : Key × Value → Snapshot} {es : List (Key × Value)}
    (h : ∀ e ∈ es, Task.Answers (D e) (f e) (encode e.2)) :
    Task.Answers (∀ e ∈ es, D e) (es.map fun e => (e.1.text, f e)) (encodeEntries encode es) := by
  rw [encodeEntries_eq_mapM]
  exact Task.Answers.mapM fun e he => (h e he).map (e.1.text, ·)

theorem answers_encodeWith {encoded : NodeId → Except Fault Snapshot} {copy : NodeId → Snapshot}
    {C : NodeId → Prop}
    (h : ∀ id, v.sequence? = some id → Task.Answers (C id) (copy id) (encoded id)) :
    Task.Answers (∀ id, v.sequence? = some id → C id) (v.snapshot copy) (encodeWith encoded v) := by
  cases v with
  | node n =>
    obtain ⟨id, isSequence⟩ := n
    cases isSequence with
    | true => exact (h id rfl).congr (by simp [Value.sequence?])
    | false => exact (Task.answers_ok _).congr (by simp [Value.sequence?])
  | scalar | bool | text | unset => exact (Task.answers_ok _).congr (by simp [Value.sequence?])

/-- A full copy inside the nodes of a path is made exactly if the walks of the sequence are clear of
the path and end within the levels that are left. -/
theorem answers_fullCopy (hs : s.Closed) (levels : Nat) (path : List NodeId) (hid : s.Has id) :
    Task.Answers (Clear s.Unfolds levels path id) (s.unfold Node.snapshot levels id)
      (s.fullCopy levels path id) := by
  induction levels generalizing path id with
  | zero => exact Task.answers_error not_clear_zero _ _
  | succ levels ih =>
    rw [fullCopy]
    split
    · rename_i hpath
      exact Task.answers_error (fun h => h.notMem hpath) _ _
    rename_i hpath
    obtain ⟨node, hnode⟩ := Option.ne_none_iff_exists'.1 hid
    have hentries : Task.Answers
        (∀ e ∈ node.properties.entries, ∀ child, e.2.sequence? = some child →
          Clear s.Unfolds levels (id :: path) child)
        (node.properties.entries.map fun e =>
          (e.1.text, e.2.snapshot (s.unfold Node.snapshot levels)))
        (encodeEntries (encodeWith (s.fullCopy levels (id :: path))) node.properties.entries) := by
      refine answers_encodeEntries fun e he => answers_encodeWith fun child hchild => ih _ ?_
      have hsequence := Value.sequence?_eq_some.1 hchild
      exact hs id node hnode ⟨child, true⟩ (hsequence ▸ List.mem_map_of_mem he)
    -- What the properties ask of the walks from them is what the node asks of those from itself.
    rw [hnode, unfold_succ hnode, clear_succ_iff hpath]
    refine (hentries.map (Snapshot.node id node.name)).congr ?_
    constructor
    · rintro h child ⟨node', hnode', v, hv, hchild⟩
      cases hnode.symm.trans hnode'
      obtain ⟨e, he, rfl⟩ := List.mem_map.1 hv
      exact h e he child hchild
    · exact fun h e he child hchild => h child ⟨node, hnode, e.2, List.mem_map_of_mem he, hchild⟩

variable {maxDepth : Nat} {owner : NodeId}

theorem answers_encodeWith_fullCopy (hs : s.Closed) (hv : s.HasAll [v]) (levels : Nat)
    (path : List NodeId) :
    Task.Answers (s.Confined levels path v) (v.snapshot (s.unfold Node.snapshot levels))
      (encodeWith (s.fullCopy levels path) v) := by
  have hcopies := answers_encodeWith fun id hid =>
    answers_fullCopy hs levels path (has_of_sequence? hv hid)
  exact hcopies.congr confined_iff.symm

theorem forall₂_iff_eq_map {α β : Type} {R : α → β → Prop} {f : α → β} {as : List α} {bs : List β}
    (h : ∀ a ∈ as, ∀ b, R a b ↔ b = f a) : List.Forall₂ R as bs ↔ bs = as.map f := by
  induction as generalizing bs with
  | nil => exact List.forall₂_nil_left_iff
  | cons a as ih =>
    rw [List.forall₂_cons_left_iff, List.map_cons]
    constructor
    · rintro ⟨b, bs, hb, hbs, rfl⟩
      rw [(h a List.mem_cons_self b).1 hb,
        (ih fun a' ha' => h a' (List.mem_cons_of_mem a ha')).1 hbs]
    · rintro rfl
      exact ⟨f a, as.map f, (h a List.mem_cons_self _).2 rfl,
        (ih fun a' ha' => h a' (List.mem_cons_of_mem a ha')).2 rfl, rfl⟩

theorem overflows_of_answers {α : Type} {C : Prop} {R : α → Prop} {a : α}
    {outcome : Except Fault α} (h : Task.Answers C a outcome) (hR : C → ∀ b, R b ↔ b = a)
    (hfault : ∀ e, outcome = .error e → e.isOverflow = true) : Overflows C R outcome :=
  ⟨h.ok_iff, fun b => (h b).trans (and_congr_right fun hC => (hR hC b).symm), hfault⟩

/-- The snapshot of a value of which a node is made, where a node with an announcement travels as
that. -/
def propertySnapshot (announcement? : NodeId → Option Create) (copy : NodeId → Snapshot)
    (v : Value) : Snapshot :=
  match v.node?.bind (announcement? ·.id) with
  | some create => .ofCreate create
  | none => v.snapshot copy

/-- The snapshot of a property under the text of its key. A node that has been announced is not gone
into, but travels as its announcement. -/
def IsEntry (s : Store) (announcement? : NodeId → Option Create) (e : Key × Value)
    (p : String × Snapshot) : Prop :=
  p.1 = e.1.text ∧
    match e.2.node?.bind (announcement? ·.id) with
    | some create => p.2 = .ofCreate create
    | none => s.IsSnapshot e.2 p.2

theorem HasAll.of_mem {values : List Value} (h : s.HasAll values) (hv : v ∈ values) :
    s.HasAll [v] := fun n hn => h n (List.mem_singleton.1 hn ▸ hv)

theorem overflows_encode (hs : s.Closed) (hv : s.HasAll [v]) :
    Overflows (s.Confined maxDepth [] v) (s.IsSnapshot v) (s.encode maxDepth v) := by
  refine overflows_of_answers (answers_encodeWith_fullCopy hs hv maxDepth [])
    (fun hconfined snapshot => isSnapshot_iff hs hv hconfined) fun e he => ?_
  obtain ⟨n, rfl, hcopy⟩ := error_of_encodeWith he
  exact isOverflow_of_fullCopy hs (hv n List.mem_cons_self) hcopy

theorem overflows_encodeArgs (hs : s.Closed) {args : List Value} (hargs : s.HasAll args) :
    Overflows (∀ v ∈ args, s.Confined (maxDepth - 1) [owner] v) (List.Forall₂ s.IsSnapshot args)
      (s.encodeArgs maxDepth owner args) := by
  have hanswers := Task.Answers.mapM fun v hv =>
    answers_encodeWith_fullCopy hs (hargs.of_mem hv) (maxDepth - 1) [owner]
  refine overflows_of_answers hanswers (fun hconfined snapshots => ?_)
    fun e he => isOverflow_of_encodeArgs hs hargs he
  exact forall₂_iff_eq_map fun v hv _ => isSnapshot_iff hs (hargs.of_mem hv) (hconfined v hv)

theorem overflows_encodeProperties (hs : s.Closed) (announcement? : NodeId → Option Create)
    {properties : Bag} (hvalues : s.HasAll properties.values) :
    Overflows
      (∀ v ∈ properties.values, v.node?.bind (announcement? ·.id) = none →
        s.Confined (maxDepth - 1) [owner] v)
      (List.Forall₂ (s.IsEntry announcement?) properties.entries)
      (s.encodeProperties maxDepth announcement? owner properties) := by
  have hmem {e : Key × Value} (he : e ∈ properties.entries) : e.2 ∈ properties.values :=
    List.mem_map_of_mem he
  have hanswers : Task.Answers
      (∀ e ∈ properties.entries, e.2.node?.bind (announcement? ·.id) = none →
        s.Confined (maxDepth - 1) [owner] e.2)
      (properties.entries.map fun e =>
        (e.1.text, propertySnapshot announcement? (s.unfold Node.snapshot (maxDepth - 1)) e.2))
      (s.encodeProperties maxDepth announcement? owner properties) := by
    refine answers_encodeEntries fun e he => ?_
    unfold propertySnapshot
    cases hcreate : e.2.node?.bind (announcement? ·.id) with
    | some create => exact (Task.answers_ok _).congr (iff_of_true trivial nofun)
    | none =>
      have hcopy := answers_encodeWith_fullCopy hs (hvalues.of_mem (hmem he)) (maxDepth - 1) [owner]
      exact hcopy.congr ⟨fun h _ => h, fun h => h rfl⟩
  have hentries : (∀ e ∈ properties.entries, e.2.node?.bind (announcement? ·.id) = none →
      s.Confined (maxDepth - 1) [owner] e.2) ↔
      ∀ v ∈ properties.values, v.node?.bind (announcement? ·.id) = none →
        s.Confined (maxDepth - 1) [owner] v := by
    rw [Bag.values, List.forall_mem_map]
  refine overflows_of_answers (hanswers.congr hentries) (fun hconfined snapshots => ?_)
    fun e he => isOverflow_of_encodeProperties hs hvalues he
  refine forall₂_iff_eq_map fun e he p => ?_
  rw [IsEntry, propertySnapshot, Prod.ext_iff]
  refine and_congr_right fun _ => ?_
  cases hcreate : e.2.node?.bind (announcement? ·.id) with
  | some create => exact Iff.rfl
  | none => exact isSnapshot_iff hs (hvalues.of_mem (hmem he)) (hconfined e.2 (hmem he) hcreate)

/-- **When values can be encoded, and as what.** In a store with all nodes that its properties name,
a value can be encoded exactly if every walk through sequences that starts at it has at most as many
nodes as the limit. The arguments of a call, and the properties that a node is made from, can be
encoded exactly if each walk from one of them has fewer nodes than the limit and does not meet the
node around them; of the properties, those that are announced nodes are not gone into. The snapshots
are then those of the rule, for each value by itself. Otherwise something nests too deep, and
nothing else goes wrong. -/
theorem encode_of_walks (hs : s.Closed) (maxDepth : Nat) (owner : NodeId) :
    (∀ v, s.HasAll [v] →
      Overflows (s.Confined maxDepth [] v) (s.IsSnapshot v) (s.encode maxDepth v)) ∧
    (∀ args, s.HasAll args →
      Overflows (∀ v ∈ args, s.Confined (maxDepth - 1) [owner] v)
        (List.Forall₂ s.IsSnapshot args) (s.encodeArgs maxDepth owner args)) ∧
    ∀ announcement? properties, s.HasAll properties.values →
      Overflows
        (∀ v ∈ properties.values, v.node?.bind (announcement? ·.id) = none →
          s.Confined (maxDepth - 1) [owner] v)
        (List.Forall₂ (s.IsEntry announcement?) properties.entries)
        (s.encodeProperties maxDepth announcement? owner properties) :=
  ⟨fun _ hv => overflows_encode hs hv, fun _ hargs => overflows_encodeArgs hs hargs,
    fun announcement? _ hvalues => overflows_encodeProperties hs announcement? hvalues⟩

theorem closed_of_forall
    (h : ∀ id < s.nextId, ∀ node ∈ s.get? id, s.HasAll node.properties.values) : s.Closed :=
  fun id node hnode => h id (lt_nextId hnode) node hnode

/-- A sum and a product that hold each other, a sequence of the sum, and a sequence of that one. -/
def stacked : Store :=
  ((((empty.add (.fresh (.chain .add) (.positional [.node ⟨2, false⟩]))).2.add
    (.fresh (.chain .mul) (.positional [.node ⟨1, false⟩]))).2.add
    (.fresh (.sequence .start)
      (.ofList [(.named "rate", .scalar 1.0), (.index 0, .node ⟨1, false⟩)]))).2.add
    (.fresh (.sequence .start)
      (.ofList [(.named "rate", .scalar 1.0), (.index 0, .node ⟨3, true⟩)]))).2

/-- The sequences can be copied inside another node if the limit is three, and the cycle is not gone
into. If it is two they cannot, nor inside the first of them. -/
theorem encode_of_stacked :
    (∃ snapshots, stacked.encodeArgs 3 5 [.node ⟨4, true⟩] = .ok snapshots ∧
      List.Forall₂ stacked.IsSnapshot [.node ⟨4, true⟩] snapshots) ∧
    (∀ e, stacked.encodeArgs 2 5 [.node ⟨4, true⟩] = .error e → e.isOverflow = true) ∧
    ¬ stacked.Confined 1 [5] (.node ⟨4, true⟩) ∧ ¬ stacked.Confined 2 [3] (.node ⟨4, true⟩) := by
  have hclosed : stacked.Closed := closed_of_forall (by decide +kernel)
  have hall : stacked.HasAll [.node ⟨4, true⟩] := by decide +kernel
  have hencode (maxDepth : Nat) (owner : NodeId) :=
    (encode_of_walks hclosed maxDepth owner).2.1 [.node ⟨4, true⟩] hall
  have hexists : (stacked.encodeArgs 3 5 [.node ⟨4, true⟩]).toOption.isSome = true := by
    decide +kernel
  have hshallow : (stacked.encodeArgs 2 5 [.node ⟨4, true⟩]).toOption = none := by decide +kernel
  have hinside : (stacked.encodeArgs 3 3 [.node ⟨4, true⟩]).toOption = none := by decide +kernel
  have hnot {maxDepth : Nat} {owner : NodeId}
      (h : (stacked.encodeArgs maxDepth owner [.node ⟨4, true⟩]).toOption = none) :
      ¬ stacked.Confined (maxDepth - 1) [owner] (.node ⟨4, true⟩) := by
    intro hconfined
    obtain ⟨snapshots, hok⟩ := (hencode maxDepth owner).succeeds.2 fun v hv =>
      List.mem_singleton.1 hv ▸ hconfined
    rw [hok] at h
    cases h
  obtain ⟨snapshots, hsnapshots⟩ := Option.isSome_iff_exists.1 hexists
  have hok := Task.eq_ok_of_toOption hsnapshots
  exact ⟨⟨snapshots, hok, ((hencode 3 5).result snapshots).1 hok |>.2⟩, (hencode 2 5).fault,
    hnot hshallow, hnot hinside⟩

end Store

end Patchbay
