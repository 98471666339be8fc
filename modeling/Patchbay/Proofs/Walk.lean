import Mathlib.Data.List.Chain
import Mathlib.Data.Set.Card
import Patchbay.Proofs.Turn

/-!
# Walks through a graph

A walk goes from a node to one that it holds, and on from there. A recursion over a graph goes along
all walks at once. It counts the levels that are left, and looks each node up in the path of those
it has come through. What it checks at each step is a condition on all walks together:

* `Within`: every walk from a node has at most so many nodes;
* `Clear`: nor does a walk meet a node of the path; `clear_succ_iff` is this level by level;
* `Within.not_cycle`, `within_of_acyclic`: a limit on walks excludes cycles, and without cycles the
  number of nodes is a limit.

What such a recursion makes of a node is made by a rule from what it makes of the nodes below
(`Store.Obeys`). Under a limit on walks there is exactly one way to obey a rule, which is to go down
level by level (`Store.obeys_unfold`, `Store.exists_obeys_iff`).
-/

namespace Patchbay

open Relation

variable {R : NodeId → NodeId → Prop} {id root other : NodeId} {levels : Nat} {path : List NodeId}

/-- Every walk along `R` from the node has at most `levels` nodes. -/
def Within (R : NodeId → NodeId → Prop) (levels : Nat) (id : NodeId) : Prop :=
  ∀ walk, (id :: walk).IsChain R → (id :: walk).length ≤ levels

theorem not_within_zero : ¬ Within R 0 id :=
  fun h => Nat.not_succ_le_zero 0 (h [] (List.isChain_singleton id))

theorem within_succ_iff :
    Within R (levels + 1) id ↔ ∀ child, R id child → Within R levels child := by
  constructor
  · intro h child hchild walk hwalk
    exact Nat.le_of_succ_le_succ (h (child :: walk) (hwalk.cons_cons hchild))
  · intro h walk hwalk
    cases walk with
    | nil => simp
    | cons child walk =>
      rw [List.isChain_cons_cons] at hwalk
      exact Nat.succ_le_succ (h child hwalk.1 walk hwalk.2)

theorem Within.mono {levels' : Nat} (h : Within R levels id) (hle : levels ≤ levels') :
    Within R levels' id :=
  fun walk hwalk => Nat.le_trans (h walk hwalk) hle

/-- What holds of all walks from a node holds of those from the nodes below it. -/
theorem Within.below (h : Within R levels root) (hid : ReflTransGen R root id) :
    Within R levels id := by
  induction hid with
  | refl => exact h
  | tail _ hstep ih =>
    cases levels with
    | zero => exact absurd ih not_within_zero
    | succ levels => exact (within_succ_iff.1 ih _ hstep).mono (Nat.le_succ levels)

/-- Walks along a cycle have no limit. -/
theorem Within.not_cycle (h : Within R levels id) : ¬ TransGen R id id := by
  intro hcycle
  induction levels generalizing id with
  | zero => exact not_within_zero h
  | succ levels ih =>
    obtain ⟨child, hchild, hback⟩ := TransGen.head'_iff.1 hcycle
    exact ih (within_succ_iff.1 h child hchild) (TransGen.tail' hback hchild)

/-! ## The path -/

/-- Every walk along `R` from the node has at most `levels` nodes, and meets none of the path. -/
def Clear (R : NodeId → NodeId → Prop) (levels : Nat) (path : List NodeId) (id : NodeId) : Prop :=
  Within R levels id ∧ ∀ other, ReflTransGen R id other → other ∉ path

theorem clear_nil_iff : Clear R levels [] id ↔ Within R levels id :=
  and_iff_left fun _ _ => List.not_mem_nil

theorem not_clear_zero : ¬ Clear R 0 path id := fun h => not_within_zero h.1

theorem Clear.notMem (h : Clear R levels path id) : id ∉ path := h.2 id .refl

theorem clear_succ_iff (hpath : id ∉ path) :
    Clear R (levels + 1) path id ↔ ∀ child, R id child → Clear R levels (id :: path) child := by
  constructor
  · rintro ⟨hwithin, hclear⟩ child hchild
    refine ⟨within_succ_iff.1 hwithin child hchild, fun other hother hmem => ?_⟩
    rcases List.mem_cons.1 hmem with rfl | hmem
    · exact hwithin.not_cycle (TransGen.head' hchild hother)
    · exact hclear other (.head hchild hother) hmem
  · intro h
    refine ⟨within_succ_iff.2 fun child hchild => (h child hchild).1, fun other hother => ?_⟩
    rcases hother.cases_head with rfl | ⟨child, hchild, hother⟩
    · exact hpath
    · exact fun hmem => (h child hchild).2 other hother (List.mem_cons_of_mem id hmem)

/-! ## Cycles -/

theorem pairwise_of_chain {walk : List NodeId} (h : walk.IsChain R) :
    walk.Pairwise (TransGen R) :=
  (h.imp fun _ _ => .single).pairwise

theorem reaches_of_chain {walk : List NodeId} (h : (root :: walk).IsChain R)
    (hid : id ∈ root :: walk) : ReflTransGen R root id := by
  rcases List.mem_cons.1 hid with rfl | hid
  · exact .refl
  · exact (List.rel_of_pairwise_cons (pairwise_of_chain h) hid).to_reflTransGen

theorem length_le_ncard {nodes : List NodeId} (hnodup : nodes.Nodup) {S : Set NodeId}
    (hfinite : S.Finite) (hsub : ∀ id ∈ nodes, id ∈ S) : nodes.length ≤ S.ncard := by
  rw [← List.toFinset_card_of_nodup hnodup, ← Set.ncard_coe_finset]
  exact Set.ncard_le_ncard (fun id hid => hsub id (List.mem_toFinset.1 hid)) hfinite

/-- A walk that meets no cycle meets no node twice, and so it ends. -/
theorem within_of_acyclic (hfinite : {id | ReflTransGen R root id}.Finite)
    (hcard : {id | ReflTransGen R root id}.ncard ≤ levels)
    (hacyclic : ∀ id, ReflTransGen R root id → ¬ TransGen R id id) : Within R levels root := by
  intro walk hwalk
  have hnodup : (root :: walk).Nodup := by
    refine (pairwise_of_chain hwalk).imp_of_mem fun hid _ hlater heq => ?_
    exact hacyclic _ (reaches_of_chain hwalk hid) (heq ▸ hlater)
  exact Nat.le_trans (length_le_ncard hnodup hfinite fun _ => reaches_of_chain hwalk) hcard

/-! ## Rules -/

namespace Store

variable {α : Type} {s : Store} {rule : NodeId → Node → (NodeId → α) → α} {f : NodeId → α}

/-- What `f` says of a node, of the root and below it, follows by a rule from what it says of
others. -/
def Obeys (s : Store) (R : NodeId → NodeId → Prop) (rule : NodeId → Node → (NodeId → α) → α)
    (root : NodeId) (f : NodeId → α) : Prop :=
  ∀ id node, ReflTransGen R root id → s.get? id = some node → f id = rule id node f

theorem Obeys.child (h : s.Obeys R rule root f) (hid : R root id) : s.Obeys R rule id f :=
  fun other node hother => h other node (.head hid hother)

/-- The rule needs of the other nodes only those next on a walk. -/
def Local (s : Store) (R : NodeId → NodeId → Prop)
    (rule : NodeId → Node → (NodeId → α) → α) : Prop :=
  ∀ id node f g, s.get? id = some node → (∀ child, R id child → f child = g child) →
    rule id node f = rule id node g

/-- What a rule makes of a node with so many levels below it. -/
def unfold [Inhabited α] (s : Store) (rule : NodeId → Node → (NodeId → α) → α) :
    Nat → NodeId → α
  | 0, _ => default
  | levels + 1, id =>
    match s.get? id with
    | none => default
    | some node => rule id node (s.unfold rule levels)

variable [Inhabited α]

theorem unfold_succ {node : Node} (hnode : s.get? id = some node) (levels : Nat) :
    s.unfold rule (levels + 1) id = rule id node (s.unfold rule levels) := by
  rw [unfold, hnode]

/-- More levels than there are make no difference. -/
theorem unfold_of_within (hlocal : s.Local R rule) (h : Within R levels id) :
    s.unfold rule (levels + 1) id = s.unfold rule levels id := by
  induction levels generalizing id with
  | zero => exact absurd h not_within_zero
  | succ levels ih =>
    cases hnode : s.get? id with
    | none => rw [unfold, unfold, hnode]
    | some node =>
      rw [unfold_succ hnode, unfold_succ hnode]
      exact hlocal id node _ _ hnode fun child hchild => ih (within_succ_iff.1 h child hchild)

theorem unfold_of_within_le {levels' : Nat} (hlocal : s.Local R rule) (h : Within R levels id)
    (hle : levels ≤ levels') : s.unfold rule levels' id = s.unfold rule levels id := by
  induction hle with
  | refl => rfl
  | step hle ih => rw [unfold_of_within hlocal (h.mono hle), ih]

theorem obeys_unfold (hlocal : s.Local R rule) (h : Within R levels root) :
    s.Obeys R rule root (s.unfold rule levels) := by
  intro id node hid hnode
  have hwithin := h.below hid
  cases levels with
  | zero => exact absurd hwithin not_within_zero
  | succ levels =>
    rw [unfold_succ hnode]
    refine hlocal id node _ _ hnode fun child hchild => ?_
    exact (unfold_of_within hlocal (within_succ_iff.1 hwithin child hchild)).symm

theorem Obeys.unique (hlocal : s.Local R rule) (h : s.Obeys R rule root f)
    (hwithin : Within R levels root) (hthere : ∀ id, ReflTransGen R root id → s.get? id ≠ none) :
    f root = s.unfold rule levels root := by
  induction levels generalizing root with
  | zero => exact absurd hwithin not_within_zero
  | succ levels ih =>
    obtain ⟨node, hnode⟩ := Option.ne_none_iff_exists'.1 (hthere root .refl)
    rw [h root node .refl hnode, unfold_succ hnode]
    refine hlocal root node _ _ hnode fun child hchild => ?_
    exact ih (h.child hchild) (within_succ_iff.1 hwithin child hchild)
      fun id hid => hthere id (.head hchild hid)

/-- Under a limit on walks there is one way to obey a rule. -/
theorem exists_obeys_iff (hlocal : s.Local R rule) (hwithin : Within R levels root)
    (hthere : ∀ id, ReflTransGen R root id → s.get? id ≠ none) {a : α} :
    (∃ f, s.Obeys R rule root f ∧ a = f root) ↔ a = s.unfold rule levels root := by
  constructor
  · rintro ⟨f, hf, rfl⟩
    exact hf.unique hlocal hwithin hthere
  · exact fun h => ⟨_, obeys_unfold hlocal hwithin, h⟩

/-! ## The nodes below a node -/

theorem reaches_iff : s.Reaches root id ↔ ReflTransGen s.Holds root id := by
  constructor
  · intro h
    induction h with
    | root => exact .refl
    | property _ hnode hn ih => exact ih.tail ⟨_, _, hnode, hn, rfl⟩
  · intro h
    induction h with
    | refl => exact .root
    | tail _ hholds ih =>
      obtain ⟨node, n, hnode, hn, rfl⟩ := hholds
      exact .property ih hnode hn

/-- There are finitely many nodes. -/
theorem finite_reaches (h : ∀ id, s.Reaches root id → s.get? id ≠ none) :
    {id | s.Reaches root id}.Finite := by
  refine (Set.finite_lt_nat s.nextId).subset fun id hid => ?_
  obtain ⟨node, hnode⟩ := Option.ne_none_iff_exists'.1 (h id hid)
  exact lt_nextId hnode

end Store

end Patchbay
