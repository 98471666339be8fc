import Patchbay.Graph.Store
import Patchbay.Text.Case

/-!
# Replicas

A replica rebuilds the nodes of another program from its messages. It files each under the number
that it has over there, and finds constructors by name, upper and lower case being alike.

* `Replica.file_ascending`: the table stays in ascending order of those numbers.
-/

namespace Patchbay

/-- Makes a node from the properties in an announcement. -/
abbrev Constructor := Bag → Except Fault Node

/-- The nodes rebuilt, by their number in the other program, and the constructors by name. -/
structure Replica where
  table : List (NodeId × NodeRef)
  constructors : List (String × Constructor)

namespace Replica

/-- The functions that nodes apply, in the order of their constructors. -/
def functions : List Function := [.abs, .sqrt, .pow, .merge]

/-- The constructors of the nodes of this library. -/
def builtins : List (String × Constructor) :=
  Arith.all.map (fun op => (op.name, fun bag => Node.chain op bag.values)) ++
    functions.map (fun f => (f.name, fun bag => Node.function f bag.values)) ++
    [("map", Node.mapOf), ("sequence", Node.sequenceOf)]

/-- A replica without nodes. -/
def empty : Replica := ⟨[], builtins⟩

/-- The constructor that doubles its first property. -/
def doubling : Constructor := fun bag =>
  Node.chain .mul [bag.values.headD .unset, .scalar 2.0]

/-- Adds a constructor, in place of one of the same name. -/
def register (r : Replica) (name : String) (constructor : Constructor) : Replica :=
  let name := Text.lowercase name
  { r with constructors := (name, constructor) :: r.constructors.filter (·.1 ≠ name) }

/-- The constructor of a name. -/
def constructor? (r : Replica) (name : String) : Option Constructor :=
  r.constructors.lookup (Text.lowercase name)

/-- The node filed under a number. -/
def get? (r : Replica) (id : NodeId) : Option NodeRef := r.table.lookup id

/-- The numbers in the table, ascending. -/
def ids (r : Replica) : List NodeId := r.table.map Prod.fst

/-- Entries with one more, in ascending order of numbers, in place of one of the same number. -/
def fileEntry (id : NodeId) (ref : NodeRef) : List (NodeId × NodeRef) → List (NodeId × NodeRef)
  | [] => [(id, ref)]
  | (i, r) :: rest =>
    if id < i then (id, ref) :: (i, r) :: rest
    else if id = i then (id, ref) :: rest
    else (i, r) :: fileEntry id ref rest

/-- Files a node under a number. -/
def file (r : Replica) (id : NodeId) (ref : NodeRef) : Replica :=
  { r with table := fileEntry id ref r.table }

theorem mem_map_fst_fileEntry {id i : NodeId} {ref : NodeRef} {es : List (NodeId × NodeRef)}
    (h : i ∈ (fileEntry id ref es).map Prod.fst) : i = id ∨ i ∈ es.map Prod.fst := by
  induction es with
  | nil => simpa [fileEntry] using h
  | cons e es ih =>
    obtain ⟨k, r⟩ := e
    rw [fileEntry] at h
    split at h
    · simpa using h
    · split at h
      · simp only [List.map_cons, List.mem_cons] at h ⊢
        exact h.imp_right Or.inr
      · simp only [List.map_cons, List.mem_cons] at h ⊢
        rcases h with h | h
        · exact Or.inr (Or.inl h)
        · exact (ih h).imp_right Or.inr

/-- Filing keeps the table in ascending order of numbers. -/
theorem file_ascending {r : Replica} (h : r.ids.Pairwise (· < ·)) (id : NodeId) (ref : NodeRef) :
    (r.file id ref).ids.Pairwise (· < ·) := by
  obtain ⟨table, constructors⟩ := r
  simp only [file, ids] at h ⊢
  induction table with
  | nil => simp [fileEntry]
  | cons e es ih =>
    obtain ⟨k, r⟩ := e
    rw [fileEntry]
    simp only [List.map_cons, List.pairwise_cons] at h
    split
    · rename_i hlt
      simp only [List.map_cons, List.pairwise_cons, List.mem_cons, forall_eq_or_imp]
      exact ⟨⟨hlt, fun i hi => Nat.lt_trans hlt (h.1 i hi)⟩, h⟩
    · rename_i hnot
      split
      · rename_i heq
        subst heq
        simpa using h
      · rename_i hne
        simp only [List.map_cons, List.pairwise_cons]
        refine ⟨fun i hi => ?_, ih h.2⟩
        rcases mem_map_fst_fileEntry hi with rfl | hi
        · exact Nat.lt_of_le_of_ne (Nat.le_of_not_lt hnot) (Ne.symm hne)
        · exact h.1 i hi

/-- The replica in words. -/
def description (r : Replica) : String :=
  "RemoteGraph \x7b objects: [" ++
    String.intercalate ", " (r.ids.map fun id => "NodeId(" ++ Nat.repr id ++ ")") ++
    "], constructors: " ++ Nat.repr r.constructors.length ++ " \x7d"

end Replica

end Patchbay
