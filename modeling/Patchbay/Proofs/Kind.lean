import Patchbay.Graph.Method
import Patchbay.Proofs.Bag
import Patchbay.Proofs.Key
import Patchbay.Proofs.Task
import Patchbay.Replica.Basic

/-!
# Kinds of nodes and what constructors give them

The kind of a node is what it is apart from its state; it decides the name of its constructor
(`Replica.constructor?_kind`).

* `Kind.Makes`: the bags that a constructor of the kind makes;
* `Kind.Makes.rebuild`: the constructor makes such a bag again, entry by entry;
* `Maker.makes`: every constructor makes such a bag, except for a map of nothing.
-/

namespace Patchbay

/-- What a node is, apart from its state. -/
inductive Kind where
  | chain (op : Arith)
  | function (f : Function)
  | map
  | sequence
deriving DecidableEq

namespace Kind

/-- The name of the constructor. -/
def name : Kind → String
  | chain op => op.name
  | function f => f.name
  | map => "map"
  | sequence => "sequence"

/-- The constructor that a replica has for the kind. -/
def constructor : Kind → Constructor
  | chain op => fun bag => Node.chain op bag.values
  | function f => fun bag => Node.function f bag.values
  | map => Node.mapOf
  | sequence => Node.sequenceOf

end Kind

/-- The kind of a node of that body. -/
def Body.kind : Body → Kind
  | chain op => .chain op
  | function f => .function f
  | map _ => .map
  | sequence _ => .sequence

/-- The kind of a node. -/
def Node.kind (n : Node) : Kind := n.body.kind

theorem Node.name_eq (n : Node) : n.name = n.kind.name := by
  obtain ⟨body, properties, expression⟩ := n
  cases body <;> rfl

theorem Kind.lookup_builtins (k : Kind) : Replica.builtins.lookup k.name = some k.constructor := by
  rcases k with op | f | _ | _
  · cases op <;> rfl
  · cases f <;> rfl
  · rfl
  · rfl

/-- A replica finds the constructor of a kind under its name, in either case. -/
theorem Replica.constructor?_kind {r : Replica} (h : r.constructors = builtins) {name : String}
    {k : Kind} (hname : Text.lowercase name = k.name) :
    r.constructor? name = some k.constructor := by
  rw [constructor?, h, hname, k.lookup_builtins]

/-- All constructors that come with a replica are those of kinds. -/
theorem Replica.exists_kind {r : Replica} (h : r.constructors = builtins) {name : String}
    {constructor : Constructor} (hname : r.constructor? name = some constructor) :
    ∃ k : Kind, Text.lowercase name = k.name ∧ constructor = k.constructor := by
  have hbuiltins : builtins = (Arith.all.map Kind.chain ++ functions.map Kind.function ++
      [Kind.map, Kind.sequence]).map fun k => (k.name, k.constructor) := rfl
  rw [constructor?, h, hbuiltins] at hname
  obtain ⟨before, after, heq, -⟩ := List.lookup_eq_some_iff.1 hname
  obtain ⟨k, -, hk⟩ := List.mem_map.1 (heq ▸ List.mem_append_right before List.mem_cons_self)
  exact ⟨k, (congrArg Prod.fst hk).symm, (congrArg Prod.snd hk).symm⟩

namespace Kind

/-- What can be wrong with what a constructor is given. -/
theorem constructor_error {k : Kind} {bag : Bag} {e : Fault} (h : k.constructor bag = .error e) :
    (∃ op, e = .emptyOperator op) ∨ (∃ name expected actual, e = .arity name expected actual) ∨
      ∃ name reason, e = .invalidArgument name reason := by
  cases k with
  | chain op =>
    simp only [constructor, Node.chain] at h
    split at h
    · cases h
      exact .inl ⟨op, rfl⟩
    · cases h
  | function f =>
    simp only [constructor, Node.function] at h
    split at h
    · cases h
    · cases h
      exact .inr (.inl ⟨_, _, _, rfl⟩)
  | map =>
    cases hvalues : Node.mapNames.mapM (Node.mapProperty bag) with
    | ok values =>
      rw [constructor, Node.mapOf, hvalues] at h
      cases h
    | error e' =>
      rw [constructor, Node.mapOf, hvalues] at h
      cases h
      obtain ⟨name, -, hname⟩ := Task.error_of_mapM hvalues
      unfold Node.mapProperty at hname
      split at hname
      · cases hname
      · cases hname
      · cases hname
        exact .inr (.inr ⟨_, _, rfl⟩)
  | sequence =>
    simp only [constructor, Node.sequenceOf, Node.freshSequence] at h
    split at h
    · cases h
      exact .inr (.inr ⟨_, _, rfl⟩)
    · cases h

/-! ## The bags of each kind -/

/-- The bags that constructors of the kind make. -/
def Makes : Kind → Bag → Prop
  | chain _, b => b.Positional ∧ b.size ≠ 0
  | function f, b => b.Positional ∧ b.size = f.arity
  | map, b => b.keys = Node.mapNames.map .named ∧ ∀ v ∈ b.values, v ≠ .unset
  | sequence, b => 2 ≤ b.size ∧ b.keys.Nodup ∧ ∃ rate steps,
      b.entries = (.named "rate", rate) :: steps ∧ ∀ e ∈ steps, Node.isStep e = true

theorem nodup_mapNames : (Node.mapNames.map Key.named).Nodup := by decide

theorem Makes.nodup_keys {k : Kind} {b : Bag} (h : k.Makes b) : b.keys.Nodup := by
  cases k with
  | chain op =>
    rw [h.1.2]
    exact Bag.nodup_positions h.1.1
  | function f =>
    rw [h.1.2]
    exact Bag.nodup_positions h.1.1
  | map =>
    rw [h.1]
    exact nodup_mapNames
  | sequence => exact h.2.1

theorem readable_of_positional {b : Bag} (h : b.Positional) : ∀ key ∈ b.keys, key.Readable := by
  intro key hkey
  rw [h.2] at hkey
  obtain ⟨i, -, rfl⟩ := List.mem_map.1 hkey
  exact Key.readable_index _

theorem readable_of_isStep {e : Key × Value} (h : Node.isStep e = true) : e.1.Readable := by
  obtain ⟨key, value⟩ := e
  cases key with
  | index n => exact Key.readable_index n
  | named name => cases h

theorem isStep_congr {e e' : Key × Value} (h : e'.1 = e.1) : Node.isStep e' = Node.isStep e := by
  rw [Node.isStep, Node.isStep, h]

/-- The keys of such a bag are read back from their texts. -/
theorem Makes.readable {k : Kind} {b : Bag} (h : k.Makes b) : ∀ key ∈ b.keys, key.Readable := by
  cases k with
  | chain op => exact readable_of_positional h.1
  | function f => exact readable_of_positional h.1
  | map =>
    intro key hkey
    rw [h.1] at hkey
    obtain ⟨name, hname, rfl⟩ := List.mem_map.1 hkey
    exact Key.readable_mapNames name hname
  | sequence =>
    obtain ⟨-, -, rate, steps, hentries, hsteps⟩ := h
    intro key hkey
    rw [Bag.keys, hentries] at hkey
    rcases List.mem_cons.1 hkey with rfl | hkey
    · exact Key.readable_rate
    · obtain ⟨e, he, rfl⟩ := List.mem_map.1 hkey
      exact readable_of_isStep (hsteps e he)

/-- A bag that matches one of the kind is one of the kind, if what is there is not matched by
nothing. -/
theorem Makes.of_matches {k : Kind} {b b' : Bag} {R : Value → Value → Prop} (h : k.Makes b)
    (hmatch : b.Matches R b') (hunset : ∀ v v', R v v' → v ≠ .unset → v' ≠ .unset) :
    k.Makes b' := by
  have hpositional (hb : b.Positional) : b'.Positional := by
    rw [Bag.Positional, hmatch.keys_eq, hmatch.size_eq]
    exact hb
  cases k with
  | chain op => exact ⟨hpositional h.1, hmatch.size_eq ▸ h.2⟩
  | function f => exact ⟨hpositional h.1, hmatch.size_eq.trans h.2⟩
  | map =>
    refine ⟨hmatch.keys_eq.trans h.1, fun v' hv' => ?_⟩
    obtain ⟨e', he', rfl⟩ := List.mem_map.1 hv'
    obtain ⟨e, he, hee⟩ := hmatch.exists_left he'
    exact hunset e.2 e'.2 hee.2 (h.2 e.2 (List.mem_map_of_mem he))
  | sequence =>
    obtain ⟨hsize, hnodup, rate, steps, hentries, hsteps⟩ := h
    refine ⟨hmatch.size_eq ▸ hsize, hmatch.keys_eq ▸ hnodup, ?_⟩
    rw [Bag.Matches, hentries] at hmatch
    obtain ⟨e', steps', hhead, htail, hentries'⟩ := List.forall₂_cons_left_iff.1 hmatch
    obtain ⟨key, rate'⟩ := e'
    obtain ⟨rfl, -⟩ := hhead
    refine ⟨rate', steps', hentries', fun e' he' => ?_⟩
    obtain ⟨e, he, hkey, -⟩ := Bag.exists_of_forall₂ htail he'
    rw [isStep_congr hkey]
    exact hsteps e he

/-! ## Making them again -/

theorem mapM_of_forall₂ {α β : Type} {f : α → Except Fault β} {as : List α} {bs : List β}
    (h : List.Forall₂ (fun a b => f a = .ok b) as bs) : as.mapM f = .ok bs := by
  induction h with
  | nil => rfl
  | cons hhead _ ih =>
    rw [List.mapM_cons, hhead, ih]
    rfl

theorem mapProperty_of_getNamed? {b : Bag} {name : String} {value : Value}
    (h : b.getNamed? name = some value) (hvalue : value ≠ .unset) :
    Node.mapProperty b name = .ok value := by
  have hset : value.isUnset = false := by
    cases value <;> first | rfl | exact absurd rfl hvalue
  unfold Node.mapProperty
  rw [h, Option.filter_some, hset]
  rfl

/-- The constructor of a kind makes such a bag again. -/
theorem Makes.rebuild {k : Kind} {b : Bag} (h : k.Makes b) :
    ∃ node, k.constructor b = .ok node ∧ node.kind = k ∧ node.properties = b := by
  cases k with
  | chain op =>
    refine ⟨.fresh (.chain op) b, ?_, rfl, rfl⟩
    have hvalues : b.values.isEmpty = false := by
      rw [List.isEmpty_eq_false_iff, ← List.length_pos_iff, Bag.values_length]
      exact Nat.pos_of_ne_zero h.2
    simp only [constructor, Node.chain, hvalues, h.1.positional_values]
    rfl
  | function f =>
    refine ⟨.fresh (.function f) b, ?_, rfl, rfl⟩
    simp only [constructor, Node.function, Bag.values_length, h.2, h.1.positional_values]
    rfl
  | map =>
    refine ⟨Node.freshMap b, ?_, rfl, rfl⟩
    have heach : List.Forall₂ (fun key value => b.get? key = some value ∧ value ≠ .unset)
        b.keys b.values := by
      rw [Bag.keys, Bag.values, List.forall₂_map_left_iff, List.forall₂_map_right_iff,
        List.forall₂_same]
      exact fun e he => ⟨Bag.get?_of_mem h.nodup_keys he, h.2 e.2 (List.mem_map_of_mem he)⟩
    have hvalues : Node.mapNames.mapM (Node.mapProperty b) = .ok b.values := by
      rw [h.1, List.forall₂_map_left_iff] at heach
      exact mapM_of_forall₂ (heach.imp fun name value hv =>
        mapProperty_of_getNamed? ((b.getNamed?_eq_get? name).trans hv.1) hv.2)
    have hbag : Bag.ofList ((Node.mapNames.map Key.named).zip b.values) = b := by
      rw [← h.1, show b.keys.zip b.values = b.entries from (List.zip_of_prod rfl rfl).symm]
      exact Bag.ofList_of_nodup h.nodup_keys
    rw [constructor, Node.mapOf, hvalues]
    show Except.ok (Node.freshMap (Bag.ofList ((Node.mapNames.map Key.named).zip b.values))) = _
    rw [hbag]
  | sequence =>
    obtain ⟨hsize, hnodup, rate, steps, hentries, hsteps⟩ := h
    refine ⟨.fresh (.sequence .start) b, ?_, rfl, rfl⟩
    have hrate : b.getNamed? "rate" = some rate := by
      simp [Bag.getNamed?_eq_get?, Bag.get?, hentries]
    have hfilter : b.entries.filter Node.isStep = steps := by
      rw [hentries, List.filter_cons_of_neg (by simp [Node.isStep]), List.filter_eq_self]
      exact hsteps
    have hbag : Bag.ofList ((.named "rate", rate) :: steps) = b := by
      rw [← hentries]
      exact Bag.ofList_of_nodup hnodup
    simp only [constructor, Node.sequenceOf, hrate, hfilter, Option.getD_some, hbag,
      Node.freshSequence]
    rw [if_neg (Nat.not_lt.2 hsize)]
    rfl

end Kind

/-! ## Constructors -/

/-- A constructor with what it is given. -/
inductive Maker where
  | chain (op : Arith) (operands : List Value)
  | function (f : Function) (args : List Value)
  | applying (f : Function) (first second : Value)
  | map (input : Value) (range : Range)
  | mapOf (given : Bag)
  | sequence (steps : List Value) (rate : Value)
  | sequenceOf (given : Bag)

namespace Maker

/-- The node that a constructor makes. -/
def make : Maker → Except Fault Node
  | chain op operands => Node.chain op operands
  | function f args => Node.function f args
  | applying f first second => .ok (Node.applying f first second)
  | map input range => .ok (Node.map input range)
  | mapOf given => Node.mapOf given
  | sequence steps rate => Node.sequence steps rate
  | sequenceOf given => Node.sequenceOf given

/-- A map is not one of nothing. -/
def HasInput : Maker → Prop
  | map input _ => input ≠ .unset
  | _ => True

instance : (m : Maker) → Decidable m.HasInput
  | map input _ => inferInstanceAs (Decidable (input ≠ .unset))
  | chain .. | function .. | applying .. | mapOf .. | sequence .. | sequenceOf .. =>
    inferInstanceAs (Decidable True)

theorem makes_chain {op : Arith} {operands : List Value} {node : Node}
    (h : Node.chain op operands = .ok node) : node.kind.Makes node.properties := by
  unfold Node.chain at h
  split at h
  · cases h
  · rename_i hne
    cases h
    refine ⟨Bag.positional_positional operands, ?_⟩
    rw [List.isEmpty_iff, ← List.length_eq_zero_iff] at hne
    show (Bag.positional operands).size ≠ 0
    rw [Bag.size_positional]
    omega

theorem makes_function {f : Function} {args : List Value} (h : args.length = f.arity) :
    (Kind.function f).Makes (.positional args) := by
  refine ⟨Bag.positional_positional args, ?_⟩
  have harity : f.arity ≤ 2 := by cases f <;> decide
  rw [Bag.size_positional, h]
  omega

theorem makes_map {values : List Value} (hlength : values.length = Node.mapNames.length)
    (hvalues : ∀ v ∈ values, v ≠ .unset) :
    Kind.map.Makes (.ofList ((Node.mapNames.map Key.named).zip values)) := by
  have hkeys : ((Node.mapNames.map Key.named).zip values).map Prod.fst =
      Node.mapNames.map Key.named :=
    List.map_fst_zip (Nat.le_of_eq (by rw [List.length_map, hlength]))
  rw [Bag.ofList_of_nodup (by rw [hkeys]; exact Kind.nodup_mapNames)]
  refine ⟨hkeys, fun v hv => ?_⟩
  rw [Bag.values, List.map_snd_zip (Nat.le_of_eq (by rw [List.length_map, hlength]))] at hv
  exact hvalues v hv

theorem mapProperty_ne_unset {given : Bag} {name : String} {value : Value}
    (h : Node.mapProperty given name = .ok value) : value ≠ .unset := by
  unfold Node.mapProperty at h
  split at h
  · rename_i hgiven
    cases h
    rintro rfl
    exact absurd (Option.filter_eq_some_iff.1 hgiven).2 (by decide)
  · rename_i hdefault
    cases h
    unfold Node.mapDefault? at hdefault
    split at hdefault
    · cases hdefault
      exact nofun
    · split at hdefault
      · cases hdefault
        exact nofun
      · cases hdefault
  · cases h

theorem makes_sequence {rate : Value} {steps : List (Key × Value)} {node : Node}
    (hsteps : ∀ e ∈ steps, Node.isStep e = true)
    (h : Node.freshSequence (.ofList ((.named "rate", rate) :: steps)) = .ok node) :
    node.kind.Makes node.properties := by
  unfold Node.freshSequence at h
  split at h
  · cases h
  · rename_i hsize
    cases h
    refine ⟨Nat.le_of_not_lt hsize, Bag.nodup_keys_ofList _, rate,
      (Bag.empty.write steps).entries, ?_, fun e he => ?_⟩
    · show (Bag.write ⟨[(.named "rate", rate)]⟩ steps).entries = _
      rw [Bag.write_cons_of_ne]
      · rfl
      · intro e he hkey
        have := hsteps e he
        rw [Node.isStep, hkey] at this
        cases this
    · rcases Bag.mem_keys_write (List.mem_map_of_mem he) with hmem | hmem
      · cases hmem
      · obtain ⟨e', he', hkey⟩ := List.mem_map.1 hmem
        rw [← Kind.isStep_congr hkey]
        exact hsteps e' he'

/-- Every constructor makes a bag of its kind. -/
theorem makes {m : Maker} (hinput : m.HasInput) {node : Node} (h : m.make = .ok node) :
    node.kind.Makes node.properties := by
  cases m with
  | chain op operands => exact makes_chain h
  | function f args =>
    simp only [make, Node.function] at h
    split at h
    · rename_i hlength
      cases h
      exact makes_function hlength
    · cases h
  | applying f first second =>
    cases h
    refine makes_function ?_
    cases f <;> rfl
  | map input range =>
    cases h
    refine makes_map rfl ?_
    simp only [List.forall_mem_cons, List.not_mem_nil, false_implies, implies_true, and_true]
    exact ⟨hinput, nofun, nofun, nofun, nofun, nofun, nofun⟩
  | mapOf given =>
    simp only [make, Node.mapOf] at h
    cases hvalues : Node.mapNames.mapM (Node.mapProperty given) with
    | error e =>
      rw [hvalues] at h
      cases h
    | ok values =>
      rw [hvalues] at h
      cases h
      have heach := Task.forall₂_of_mapM hvalues
      refine makes_map heach.length_eq.symm fun v hv => ?_
      obtain ⟨name, -, hname⟩ := Bag.exists_of_forall₂ heach hv
      exact mapProperty_ne_unset hname
  | sequence steps rate =>
    refine makes_sequence (fun e he => ?_) h
    obtain ⟨p, -, rfl⟩ := List.mem_map.1 he
    rfl
  | sequenceOf given => exact makes_sequence (fun e he => (List.mem_filter.1 he).2) h

/-- What a constructor makes has the keys of a bag of its kind, also a map of nothing. -/
theorem exists_makes {m : Maker} {node : Node} (h : m.make = .ok node) :
    ∃ b, node.kind.Makes b ∧ b.keys = node.properties.keys := by
  by_cases hinput : m.HasInput
  · exact ⟨node.properties, makes hinput h, rfl⟩
  · cases m with
    | map input range =>
      cases h
      have hkeys (v : Value) : (Node.map v range).properties.keys = Node.mapNames.map .named := by
        rw [Node.map, Node.freshMap, Node.fresh, Bag.ofList_of_nodup (by exact Kind.nodup_mapNames)]
        rfl
      have hmakes := makes (m := .map (.bool false) range) nofun rfl
      exact ⟨_, hmakes, (hkeys _).trans (hkeys _).symm⟩
    | chain | function | applying | mapOf | sequence | sequenceOf => exact absurd trivial hinput

end Maker

/-- The constructor that a replica has for a kind makes a node of that kind. -/
theorem Kind.makes_constructor {k : Kind} {bag : Bag} {node : Node}
    (h : k.constructor bag = .ok node) : node.kind = k ∧ k.Makes node.properties := by
  have hmakes : ∀ m : Maker, m.HasInput → m.make = .ok node → node.kind = k →
      node.kind = k ∧ k.Makes node.properties :=
    fun m hinput hmake hkind => ⟨hkind, hkind ▸ Maker.makes hinput hmake⟩
  cases k with
  | chain op =>
    refine hmakes (.chain op bag.values) trivial h ?_
    simp only [constructor, Node.chain] at h
    split at h
    · cases h
    · cases h
      rfl
  | function f =>
    refine hmakes (.function f bag.values) trivial h ?_
    simp only [constructor, Node.function] at h
    split at h
    · cases h
      rfl
    · cases h
  | map =>
    refine hmakes (.mapOf bag) trivial h ?_
    obtain ⟨values, -, h⟩ := Task.exists_of_bind_eq_ok h
    cases h
    rfl
  | sequence =>
    refine hmakes (.sequenceOf bag) trivial h ?_
    simp only [constructor, Node.sequenceOf, Node.freshSequence] at h
    split at h
    · cases h
    · cases h
      rfl

end Patchbay
