import Patchbay.Proofs.Json.Value
import Patchbay.Relay.Wire

/-!
# Messages read back

A message whose numbers can be written (`Message.Sendable`) is the value of its JSON form. Its text
is read back if each of its numbers is by itself (`Message.NumbersReadBack`), which depends on the
way to read numbers, and if it does not nest too deep: announcements, full copies and calls stand
inside each other so often (`Message.nesting`), each of them two levels of the text deep.

* `Snapshot.ofJson?_json`, `Message.ofJson?_json`: the value of the written form;
* `Snapshot.fits_json`, `Message.fits_json`: how deep the written form nests;
* `Message.readBy_print_iff`: a message whose numbers are read back is read back itself exactly if
  it nests 63 deep at most.
-/

namespace Patchbay

namespace Snapshot

/-- All numbers in the snapshot are finite, and all node numbers are of 64 bits. -/
inductive Sendable : Snapshot → Prop
  | created {path : NamePath} {properties : List (String × Snapshot)} {id : NodeId}
    (hid : id < UInt64.size) (h : ∀ p ∈ properties, Sendable p.2) :
    Sendable (.created path properties id)
  | node {id : NodeId} {name : String} {properties : List (String × Snapshot)}
    (hid : id < UInt64.size) (h : ∀ p ∈ properties, Sendable p.2) :
    Sendable (.node id name properties)
  | reference {id : NodeId} (hid : id < UInt64.size) : Sendable (.reference id)
  | scalar {x : Float} (h : Double.isFinite x = true) : Sendable (.scalar x)
  | bool (b : Bool) : Sendable (.bool b)
  | text (t : String) : Sendable (.text t)
  | unset : Sendable .unset

mutual

/-- Decides `Sendable`. -/
def isSendable : Snapshot → Bool
  | created _ properties id => decide (id < UInt64.size) && areSendable properties
  | node id _ properties => decide (id < UInt64.size) && areSendable properties
  | reference id => decide (id < UInt64.size)
  | scalar x => Double.isFinite x
  | bool _ | text _ | unset => true

/-- Decides it of all properties. -/
def areSendable : List (String × Snapshot) → Bool
  | [] => true
  | (_, s) :: rest => isSendable s && areSendable rest

end

theorem areSendable_eq (properties : List (String × Snapshot)) :
    areSendable properties = properties.all fun p => p.2.isSendable := by
  induction properties with
  | nil => rfl
  | cons p rest ih =>
    obtain ⟨key, s⟩ := p
    rw [areSendable, ih, List.all_cons]

mutual

theorem sendable_of_isSendable : ∀ {s : Snapshot}, s.isSendable = true → s.Sendable
  | created _ _ _, h => by
    rw [isSendable, Bool.and_eq_true, decide_eq_true_eq] at h
    exact .created h.1 (sendable_of_areSendable h.2)
  | node _ _ _, h => by
    rw [isSendable, Bool.and_eq_true, decide_eq_true_eq] at h
    exact .node h.1 (sendable_of_areSendable h.2)
  | reference _, h => .reference (of_decide_eq_true h)
  | scalar _, h => .scalar h
  | bool b, _ => .bool b
  | text t, _ => .text t
  | unset, _ => .unset

theorem sendable_of_areSendable :
    ∀ {properties : List (String × Snapshot)}, areSendable properties = true →
      ∀ p ∈ properties, p.2.Sendable
  | [], _ => nofun
  | (_, _) :: _, h => by
    rw [areSendable, Bool.and_eq_true] at h
    exact List.forall_mem_cons.2 ⟨sendable_of_isSendable h.1, sendable_of_areSendable h.2⟩

end

theorem Sendable.isSendable {s : Snapshot} (h : s.Sendable) : s.isSendable = true := by
  induction h with
  | created hid _ ih =>
    rw [Snapshot.isSendable, areSendable_eq, decide_eq_true hid, List.all_eq_true.2 ih]
    rfl
  | node hid _ ih =>
    rw [Snapshot.isSendable, areSendable_eq, decide_eq_true hid, List.all_eq_true.2 ih]
    rfl
  | reference hid => exact decide_eq_true hid
  | scalar hx => exact hx
  | bool b => rfl
  | text t => rfl
  | unset => rfl

instance (s : Snapshot) : Decidable s.Sendable :=
  decidable_of_iff (s.isSendable = true) ⟨sendable_of_isSendable, Sendable.isSendable⟩

mutual

/-- The numbers in the snapshot. -/
def scalars : Snapshot → List Float
  | created _ properties _ => scalarsOf properties
  | node _ _ properties => scalarsOf properties
  | scalar x => [x]
  | reference _ | bool _ | text _ | unset => []

/-- The numbers in all of them. -/
def scalarsOf : List (String × Snapshot) → List Float
  | [] => []
  | (_, s) :: rest => scalars s ++ scalarsOf rest

end

theorem scalarsOf_eq (properties : List (String × Snapshot)) :
    scalarsOf properties = properties.flatMap fun p => p.2.scalars := by
  induction properties with
  | nil => rfl
  | cons p rest ih =>
    obtain ⟨key, s⟩ := p
    rw [scalarsOf, ih, List.flatMap_cons]

/-- The numbers of a property are among those of all properties. -/
theorem mem_scalarsOf {properties : List (String × Snapshot)} {p : String × Snapshot}
    (hp : p ∈ properties) {x : Float} (hx : x ∈ p.2.scalars) : x ∈ scalarsOf properties := by
  rw [scalarsOf_eq]
  exact List.mem_flatMap.2 ⟨p, hp, hx⟩

mutual

/-- How often announcements and full copies stand inside each other. -/
def nesting : Snapshot → Nat
  | created _ properties _ => nestingOf properties + 1
  | node _ _ properties => nestingOf properties + 1
  | reference _ | scalar _ | bool _ | text _ | unset => 0

/-- The same of the snapshot that nests deepest. -/
def nestingOf : List (String × Snapshot) → Nat
  | [] => 0
  | (_, s) :: rest => max (nesting s) (nestingOf rest)

end

theorem nestingOf_le {properties : List (String × Snapshot)} {n : Nat} :
    nestingOf properties ≤ n ↔ ∀ p ∈ properties, p.2.nesting ≤ n := by
  induction properties with
  | nil => simp [nestingOf]
  | cons p rest ih =>
    obtain ⟨key, s⟩ := p
    rw [nestingOf, Nat.max_le, ih, List.forall_mem_cons]

theorem propertiesJson_eq (properties : List (String × Snapshot)) :
    propertiesJson properties = properties.map fun p => (p.1, p.2.json) := by
  induction properties with
  | nil => rfl
  | cons p rest ih =>
    obtain ⟨key, s⟩ := p
    rw [propertiesJson, ih, List.map_cons]

/-! ## Numbers and depth of the written form -/

section

variable {P : Float → Prop}

theorem exact_nat {n : Nat} (h : n < UInt64.size) : (Json.int n).Exact P := by
  have hlt : n < 18446744073709551616 := h
  refine .int ⟨?_, ?_⟩
  · omega
  · omega

theorem exact_pathJson (path : NamePath) : (pathJson path).Exact P := by
  refine .array fun j hj => ?_
  obtain ⟨segment, -, rfl⟩ := List.mem_map.1 hj
  exact .string segment

theorem exact_properties {properties : List (String × Snapshot)}
    (h : ∀ p ∈ properties, p.2.json.Exact P) :
    (Json.object (propertiesJson properties)).Exact P := by
  refine .object fun m hm => ?_
  rw [propertiesJson_eq] at hm
  obtain ⟨p, hp, rfl⟩ := List.mem_map.1 hm
  exact h p hp

/-- What holds of all numbers in a snapshot holds of all doubles in its written form. -/
theorem Sendable.exact {s : Snapshot} (h : s.Sendable) (hP : ∀ x ∈ s.scalars, P x) :
    s.json.Exact P := by
  induction h with
  | created hid _ ih =>
    refine .object ?_
    simp only [List.forall_mem_cons, List.not_mem_nil, false_implies, implies_true, and_true]
    exact ⟨.string _, exact_pathJson _,
      exact_properties fun p hp => ih p hp fun x hx => hP x (mem_scalarsOf hp hx), exact_nat hid⟩
  | node hid _ ih =>
    refine .object ?_
    simp only [List.forall_mem_cons, List.not_mem_nil, false_implies, implies_true, and_true]
    exact ⟨exact_nat hid, .string _,
      exact_properties fun p hp => ih p hp fun x hx => hP x (mem_scalarsOf hp hx)⟩
  | reference hid =>
    refine .object ?_
    simp only [List.forall_mem_cons, List.not_mem_nil, false_implies, implies_true, and_true]
    exact exact_nat hid
  | scalar hx =>
    rw [json, scalarJson, if_pos hx]
    exact .float (hP _ List.mem_cons_self)
  | bool b => exact .bool b
  | text t => exact .string t
  | unset => exact .null

end

/-- A snapshot that can be sent has finite numbers only. -/
theorem Sendable.isFinite {s : Snapshot} (h : s.Sendable) :
    ∀ x ∈ s.scalars, Double.isFinite x = true := by
  have hproperties {properties : List (String × Snapshot)}
      (ih : ∀ p ∈ properties, ∀ x ∈ p.2.scalars, Double.isFinite x = true) :
      ∀ x ∈ scalarsOf properties, Double.isFinite x = true := by
    intro x hx
    rw [scalarsOf_eq] at hx
    obtain ⟨p, hp, hx⟩ := List.mem_flatMap.1 hx
    exact ih p hp x hx
  induction h with
  | created _ _ ih => exact hproperties ih
  | node _ _ ih => exact hproperties ih
  | scalar h => exact List.forall_mem_singleton.2 h
  | reference | bool | text | unset => exact nofun

theorem fits_idJson (id : NodeId) (levels : Nat) : (idJson id).fits levels = true :=
  Json.fits_int id levels

theorem fits_pathJson (path : NamePath) (levels : Nat) :
    (pathJson path).fits (levels + 1) = true := by
  refine List.all_eq_true.2 fun j hj => ?_
  obtain ⟨segment, -, rfl⟩ := List.mem_map.1 hj
  exact Json.fits_string segment levels

theorem all_fits_properties (properties : List (String × Snapshot)) (levels : Nat) :
    ((propertiesJson properties).all fun m => m.2.fits levels) =
      properties.all fun p => p.2.json.fits levels := by
  rw [propertiesJson_eq, List.all_map]
  rfl

theorem fits_createJson (path : NamePath) (properties : List (String × Snapshot)) (id : NodeId)
    (levels : Nat) :
    (createJson path (propertiesJson properties) id).fits (levels + 2) =
      properties.all fun p => p.2.json.fits levels := by
  rw [← all_fits_properties]
  simp only [createJson, Json.fits, List.all_cons, List.all_nil, fits_pathJson, fits_idJson,
    Bool.true_and, Bool.and_true]

theorem fits_nodeJson (id : NodeId) (name : String) (properties : List (String × Snapshot))
    (levels : Nat) :
    (nodeJson id name (propertiesJson properties)).fits (levels + 2) =
      properties.all fun p => p.2.json.fits levels := by
  rw [← all_fits_properties]
  simp only [nodeJson, Json.fits, List.all_cons, List.all_nil, fits_idJson, Bool.true_and,
    Bool.and_true]

theorem fits_scalarJson (x : Float) (levels : Nat) : (scalarJson x).fits levels = true := by
  unfold scalarJson
  split
  · exact Json.fits_float x levels
  · exact Json.fits_null levels

theorem all_nesting_le (properties : List (String × Snapshot)) (n : Nat) :
    (properties.all fun p => decide (p.2.nesting ≤ n)) =
      decide (nestingOf properties + 1 ≤ n + 1) := by
  rw [Bool.eq_iff_iff, List.all_eq_true, decide_eq_true_eq, Nat.add_le_add_iff_right, nestingOf_le]
  simp only [decide_eq_true_eq]

/-- An announcement or a full copy takes two levels of the text. -/
theorem fits_json (s : Snapshot) (n : Nat) :
    s.json.fits (2 * n + 1) = decide (s.nesting ≤ n) := by
  induction n generalizing s with
  | zero =>
    cases s with
    | created path properties id => rfl
    | node id name properties => rfl
    | reference id => rfl
    | scalar x => exact fits_scalarJson x 1
    | bool b => rfl
    | text t => rfl
    | unset => rfl
  | succ n ih =>
    cases s with
    | created path properties id =>
      show (createJson path (propertiesJson properties) id).fits (2 * n + 1 + 2) = _
      rw [fits_createJson, nesting, ← all_nesting_le]
      simp only [ih]
    | node id name properties =>
      show (nodeJson id name (propertiesJson properties)).fits (2 * n + 1 + 2) = _
      rw [fits_nodeJson, nesting, ← all_nesting_le]
      simp only [ih]
    | reference id => rfl
    | scalar x => exact fits_scalarJson x _
    | bool b => rfl
    | text t => rfl
    | unset => rfl

/-! ## The value of the written form -/

theorem word?_nat {n : Nat} (h : n < UInt64.size) : (Json.int n).word? = some n := by
  have hlt : n < 18446744073709551616 := h
  rw [Json.word?, if_pos (by omega), Int.toNat_natCast]

/-- A list is read item by item, if each item is. -/
theorem mapM_map_eq_some {α β : Type} {write : α → β} {read : β → Option α} {as : List α}
    (h : ∀ a ∈ as, read (write a) = some a) : (as.map write).mapM read = some as := by
  induction as with
  | nil => rfl
  | cons a as ih =>
    rw [List.map_cons, List.mapM_cons, h a List.mem_cons_self,
      ih fun b hb => h b (List.mem_cons_of_mem a hb)]
    rfl

theorem strings?_pathJson (path : NamePath) : (pathJson path).strings? = some path :=
  mapM_map_eq_some fun _ _ => rfl

theorem ofEach?_propertiesJson {properties : List (String × Snapshot)}
    (h : ∀ p ∈ properties, ofJson? p.2.json = some p.2) :
    ofEach? (propertiesJson properties) = some properties := by
  induction properties with
  | nil => rfl
  | cons p rest ih =>
    obtain ⟨key, s⟩ := p
    rw [propertiesJson, ofEach?, h (key, s) List.mem_cons_self,
      ih fun q hq => h q (List.mem_cons_of_mem _ hq)]

variable {j path' : Json} {members : List (String × Json)} {properties : List (String × Snapshot)}
  {id : NodeId}

theorem ofJson?_created {path : NamePath} (hpath : path'.strings? = some path)
    (hproperties : ofEach? members = some properties) (hid : j.word? = some id) :
    ofJson? (.object [("address", .string "add"), ("name", path'), ("properties", .object members),
      ("id", j)]) = some (created path properties id) := by
  simp [ofJson?, ofMembers?, beside?, membersAsProperties, asProperties?, Json.field?, createdOf?,
    Json.isTag, hpath, hproperties, hid]

theorem ofJson?_node {name : String} (hproperties : ofEach? members = some properties)
    (hid : j.word? = some id) :
    ofJson? (.object [("id", j), ("name", .string name), ("properties", .object members)]) =
      some (node id name properties) := by
  simp [ofJson?, ofMembers?, beside?, membersAsProperties, asProperties?, Json.field?, Json.string?,
    hproperties, hid]

theorem ofJson?_reference (hid : j.word? = some id) :
    ofJson? (.object [("id", j)]) = some (reference id) := by
  simp [ofJson?, ofMembers?, membersAsProperties, Json.field?, hid]

/-- A snapshot is the value of its written form. -/
theorem ofJson?_json {s : Snapshot} (h : s.Sendable) : ofJson? s.json = some s := by
  induction h with
  | @created path _ _ hid _ ih =>
    exact ofJson?_created (strings?_pathJson path) (ofEach?_propertiesJson ih) (word?_nat hid)
  | node hid _ ih => exact ofJson?_node (ofEach?_propertiesJson ih) (word?_nat hid)
  | reference hid => exact ofJson?_reference (word?_nat hid)
  | scalar hx =>
    rw [json, scalarJson, if_pos hx]
    rfl
  | bool b => rfl
  | text t => rfl
  | unset => rfl

end Snapshot

namespace Message

/-- All numbers in the message are finite, and all node numbers are of 64 bits. -/
def Sendable : Message → Prop
  | create c => (Snapshot.ofCreate c).Sendable
  | call c => c.object < UInt64.size ∧ ∀ s ∈ c.args, s.Sendable

instance : (m : Message) → Decidable m.Sendable
  | create c => inferInstanceAs (Decidable (Snapshot.ofCreate c).Sendable)
  | call c => inferInstanceAs (Decidable (c.object < UInt64.size ∧ ∀ s ∈ c.args, s.Sendable))

/-- How often calls, announcements and full copies stand inside each other. -/
def nesting : Message → Nat
  | create c => (Snapshot.ofCreate c).nesting
  | call c => c.args.foldr (fun s n => max s.nesting n) 0 + 1

theorem foldr_nesting_le {args : List Snapshot} {n : Nat} :
    args.foldr (fun s n => max s.nesting n) 0 ≤ n ↔ ∀ s ∈ args, s.nesting ≤ n := by
  induction args with
  | nil => simp
  | cons s rest ih => rw [List.foldr_cons, Nat.max_le, ih, List.forall_mem_cons]

/-- The numbers in the message. -/
def scalars : Message → List Float
  | create c => (Snapshot.ofCreate c).scalars
  | call c => c.args.flatMap Snapshot.scalars

/-- Each number in the message is read back from what is written for it. -/
def NumbersReadBack (numerals : Numerals) (m : Message) : Prop :=
  ∀ x ∈ m.scalars, numerals.ReadsBack x

instance (numerals : Numerals) (m : Message) : Decidable (m.NumbersReadBack numerals) :=
  inferInstanceAs (Decidable (∀ x ∈ m.scalars, numerals.ReadsBack x))

theorem Sendable.exact {P : Float → Prop} {m : Message} (h : m.Sendable)
    (hP : ∀ x ∈ m.scalars, P x) : m.json.Exact P := by
  cases m with
  | create c => exact Snapshot.Sendable.exact h hP
  | call c =>
    refine .object ?_
    simp only [List.forall_mem_cons, List.not_mem_nil, false_implies, implies_true, and_true]
    refine ⟨.string _, Snapshot.exact_nat h.1, .string _, .array fun j hj => ?_⟩
    obtain ⟨s, hs, rfl⟩ := List.mem_map.1 hj
    exact (h.2 s hs).exact fun x hx => hP x (List.mem_flatMap.2 ⟨s, hs, hx⟩)

theorem Sendable.isFinite {m : Message} (h : m.Sendable) :
    ∀ x ∈ m.scalars, Double.isFinite x = true := by
  cases m with
  | create c => exact Snapshot.Sendable.isFinite h
  | call c =>
    intro x hx
    obtain ⟨s, hs, hx⟩ := List.mem_flatMap.1 hx
    exact (h.2 s hs).isFinite x hx

/-- If numbers are rounded once, this is so of all messages that can be sent. -/
theorem Sendable.numbersReadBack {m : Message} (h : m.Sendable) : m.NumbersReadBack .exact :=
  fun x hx => Numerals.readsBack_exact (h.isFinite x hx)

/-- A call takes two levels of the text too. -/
theorem fits_json (m : Message) (n : Nat) : m.json.fits (2 * n + 1) = decide (m.nesting ≤ n) := by
  cases m with
  | create c => exact Snapshot.fits_json _ n
  | call c =>
    cases n with
    | zero => rfl
    | succ n =>
      have hargs : (Json.array (c.args.map Snapshot.json)).fits (2 * n + 1 + 1) =
          decide ((call c).nesting ≤ n + 1) := by
        rw [Json.fits, List.all_map, nesting, Bool.eq_iff_iff, List.all_eq_true, decide_eq_true_eq,
          Nat.add_le_add_iff_right, foldr_nesting_le]
        simp only [Function.comp_apply, Snapshot.fits_json, decide_eq_true_eq]
      have hobject : (idJson c.object).fits (2 * n + 1 + 1) = true := Snapshot.fits_idJson _ _
      show (Json.object _).fits (2 * n + 1 + 2) = _
      simp only [Json.fits, List.all_cons, List.all_nil, hobject, Bool.true_and, Bool.and_true]
      exact hargs

/-- A call is no announcement. -/
theorem createOfJson?_call (object args : Json) (name : String) :
    Create.ofJson? (.object [("address", .string "method"), ("object", object),
      ("name", .string name), ("args", args)]) = none := by
  simp [Create.ofJson?, Snapshot.ofJson?, Snapshot.ofMembers?, Snapshot.membersAsProperties,
    Json.field?]

theorem callOfJson?_call {object : Json} {items : List Json} {c : Call}
    (hobject : object.word? = some c.object) (hargs : items.mapM Snapshot.ofJson? = some c.args) :
    Call.ofJson? (.object [("address", .string "method"), ("object", object),
      ("name", .string c.method), ("args", .array items)]) = some c := by
  simp [Call.ofJson?, Call.ofParts?, Json.field?, Json.isTag, Json.string?, hobject, hargs]

/-- A message is the value of its written form. -/
theorem ofJson?_json {m : Message} (h : m.Sendable) : ofJson? m.json = some m := by
  cases m with
  | create c =>
    have hc : Create.ofJson? c.json = some c := by
      rw [Create.ofJson?, Create.json, Snapshot.ofJson?_json h]
      rfl
    rw [ofJson?, json, hc]
    rfl
  | call c =>
    have hargs : (c.args.map Snapshot.json).mapM Snapshot.ofJson? = some c.args :=
      Snapshot.mapM_map_eq_some fun s hs => Snapshot.ofJson?_json (h.2 s hs)
    have hobject : (idJson c.object).word? = some c.object := Snapshot.word?_nat h.1
    rw [ofJson?, json, createOfJson?_call, callOfJson?_call hobject hargs]
    rfl

/-- A message whose numbers are read back is read back from its text exactly if it nests 63 deep at
most. A text may nest 127 deep, and each call, announcement and full copy takes two levels. -/
theorem readBy_print_iff {numerals : Numerals} {m : Message} (h : m.Sendable)
    (hnumbers : m.NumbersReadBack numerals) :
    readBy numerals m.print = .ok m ↔ m.nesting ≤ 63 := by
  have hfront : Json.front? numerals m.print =
      if m.json.fits 127 then some (m.json, []) else none := Json.front?_print (h.exact hnumbers)
  rw [fits_json m 63] at hfront
  rw [readBy, readWith, hfront]
  by_cases hn : m.nesting ≤ 63
  · simp only [hn, decide_true, if_true, ofJson?_json h, iff_true]
    rfl
  · simp only [hn, decide_false, iff_false]
    exact nofun

end Message

end Patchbay
