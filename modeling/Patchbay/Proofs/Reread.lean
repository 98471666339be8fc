import Patchbay.Proofs.Bag
import Patchbay.Proofs.Double.Finite
import Patchbay.Proofs.Json.Taken
import Patchbay.Proofs.Task
import Patchbay.Proofs.Wire

/-!
# Messages written anew

A message can be read from many texts: its members may stand in any order or in an array, numbers
may be written as integers, and members that mean nothing may stand between. Its own text is one of
them, and nests no deeper than any other: what was left out need not be written, and an object takes
no more levels than the array that it replaces.

* `Snapshot.writable_of_ofJson?`, `Message.writable_of_ofJson?`: what was read can be written, and
  nests no deeper than the value that it was read from;
* `Message.read_print`: a message is read back from its own text, and every message that was read
  from some text is such a message.
-/

namespace Patchbay

/-! ## JSON values -/

namespace Json

variable {j : Json} {members : List (String × Json)} {items : List Json} {levels : Nat}

/-- What can be written, nesting so many levels deep at most. -/
def Writable (levels : Nat) (j : Json) : Prop := j.Finite ∧ j.fits levels = true

theorem writable_items (h : (array items).Writable levels) :
    ∃ k, levels = k + 1 ∧ ∀ j ∈ items, j.Writable k := by
  obtain ⟨hexact, hfits⟩ := h
  cases levels with
  | zero => cases hfits
  | succ k =>
    cases hexact with
    | array hitems => exact ⟨k, rfl, fun j hj => ⟨hitems j hj, List.all_eq_true.1 hfits j hj⟩⟩

theorem writable_members (h : (object members).Writable levels) :
    ∃ k, levels = k + 1 ∧ ∀ m ∈ members, m.2.Writable k := by
  obtain ⟨hexact, hfits⟩ := h
  cases levels with
  | zero => cases hfits
  | succ k =>
    cases hexact with
    | object hmembers => exact ⟨k, rfl, fun m hm => ⟨hmembers m hm, List.all_eq_true.1 hfits m hm⟩⟩

theorem mem_of_field? {key : String} (h : field? members key = some j) :
    ∃ m ∈ members, m.2 = j := by
  unfold field? at h
  split at h
  · rename_i key' value heq
    cases h
    have hmem : (key', j) ∈ members.filter (·.1 = key) := heq ▸ List.mem_singleton_self _
    exact ⟨_, (List.mem_filter.1 hmem).1, rfl⟩
  · cases h

theorem word?_lt {n : Nat} (h : j.word? = some n) : n < UInt64.size := by
  cases j with
  | int i =>
    rw [word?] at h
    split at h
    · cases h
      show i.toNat < 18446744073709551616
      omega
    · cases h
  | null | bool | float | string | array | object => cases h

end Json

namespace Snapshot

variable {j : Json} {s : Snapshot} {members : List (String × Json)}
  {properties : List (String × Snapshot)} {levels : Nat}

/-- A snapshot that can be sent, and whose text nests so many levels deep at most. -/
def Writable (levels : Nat) (s : Snapshot) : Prop := s.Sendable ∧ s.json.fits levels = true

/-- Properties that can be sent, and nest so many levels deep at most as one object. -/
def AllWritable (levels : Nat) (properties : List (String × Snapshot)) : Prop :=
  (∀ p ∈ properties, p.2.Sendable) ∧ (Json.object (propertiesJson properties)).fits levels = true

theorem allWritable_of_forall (h : ∀ p ∈ properties, p.2.Writable levels) :
    AllWritable (levels + 1) properties := by
  refine ⟨fun p hp => (h p hp).1, ?_⟩
  rw [Json.fits, all_fits_properties]
  exact List.all_eq_true.2 fun p hp => (h p hp).2

/-! ## Shapes -/

theorem mem_of_ofEach? (h : ofEach? members = some properties) :
    ∀ p ∈ properties, ∃ m ∈ members, ofJson? m.2 = some p.2 := by
  induction members generalizing properties with
  | nil =>
    cases h
    exact fun p hp => absurd hp List.not_mem_nil
  | cons m rest ih =>
    obtain ⟨key, j⟩ := m
    rw [ofEach?] at h
    split at h
    · rename_i s ss hs hss
      cases h
      refine List.forall_mem_cons.2 ⟨⟨(key, j), List.mem_cons_self, hs⟩, fun p hp => ?_⟩
      obtain ⟨m, hm, hp⟩ := ih hss p hp
      exact ⟨m, List.mem_cons_of_mem _ hm, hp⟩
    · cases h

theorem membersAsProperties_eq (members : List (String × Json)) :
    membersAsProperties members = members.map fun m => asProperties? m.2 := by
  induction members with
  | nil => rfl
  | cons m rest ih =>
    obtain ⟨key, j⟩ := m
    rw [membersAsProperties, ih, List.map_cons]

theorem mem_of_beside? {key : String} {found : Option (List (String × Snapshot))}
    (h : beside? members (membersAsProperties members) key = some found) :
    ∃ m ∈ members, asProperties? m.2 = found := by
  unfold beside? at h
  split at h
  · rename_i m found' heq
    cases h
    have hmem : (m, found) ∈ (members.zip (membersAsProperties members)).filter (·.1.1 = key) :=
      heq ▸ List.mem_singleton_self _
    have hzip := (List.mem_filter.1 hmem).1
    rw [membersAsProperties_eq, ← List.map_prod_left_eq_zip, List.mem_map] at hzip
    obtain ⟨m', hm', heq⟩ := hzip
    cases heq
    exact ⟨m, hm', rfl⟩
  · cases h

theorem eq_of_createdOf? {address path id : Json} {found : Option (List (String × Snapshot))}
    (h : createdOf? address path found id = some s) :
    ∃ segments properties number, path.strings? = some segments ∧ found = some properties ∧
      id.word? = some number ∧ s = created segments properties number := by
  simp only [createdOf?, Option.bind_eq_bind, Option.bind_eq_some_iff] at h
  obtain ⟨-, -, segments, hpath, properties, hfound, number, hid, heq⟩ := h
  exact ⟨segments, properties, number, hpath, hfound, hid, (Option.some.inj heq).symm⟩

/-- The shape that an array can have. -/
theorem shape_of_array {items : List Json} (h : ofJson? (.array items) = some s) :
    ∃ address path found id, items = [address, path, found, id] ∧
      createdOf? address path (asProperties? found) id = some s := by
  match items, h with
  | [address, path, found, id], h => exact ⟨address, path, found, id, rfl, h⟩

/-- The shapes that an object can have. -/
theorem shapes_of_ofMembers? {besides : List (Option (List (String × Snapshot)))}
    (h : ofMembers? members besides = some s) :
    (∃ address path id, Json.field? members "name" = some path ∧
      createdOf? address path (beside? members besides "properties").join id = some s) ∨
    (∃ (id : Json) (number : Nat) (name : String) (properties : List (String × Snapshot)),
      id.word? = some number ∧ (beside? members besides "properties").join = some properties ∧
        s = node number name properties) ∨
    ∃ (id : Json) (number : Nat), id.word? = some number ∧ s = reference number := by
  simp only [ofMembers?, Option.orElse_eq_orElse, Option.orElse_eq_or, Option.or_eq_some_iff,
    Option.bind_eq_bind, Option.bind_eq_some_iff, Option.map_eq_some_iff] at h
  rcases h with ⟨address, -, path, hpath, id, -, h⟩ |
    ⟨-, ⟨number, ⟨id, -, hid⟩, name, -, properties, hproperties, h⟩ |
      ⟨-, number, ⟨id, -, hid⟩, h⟩⟩
  · exact .inl ⟨address, path, id, hpath, h⟩
  · exact .inr (.inl ⟨id, number, name, properties, hid, hproperties, (Option.some.inj h).symm⟩)
  · exact .inr (.inr ⟨id, number, hid, h.symm⟩)

/-! ## Snapshots -/

theorem writable_created {address path id : Json} {found : Option (List (String × Snapshot))}
    (hpath : path.Writable levels)
    (hfound : ∀ properties, found = some properties → AllWritable levels properties)
    (h : createdOf? address path found id = some s) : s.Writable (levels + 1) := by
  obtain ⟨segments, properties, number, hsegments, hproperties, hid, rfl⟩ := eq_of_createdOf? h
  obtain ⟨hsendable, hfits⟩ := hfound properties hproperties
  refine ⟨.created (Json.word?_lt hid) hsendable, ?_⟩
  cases path with
  | array items =>
    obtain ⟨k, rfl, -⟩ := Json.writable_items hpath
    show (Json.object _).fits (k + 1 + 1) = true
    simp only [Json.fits, List.all_cons, List.all_nil, fits_pathJson, fits_idJson, Bool.true_and,
      Bool.and_true]
    exact hfits
  | null | bool | int | float | string | object => cases hsegments

theorem writable_node {number : Nat} (name : String) (hid : number < UInt64.size)
    (hproperties : AllWritable levels properties) :
    (node number name properties).Writable (levels + 1) := by
  refine ⟨.node hid hproperties.1, ?_⟩
  show (Json.object _).fits (levels + 1) = true
  simp only [Json.fits, List.all_cons, List.all_nil, fits_idJson, Json.fits_string, Bool.true_and,
    Bool.and_true]
  exact hproperties.2

theorem writable_reference {number : Nat} (hid : number < UInt64.size) (levels : Nat) :
    (reference number).Writable (levels + 1) := by
  refine ⟨.reference hid, ?_⟩
  show (Json.object _).fits (levels + 1) = true
  simp only [Json.fits, List.all_cons, List.all_nil, fits_idJson, Bool.and_true]

section

variable {items : List Json}
  (hproperties : ∀ j properties, j.Writable levels → asProperties? j = some properties →
    AllWritable levels properties)

include hproperties

theorem writable_of_array (hitems : ∀ j ∈ items, j.Writable levels)
    (h : ofJson? (.array items) = some s) : s.Writable (levels + 1) := by
  obtain ⟨address, path, found, id, rfl, h⟩ := shape_of_array h
  simp only [List.forall_mem_cons] at hitems
  exact writable_created hitems.2.1 (fun _ => hproperties found _ hitems.2.2.1) h

theorem writable_of_object (hmembers : ∀ m ∈ members, m.2.Writable levels)
    (h : ofMembers? members (membersAsProperties members) = some s) :
    s.Writable (levels + 1) := by
  have hfound (properties : List (String × Snapshot))
      (h : (beside? members (membersAsProperties members) "properties").join =
        some properties) : AllWritable levels properties := by
    obtain ⟨m, hm, hm'⟩ := mem_of_beside? (Option.join_eq_some_iff.1 h)
    exact hproperties m.2 properties (hmembers m hm) hm'
  rcases shapes_of_ofMembers? h with ⟨address, path, id, hpath, h⟩ |
    ⟨id, number, name, properties, hid, hjoin, rfl⟩ | ⟨id, number, hid, rfl⟩
  · obtain ⟨m, hm, rfl⟩ := Json.mem_of_field? hpath
    exact writable_created (hmembers m hm) hfound h
  · exact writable_node name (Json.word?_lt hid) (hfound properties hjoin)
  · exact writable_reference (Json.word?_lt hid) levels

end

/-- What was read from a value can be written, and nests no deeper than the value. -/
theorem writable_of_ofJson? (hj : j.Writable levels) (h : ofJson? j = some s) :
    s.Writable levels := by
  -- Two levels of the text lie between a snapshot and those in its properties.
  induction levels using Nat.strong_induction_on generalizing j s with
  | _ levels ih =>
    have hproperties (k : Nat) (hk : k < levels) (j : Json) (properties : List (String × Snapshot))
        (hj : j.Writable k) (h : asProperties? j = some properties) :
        AllWritable k properties := by
      cases j with
      | object members =>
        obtain ⟨k, rfl, hmembers⟩ := Json.writable_members hj
        refine allWritable_of_forall fun p hp => ?_
        obtain ⟨m, hm, hp⟩ := mem_of_ofEach? h p hp
        exact ih k (Nat.lt_of_succ_lt hk) (hmembers m hm) hp
      | null | bool | int | float | string | array => cases h
    cases j with
    | null =>
      cases h
      exact ⟨.unset, Json.fits_null levels⟩
    | bool b =>
      cases h
      exact ⟨.bool b, Json.fits_bool b levels⟩
    | int i =>
      cases h
      cases hj.1 with
      | int hi =>
        obtain ⟨hlow, hhigh⟩ := hi
        exact ⟨.scalar (Double.isFinite_ofInt (by omega)), fits_scalarJson _ levels⟩
    | float x =>
      cases h
      cases hj.1 with
      | float hx => exact ⟨.scalar hx, fits_scalarJson x levels⟩
    | string t =>
      cases h
      exact ⟨.text t, Json.fits_string t levels⟩
    | array items =>
      obtain ⟨k, rfl, hitems⟩ := Json.writable_items hj
      exact writable_of_array (hproperties k (Nat.lt_succ_self k)) hitems h
    | object members =>
      obtain ⟨k, rfl, hmembers⟩ := Json.writable_members hj
      exact writable_of_object (hproperties k (Nat.lt_succ_self k)) hmembers h

end Snapshot

/-! ## Messages -/

/-- The parts of a call that was read from an array. -/
theorem Call.parts_of_array {items : List Json} {c : Call} (h : ofJson? (.array items) = some c) :
    ∃ address object method args, items = [address, object, method, args] ∧
      ofParts? address object method args = some c := by
  unfold ofJson? at h
  split at h
  · rename_i address object method args heq
    cases heq
    exact ⟨address, object, method, args, rfl, h⟩
  · rename_i heq
    cases heq
  · cases h

namespace Message

variable {j : Json} {m : Message} {levels : Nat}

/-- A message that can be sent, and whose text nests so many levels deep at most. -/
def Writable (levels : Nat) (m : Message) : Prop := m.Sendable ∧ m.json.fits levels = true

theorem writable_create {c : Create} (hj : j.Writable levels) (h : Create.ofJson? j = some c) :
    (create c).Writable levels := by
  unfold Create.ofJson? at h
  split at h
  · rename_i hs
    cases h
    exact Snapshot.writable_of_ofJson? hj hs
  · cases h

theorem writable_call {address object method args : Json} {c : Call} (hargs : args.Writable levels)
    (h : Call.ofParts? address object method args = some c) :
    (call c).Writable (levels + 1) := by
  cases args with
  | array items =>
    obtain ⟨k, rfl, hitems⟩ := Json.writable_items hargs
    simp only [Call.ofParts?, Option.bind_eq_bind, Option.bind_eq_some_iff] at h
    obtain ⟨-, -, number, hobject, name, -, snapshots, hsnapshots, heq⟩ := h
    cases heq
    have heach (s : Snapshot) (hs : s ∈ snapshots) : s.Writable k := by
      obtain ⟨item, hitem, hread⟩ :=
        Bag.exists_of_forall₂ (Task.mapM_eq_some_iff.1 hsnapshots) hs
      exact Snapshot.writable_of_ofJson? (hitems item hitem) hread
    have hfits : (Json.array (snapshots.map Snapshot.json)).fits (k + 1) = true := by
      rw [Json.fits, List.all_map]
      exact List.all_eq_true.2 fun s hs => (heach s hs).2
    refine ⟨⟨Json.word?_lt hobject, fun s hs => (heach s hs).1⟩, ?_⟩
    show (Json.object _).fits (k + 1 + 1) = true
    rw [Json.fits]
    simp only [List.all_cons, List.all_nil, Snapshot.fits_idJson, Json.fits_string, Bool.true_and,
      Bool.and_true]
    exact hfits
  | null | bool | int | float | string | object =>
    simp only [Call.ofParts?, Option.bind_eq_bind, Option.bind_eq_some_iff] at h
    obtain ⟨-, -, h⟩ := h
    cases h

/-- What was read from a value can be written, and nests no deeper than the value. -/
theorem writable_of_ofJson? (hj : j.Writable levels) (h : ofJson? j = some m) :
    m.Writable levels := by
  simp only [ofJson?, Option.orElse_eq_orElse, Option.orElse_eq_or, Option.or_eq_some_iff,
    Option.map_eq_some_iff] at h
  rcases h with ⟨c, hc, rfl⟩ | ⟨-, c, hc, rfl⟩
  · exact writable_create hj hc
  · cases j with
    | array items =>
      obtain ⟨k, rfl, hitems⟩ := Json.writable_items hj
      obtain ⟨address, object, method, args, rfl, hc⟩ := Call.parts_of_array hc
      simp only [List.forall_mem_cons] at hitems
      exact writable_call hitems.2.2.2.1 hc
    | object members =>
      obtain ⟨k, rfl, hmembers⟩ := Json.writable_members hj
      simp only [Call.ofJson?, Option.bind_eq_bind, Option.bind_eq_some_iff] at hc
      obtain ⟨address, -, object, -, method, -, args, hargs, hc⟩ := hc
      obtain ⟨member, hmember, rfl⟩ := Json.mem_of_field? hargs
      exact writable_call (hmembers member hmember) hc
    | null | bool | int | float | string => cases hc

variable {numerals : Numerals}

/-- A message that was read from a text is the one that the value at its front stands for. -/
theorem writable_of_readBy {text : String} (h : readBy numerals text = .ok m) :
    m.Writable Json.maxLevels := by
  unfold readBy readWith at h
  split at h
  · cases h
  · rename_i j rest hfront
    split at h
    · cases h
    · rename_i m' hm
      split at h
      · cases h
        exact writable_of_ofJson? (Json.finite_of_front? hfront) hm
      · cases h

theorem readBy_of_writable (h : m.Writable Json.maxLevels)
    (hnumbers : m.NumbersReadBack numerals) : readBy numerals m.print = .ok m := by
  have hfront : Json.front? numerals m.print = some (m.json, []) := by
    rw [print, Json.front?_print (h.1.exact hnumbers), if_pos h.2]
  rw [readBy, readWith, hfront]
  simp only [ofJson?_json h.1]
  rfl

/-- A reader that rounds numbers once reads back whatever can be sent. -/
theorem readBy_exact_print (h : m.Writable Json.maxLevels) : readBy .exact m.print = .ok m :=
  readBy_of_writable h (Sendable.numbersReadBack h.1)

/-- **Messages survive being written.** Numbers may be read in any way. A message that can be sent,
whose numbers are read back, and whose text nests 127 deep at most, is read back from its text.
Every message that was read from any text can be sent, and its text nests no deeper, so that this
text is accepted again and stands for the same message, if its numbers are read back. -/
theorem read_print (numerals : Numerals) :
    (∀ m : Message, m.Sendable → m.NumbersReadBack numerals →
        m.json.fits Json.maxLevels = true → readBy numerals m.print = .ok m) ∧
      ∀ (text : String) (m : Message), readBy numerals text = .ok m →
        m.Sendable ∧ m.json.fits Json.maxLevels = true ∧
          (m.NumbersReadBack numerals → readBy numerals m.print = .ok m) := by
  refine ⟨fun m hm hnumbers hfits => readBy_of_writable ⟨hm, hfits⟩ hnumbers, fun text m h => ?_⟩
  have hwritable := writable_of_readBy h
  exact ⟨hwritable.1, hwritable.2, readBy_of_writable hwritable⟩

/-- An announcement inside another. -/
def nested : Message :=
  .create ⟨["Abs"], [("0", .created ["Abs"] [("0", .scalar 1.0)] 1)], 2⟩

/-- The same as arrays, with an integer for the number. -/
def nestedArrays : String :=
  "[\"add\", [\"Abs\"], \x7b\"0\": [\"add\", [\"Abs\"], \x7b\"0\": 1\x7d, 1]\x7d, 2]"

/-- Both texts are read, and written alike. -/
theorem read_print_nested : nested.NumbersReadBack .scaled ∧ read nested.print = .ok nested ∧
    ∃ m, read nestedArrays = .ok m ∧ m.print = nested.print ∧ read m.print = .ok m := by
  have hnumbers : nested.NumbersReadBack .scaled := by decide +kernel
  refine ⟨hnumbers, (read_print .scaled).1 nested (by decide +kernel) hnumbers
    (by decide +kernel), ?_⟩
  have hsome : (read nestedArrays).isOk = true := by decide +kernel
  have hmessage : ∀ m ∈ (read nestedArrays).toOption,
      m.print = nested.print ∧ m.NumbersReadBack .scaled := by decide +kernel
  cases hread : read nestedArrays with
  | error e =>
    rw [hread] at hsome
    cases hsome
  | ok m =>
    rw [hread] at hmessage
    obtain ⟨hprint, hm⟩ := hmessage m rfl
    exact ⟨m, rfl, hprint, ((read_print .scaled).2 nestedArrays m hread).2.2 hm⟩

end Message

end Patchbay
