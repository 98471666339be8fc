import Patchbay.Proofs.Edit

/-!
# Bags as maps in the order of insertion

A bag is made from nothing, or from values at positions, and written to. The list of all entries
that it has been given says what it is:

* `Bag.keys_write`: its keys stand in the order in which they were first written;
* `Bag.get?_write`: under each key it has what was written last;
* `Bag.IsMapOf`: both, with the look-up of names and what one more write does;
* `Maker.exists_write`: each constructor makes its properties so;
* `Store.get?_callAll`: calls write to the properties of a node what its calls of `set` name,
  whatever is called besides;
* `Bag.insertion_ordered`: so all bags are such maps, those of nodes of every kind among them.
-/

namespace Patchbay

namespace Bag

variable {b start : Bag} {key : Key}

/-! ## Writes in a row -/

theorem write_append (b : Bag) (first second : List (Key × Value)) :
    b.write (first ++ second) = (b.write first).write second := List.foldl_append

theorem get?_eq_lookup (b : Bag) (key : Key) : b.get? key = b.entries.lookup key := by
  obtain ⟨es⟩ := b
  simp only [get?]
  induction es with
  | nil => rfl
  | cons e es ih =>
    obtain ⟨k, v⟩ := e
    by_cases h : k = key
    · subst h
      simp
    · rw [List.find?_cons_of_neg (by simpa using h), List.lookup_cons, ih,
        beq_false_of_ne (Ne.symm h)]

/-- What a bag holds after some writes: what was written last, and without any what it held. -/
theorem get?_write (b : Bag) (writes : List (Key × Value)) (key : Key) :
    (b.write writes).get? key = (writes.reverse.lookup key).or (b.get? key) := by
  induction writes generalizing b with
  | nil => rfl
  | cons e writes ih =>
    rw [write_cons, ih, List.reverse_cons, List.lookup_append, Option.or_assoc]
    congr 1
    by_cases h : key = e.1
    · subst h
      rw [get?_set_self, List.lookup_cons, beq_self_eq_true]
      rfl
    · rw [get?_set_of_ne b h, List.lookup_cons, beq_false_of_ne h]
      rfl

/-- What stands once is found from either end. -/
theorem lookup_reverse_of_nodup {es : List (Key × Value)} (h : (es.map Prod.fst).Nodup)
    (key : Key) : es.reverse.lookup key = es.lookup key := by
  have hwrite := get?_write .empty es key
  rw [show empty.write es = ⟨es⟩ from ofList_of_nodup h, get?_eq_lookup] at hwrite
  exact (Option.or_none.symm.trans hwrite.symm)

theorem eraseDups_of_nodup {keys : List Key} (h : keys.Nodup) : keys.eraseDups = keys := by
  induction keys with
  | nil => rfl
  | cons key keys ih =>
    obtain ⟨hnot, hkeys⟩ := List.nodup_cons.1 h
    have hkept : keys.filter (fun other => !other == key) = keys := by
      rw [List.filter_eq_self]
      intro other hother
      simpa using fun heq : other = key => hnot (heq ▸ hother)
    rw [List.eraseDups_cons, hkept, ih hkeys]

/-- A key that has come before does not count. -/
theorem eraseDups_append_cons_of_mem {keys : List Key} (h : key ∈ keys) (rest : List Key) :
    (keys ++ key :: rest).eraseDups = (keys ++ rest).eraseDups := by
  have hremoved : (key :: rest).removeAll keys = rest.removeAll keys := by
    simp [List.removeAll, h]
  rw [List.eraseDups_append, List.eraseDups_append, hremoved]

/-- The keys after some writes: those of before and those written, each where it comes first. -/
theorem keys_write (h : b.keys.Nodup) (writes : List (Key × Value)) :
    (b.write writes).keys = (b.keys ++ writes.map Prod.fst).eraseDups := by
  induction writes generalizing b with
  | nil => rw [write_nil, List.map_nil, List.append_nil, eraseDups_of_nodup h]
  | cons e writes ih =>
    rw [write_cons, ih (nodup_keys_set h e.1 e.2), List.map_cons]
    by_cases hmem : e.1 ∈ b.keys
    · rw [keys_set_of_mem hmem, eraseDups_append_cons_of_mem hmem]
    · rw [keys_set_of_not_mem hmem, List.append_assoc, List.singleton_append]

/-! ## Maps -/

/-- What the bag holds under names, in order. -/
def names (b : Bag) : List (String × Value) :=
  b.entries.filterMap fun
    | (.named name, value) => some (name, value)
    | (.index _, _) => none

/-- A name is looked up among the names alone. -/
theorem getNamed?_eq_lookup (b : Bag) (name : String) : b.getNamed? name = b.names.lookup name := by
  obtain ⟨es⟩ := b
  rw [getNamed?_eq_get?, get?_eq_lookup]
  simp only [names]
  induction es with
  | nil => rfl
  | cons e es ih =>
    obtain ⟨k, v⟩ := e
    cases k with
    | index n => exact ih
    | named other =>
      have hsame : (Key.named name == Key.named other) = (name == other) := by simp
      rw [List.lookup_cons, hsame, ih]
      rfl

/-- What a write under a key comes to: it tells whether the key is new, is read back, and leaves the
other keys and the order of all as they are, but that a new key goes last. -/
structure Takes (b : Bag) (key : Key) (value : Value) : Prop where
  added : (b.insert key value).1 = true ↔ key ∉ b.keys
  self : (b.insert key value).2.get? key = some value
  others : ∀ other, other ≠ key → (b.insert key value).2.get? other = b.get? other
  present : key ∈ b.keys → (b.insert key value).2.keys = b.keys
  absent : key ∉ b.keys → (b.insert key value).2.keys = b.keys ++ [key]

theorem takes (b : Bag) (key : Key) (value : Value) : b.Takes key value where
  added := by
    rw [← contains_eq_true_iff, insert, Bool.not_eq_true', Bool.not_eq_true]
  self := get?_set_self b key value
  others _ h := get?_set_of_ne b h value
  present h := keys_set_of_mem h value
  absent h := keys_set_of_not_mem h value

/-- The bag is the map that the writes make one after another, in the order of insertion. -/
structure IsMapOf (writes : List (Key × Value)) (b : Bag) : Prop where
  nodup : b.keys.Nodup
  /-- The keys stand in the order of their first writes. -/
  order : b.keys = (writes.map Prod.fst).eraseDups
  /-- Under each key is what was written last. -/
  get? : ∀ key, b.get? key = writes.reverse.lookup key
  /-- A name is a key like any other, and is not looked for among the positions. -/
  getNamed? : ∀ name, b.getNamed? name = b.get? (.named name) ∧
    b.getNamed? name = b.names.lookup name
  takes : ∀ key value, b.Takes key value

theorem IsMapOf.of_write (h : start.keys.Nodup) (writes : List (Key × Value)) :
    IsMapOf (start.entries ++ writes) (start.write writes) where
  nodup := nodup_keys_write h writes
  order := by
    rw [List.map_append]
    exact keys_write h writes
  get? key := by
    rw [get?_write, List.reverse_append, List.lookup_append, lookup_reverse_of_nodup h,
      get?_eq_lookup]
  getNamed? name := ⟨getNamed?_eq_get? _ name, getNamed?_eq_lookup _ name⟩
  takes key value := Bag.takes _ key value

/-- The bags to begin with: one without properties, and the values at positions. -/
inductive IsStart : Bag → Prop
  | empty : IsStart .empty
  | positional (values : List Value) : IsStart (.positional values)

theorem IsStart.nodup_keys (h : start.IsStart) : start.keys.Nodup := by
  cases h with
  | empty => exact List.nodup_nil
  | positional values =>
    obtain ⟨hsize, hkeys⟩ := positional_positional values
    rw [hkeys]
    exact nodup_positions hsize

end Bag

/-! ## Constructors -/

/-- The properties of a new node are written one after another. -/
theorem Maker.exists_write {m : Maker} {node : Node} (h : m.make = .ok node) :
    ∃ (start : Bag) (writes : List (Key × Value)), start.IsStart ∧
      node.properties = start.write writes := by
  have hsequence {writes : List (Key × Value)}
      (h : Node.freshSequence (.ofList writes) = .ok node) :
      ∃ (start : Bag) (writes : List (Key × Value)), start.IsStart ∧
        node.properties = start.write writes := by
    unfold Node.freshSequence at h
    split at h
    · cases h
    · cases h
      exact ⟨.empty, writes, .empty, rfl⟩
  cases m with
  | chain op operands =>
    simp only [make, Node.chain] at h
    split at h
    · cases h
    · cases h
      exact ⟨_, [], .positional operands, rfl⟩
  | function f args =>
    simp only [make, Node.function] at h
    split at h
    · cases h
      exact ⟨_, [], .positional args, rfl⟩
    · cases h
  | applying f first second =>
    cases h
    exact ⟨_, [], .positional _, rfl⟩
  | map input range =>
    cases h
    exact ⟨.empty, _, .empty, rfl⟩
  | mapOf given =>
    obtain ⟨values, -, h⟩ := Task.exists_of_bind_eq_ok h
    cases h
    exact ⟨.empty, _, .empty, rfl⟩
  | sequence steps rate => exact hsequence h
  | sequenceOf given => exact hsequence h

/-! ## Calls -/

/-- A call of a method of the node under a number. -/
structure Invocation where
  id : NodeId
  method : String
  args : List Value

/-- What a call writes: `set` writes its second argument under the key that its first one names. -/
def Invocation.writes (c : Invocation) : List (Key × Value) :=
  if c.method = "set" then
    match c.args with
    | [key, value] => (key.key?.map fun key => (key, value)).toList
    | _ => []
  else []

/-- What the calls write to the node under a number. -/
def Invocation.writesTo (id : NodeId) (calls : List Invocation) : List (Key × Value) :=
  calls.flatMap fun c => if c.id = id then c.writes else []

theorem Invocation.writesTo_cons (id : NodeId) (c : Invocation) (calls : List Invocation) :
    writesTo id (c :: calls) = (if c.id = id then c.writes else []) ++ writesTo id calls :=
  List.flatMap_cons

theorem Bag.edit_eq_write (b : Bag) (c : Invocation) :
    b.edit c.method c.args = b.write c.writes := by
  obtain ⟨id, method, args⟩ := c
  simp only [Bag.edit, Invocation.writes]
  split
  · rcases args with _ | ⟨v, _ | ⟨value, _ | ⟨_, _⟩⟩⟩
    · rfl
    · rfl
    · cases hkey : v.key? with
      | none => simp only [hkey]; rfl
      | some key => simp only [hkey]; rfl
    · rfl
  · rfl

namespace Node

theorem call_set (n : Node) (id : NodeId) {v : Value} {key : Key} (h : v.key? = some key)
    (value : Value) : n.call id "set" [v, value] = .ok (.unset, n.setProperty key value) := by
  have hset : n.callCommon id "set" [v, value] = .ok (.unset, n.setProperty key value) := by
    rw [callCommon, if_pos rfl, callSet, h]
    rfl
  obtain ⟨body, properties, expression⟩ := n
  cases body <;> exact hset

theorem call_get (n : Node) (id : NodeId) {v : Value} {key : Key} (h : v.key? = some key)
    (rest : List Value) :
    n.call id "get" (v :: rest) = .ok ((n.properties.get? key).getD .unset, n) := by
  have hget : n.callCommon id "get" (v :: rest) =
      .ok ((n.properties.get? key).getD .unset, n) := by
    rw [callCommon, if_neg (by decide), if_pos rfl, callGet, List.head?_cons, Option.bind_some, h]
    rfl
  obtain ⟨body, properties, expression⟩ := n
  cases body <;> exact hget

end Node

namespace Store

variable {s : Store} {id : NodeId} {node : Node}

theorem put_self (h : s.get? id = some node) : s.put id node = s := by
  obtain ⟨slots⟩ := s
  have hslot : slots[id]? = some (some node) := by
    simpa [get?, Option.join_eq_some_iff] using h
  obtain ⟨hsize, heq⟩ := Array.getElem?_eq_some_iff.1 hslot
  rw [put, Array.setIfInBounds, dif_pos hsize, ← heq, Array.set_getElem_self]

/-- A node is asked for a property, and nothing else happens. -/
theorem exec_call_get (h : s.get? id = some node) {v : Value} {key : Key} (hkey : v.key? = some key)
    (rest : List Value) :
    (call id "get" (v :: rest)).exec s = (.ok ((node.properties.get? key).getD .unset), s) := by
  rw [exec_call h, node.call_get id hkey]
  exact congrArg _ (put_self h)

theorem exec_call_set (h : s.get? id = some node) {v : Value} {key : Key} (hkey : v.key? = some key)
    (value : Value) :
    (call id "set" [v, value]).exec s = (.ok .unset, s.put id (node.setProperty key value)) := by
  rw [exec_call h, node.call_set id hkey]

/-- The store after calls, whether they succeed or fail. -/
def callAll (calls : List Invocation) (s : Store) : Store :=
  calls.foldl (fun s c => ((call c.id c.method c.args).exec s).2) s

/-- What becomes of any node when methods are called: it is written to by its own calls. -/
theorem get?_callAll (h : s.get? id = some node) (calls : List Invocation) :
    ∃ node', (callAll calls s).get? id = some node' ∧ node'.kind = node.kind ∧
      node'.properties = node.properties.write (Invocation.writesTo id calls) := by
  induction calls generalizing s node with
  | nil => exact ⟨node, h, rfl, rfl⟩
  | cons c calls ih =>
    obtain ⟨node₁, hnode₁, hkind₁, hproperties₁⟩ := get?_call h c.id c.method c.args
    obtain ⟨node', hnode', hkind, hproperties⟩ := ih hnode₁
    refine ⟨node', hnode', hkind.trans hkind₁, ?_⟩
    rw [hproperties, hproperties₁, Invocation.writesTo_cons, Bag.write_append]
    by_cases heq : id = c.id
    · rw [if_pos heq, if_pos heq.symm, Bag.edit_eq_write]
    · rw [if_neg heq, if_neg (Ne.symm heq)]
      rfl

end Store

/-- **Every bag is a map in the order of insertion.** A bag that was begun with nothing or with
values at positions, and then written to any number of times, is the map of all that it was given.
Constructors of every kind make properties so, and after any calls the properties of the new node
are the map of those and of what its calls of `set` wrote; `get` answers what was written last, and
`set` makes one more write. -/
theorem Bag.insertion_ordered :
    (∀ start : Bag, start.IsStart → ∀ writes : List (Key × Value),
      IsMapOf (start.entries ++ writes) (start.write writes)) ∧
    ∀ (m : Maker) (made : Node), m.make = .ok made →
      (∃ (start : Bag) (writes : List (Key × Value)), start.IsStart ∧
        made.properties = start.write writes) ∧
      ∀ (before after : Store) (ref : NodeRef) (calls : List Invocation),
        (Store.build m.make).exec before = (.ok ref, after) →
        ∃ node, (Store.callAll calls after).get? ref.id = some node ∧
          IsMapOf (made.properties.entries ++ Invocation.writesTo ref.id calls) node.properties ∧
          ∀ (v : Value) (key : Key), v.key? = some key →
            (∀ rest, (Store.call ref.id "get" (v :: rest)).exec (Store.callAll calls after) =
              (.ok ((node.properties.get? key).getD .unset), Store.callAll calls after)) ∧
            ∀ value, (Store.call ref.id "set" [v, value]).exec (Store.callAll calls after) =
              (.ok .unset,
                (Store.callAll calls after).put ref.id (node.setProperty key value)) := by
  refine ⟨fun start hstart writes => .of_write hstart.nodup_keys writes, fun m made hmake => ?_⟩
  obtain ⟨start, writes, hstart, hmade⟩ := Maker.exists_write hmake
  refine ⟨⟨start, writes, hstart, hmade⟩, fun before after ref calls hbuild => ?_⟩
  rw [hmake, Store.exec_build_ok] at hbuild
  cases hbuild
  have hadded : (before.add made).2.get? (before.add made).1.id = some made :=
    Store.get?_add_self before made
  have hnodup : made.properties.keys.Nodup :=
    hmade ▸ Bag.nodup_keys_write hstart.nodup_keys writes
  obtain ⟨node, hnode, -, hproperties⟩ := Store.get?_callAll hadded calls
  exact ⟨node, hnode, hproperties ▸ .of_write hnodup _, fun v key hkey =>
    ⟨Store.exec_call_get hnode hkey, Store.exec_call_set hnode hkey⟩⟩

/-- A sum of two operands. -/
def Maker.pair : Maker := .chain .add [.bool true, .unset]

/-- Calls that write to a node under 1, some of them to one place, and fail in between. -/
def Invocation.several : List Invocation :=
  [⟨1, "set", [.text "gain", .text "low"]⟩, ⟨1, "set", [.text "+7", .bool true]⟩,
    ⟨1, "set", [.unset, .bool true]⟩, ⟨1, "set", [.text "01", .bool false]⟩,
    ⟨2, "set", [.text "7", .unset]⟩, ⟨1, "set", [.text "gain", .text "high"]⟩,
    ⟨1, "set", [.text "7", .bool false]⟩, ⟨1, "get", [.text "gain"]⟩]

/-- Calls on a sum leave its operands in front, and the gain before what was written after it. -/
theorem Bag.insertion_ordered_pair :
    ∃ node, (Store.callAll Invocation.several
        ((Store.build Maker.pair.make).exec .empty).2).get? 1 = some node ∧
      node.properties.keys = [.index 0, .index 1, .named "gain", .index 7] ∧
      node.properties.getNamed? "gain" = some (.text "high") ∧
      node.properties.get? (.index 7) = some (.bool false) := by
  obtain ⟨hwrites, hmakers⟩ := Bag.insertion_ordered
  obtain ⟨-, hcalls⟩ := hmakers .pair _ rfl
  obtain ⟨node, hnode, hmap, -⟩ := hcalls .empty _ _ Invocation.several rfl
  refine ⟨node, hnode, ?_, ?_, ?_⟩
  · rw [hmap.order]
    decide +kernel
  · rw [(hmap.getNamed? "gain").1, hmap.get?]
    decide +kernel
  · rw [hmap.get?]
    decide +kernel

end Patchbay
