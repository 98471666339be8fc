import Patchbay.Proofs.Following
import Patchbay.Proofs.Readback
import Patchbay.Proofs.Turn

/-!
# What is sent comes after what it names

If all nodes that stand in properties or are passed to methods have been wrapped, each message of a
session names nodes only that were announced before it. A node travels as a reference, or inside
the copy of a sequence, and then it is one of those; or it travels as its announcement, which was
such a message itself.

* `Store.names_of_fullCopy`, `Store.names_of_encodeProperties`: what snapshots name;
* `Delivery.Traced.exec`: every action of a session keeps its log causal;
* `Delivery.resolves_of_run`: so no message of a session fails for a node that is not in the table.
-/

namespace Patchbay

/-! ## What snapshots are made of -/

namespace Store

variable {s : Store} {i : NodeId}

theorem names_of_encodeEntries {encode : Value → Except Fault Snapshot}
    {entries : List (Key × Value)} {properties : List (String × Snapshot)}
    (h : encodeEntries encode entries = .ok properties)
    (hi : i ∈ Snapshot.names (Snapshot.partsOf properties)) :
    ∃ v ∈ entries.map Prod.snd, ∃ snapshot, encode v = .ok snapshot ∧
      i ∈ Snapshot.names snapshot.parts := by
  induction entries generalizing properties with
  | nil =>
    cases h
    cases hi
  | cons entry entries ih =>
    obtain ⟨key, v⟩ := entry
    obtain ⟨snapshot, hsnapshot, h⟩ := Task.exists_of_bind_eq_ok h
    obtain ⟨snapshots, hsnapshots, h⟩ := Task.exists_of_bind_eq_ok h
    cases h
    rw [Snapshot.partsOf, Snapshot.names, List.filterMap_append] at hi
    rcases List.mem_append.1 hi with hi | hi
    · exact ⟨v, List.mem_cons_self, snapshot, hsnapshot, hi⟩
    · obtain ⟨w, hw, hsome⟩ := ih hsnapshots hi
      exact ⟨w, List.mem_cons_of_mem v hw, hsome⟩

theorem names_of_encodeWith {copy : NodeId → Except Fault Snapshot} {v : Value}
    {snapshot : Snapshot} (h : encodeWith copy v = .ok snapshot)
    (hi : i ∈ Snapshot.names snapshot.parts) :
    ∃ n, v = .node n ∧ (i = n.id ∨
      ∃ copied, copy n.id = .ok copied ∧ i ∈ Snapshot.names copied.parts) := by
  cases v with
  | node n =>
    refine ⟨n, rfl, ?_⟩
    rw [encodeWith] at h
    split at h
    · exact .inr ⟨snapshot, h, hi⟩
    · cases h
      exact .inl (List.mem_singleton.1 hi)
  | scalar | bool | text | unset =>
    cases h
    cases hi

/-- A full copy names nodes below the one that is copied. -/
theorem names_of_fullCopy {levels : Nat} {path : List NodeId} {id : NodeId} {snapshot : Snapshot}
    (h : s.fullCopy levels path id = .ok snapshot) (hi : i ∈ Snapshot.names snapshot.parts) :
    s.Reaches id i := by
  induction levels generalizing path id snapshot with
  | zero => cases h
  | succ levels ih =>
    rw [fullCopy] at h
    split at h
    · cases h
    · split at h
      · cases h
      · rename_i node hnode
        obtain ⟨properties, hproperties, h⟩ := Task.exists_of_bind_eq_ok h
        cases h
        obtain ⟨v, hv, part, hpart, hi⟩ := names_of_encodeEntries hproperties hi
        obtain ⟨n, rfl, rfl | ⟨copied, hcopied, hi⟩⟩ := names_of_encodeWith hpart hi
        · exact .property .root hnode hv
        · exact (ih hcopied hi).child hnode hv

theorem names_of_encodeInside {maxDepth : Nat} {owner : NodeId} {v : Value} {snapshot : Snapshot}
    (h : s.encodeInside maxDepth owner v = .ok snapshot)
    (hi : i ∈ Snapshot.names snapshot.parts) : ∃ n, v = .node n ∧ s.Reaches n.id i := by
  obtain ⟨n, rfl, rfl | ⟨copied, hcopied, hi⟩⟩ := names_of_encodeWith h hi
  · exact ⟨n, rfl, .root⟩
  · exact ⟨n, rfl, names_of_fullCopy hcopied hi⟩

theorem names_of_encodeArgs {maxDepth : Nat} {owner : NodeId} {args : List Value}
    {snapshots : List Snapshot} (h : s.encodeArgs maxDepth owner args = .ok snapshots)
    (hi : i ∈ Snapshot.names (snapshots.flatMap Snapshot.parts)) :
    ∃ n, .node n ∈ args ∧ s.Reaches n.id i := by
  obtain ⟨part, hpart, hnamed⟩ := List.mem_filterMap.1 hi
  obtain ⟨snapshot, hsnapshot, hpart⟩ := List.mem_flatMap.1 hpart
  obtain ⟨v, hv, hencode⟩ := Bag.exists_of_forall₂ (Task.forall₂_of_mapM h) hsnapshot
  obtain ⟨n, rfl, hreaches⟩ :=
    names_of_encodeInside hencode (List.mem_filterMap.2 ⟨part, hpart, hnamed⟩)
  exact ⟨n, hv, hreaches⟩

/-- What a node is announced from names announced nodes, what their announcements name, and nodes
below the others. -/
theorem names_of_encodeProperties {maxDepth : Nat} {announcement? : NodeId → Option Create}
    {owner : NodeId} {properties : Bag} {snapshots : List (String × Snapshot)}
    (h : s.encodeProperties maxDepth announcement? owner properties = .ok snapshots)
    (hi : i ∈ Snapshot.names (Snapshot.partsOf snapshots)) :
    ∃ n, .node n ∈ properties.values ∧ (s.Reaches n.id i ∨ ∃ c, announcement? n.id = some c ∧
      (i = c.id ∨ i ∈ Snapshot.names (Snapshot.partsOf c.properties))) := by
  obtain ⟨v, hv, snapshot, hsnapshot, hi⟩ := names_of_encodeEntries h hi
  split at hsnapshot
  · rename_i c hc
    cases hsnapshot
    obtain ⟨n, hn, hc⟩ := Option.bind_eq_some_iff.1 hc
    obtain rfl : v = .node n := Value.node?_eq_some.1 hn
    exact ⟨n, hv, .inr ⟨c, hc, List.mem_cons.1 hi⟩⟩
  · obtain ⟨n, rfl, hreaches⟩ := names_of_encodeInside hsnapshot hi
    exact ⟨n, hv, .inl hreaches⟩

end Store

/-! ## Sessions -/

namespace Session

/-- The node has been wrapped by a relay that was active for it. -/
def Wrapped (s : Session) (id : NodeId) : Prop := ∃ l, some l ∈ s.layersOf id

/-- All nodes among the values have been wrapped, and all nodes below them. -/
def WrappedUnder (s : Session) (values : List Value) : Prop :=
  ∀ n, .node n ∈ values → ∀ id, s.store.Reaches n.id id → s.Wrapped id

/-- If all nodes that stand in properties have been wrapped, those below a node have been. -/
theorem wrappedUnder_of_all {s : Session} (h : ∀ id node, s.store.get? id = some node →
    ∀ n, .node n ∈ node.properties.values → s.Wrapped n.id) {values : List Value}
    (hvalues : ∀ n, .node n ∈ values → s.Wrapped n.id) : s.WrappedUnder values := by
  intro n hn id hid
  induction hid with
  | root => exact hvalues n hn
  | property _ hnode hchild => exact h _ _ hnode _ hchild

/-- Whether all nodes that stand in properties have been wrapped, and those among the values. -/
def holdsWrapped (s : Session) (values : List Value) : Bool :=
  (values :: s.store.slots.toList.map fun slot => (slot.map (·.properties.values)).getD []).all
    fun values => values.all fun v => v.node?.all fun n => (s.layersOf n.id).any Option.isSome

theorem wrapped_of_holdsWrapped {s : Session} {values : List Value}
    (h : s.holdsWrapped values = true) :
    (∀ n, .node n ∈ values → s.Wrapped n.id) ∧ ∀ id node, s.store.get? id = some node →
      ∀ n, .node n ∈ node.properties.values → s.Wrapped n.id := by
  have hall {vs : List Value} (hvs : (vs.all fun v => v.node?.all fun n =>
      (s.layersOf n.id).any Option.isSome) = true) (n : NodeRef) (hn : .node n ∈ vs) :
      s.Wrapped n.id := by
    obtain ⟨layer, hlayer, hsome⟩ := List.any_eq_true.1 (List.all_eq_true.1 hvs _ hn)
    obtain ⟨l, rfl⟩ := Option.isSome_iff_exists.1 hsome
    exact ⟨l, hlayer⟩
  rw [holdsWrapped, List.all_cons, Bool.and_eq_true, List.all_map] at h
  refine ⟨hall h.1, fun id node hnode => hall ?_⟩
  have hslot : some node ∈ s.store.slots.toList := by
    unfold Store.get? at hnode
    rw [Option.join_eq_some_iff] at hnode
    exact Array.mem_toList_iff.2 (Array.mem_of_getElem? hnode)
  exact List.all_eq_true.1 h.2 _ hslot

end Session

namespace Delivery

/-- All nodes that the action takes up have been wrapped: those below the node that it wraps, or
among the arguments that it passes and below them. -/
def Action.TakesWrapped (s : Session) : Action → Prop
  | work _ => True
  | wrap _ _ id => ∀ node, s.store.get? id = some node → s.WrappedUnder node.properties.values
  | invoke _ _ args => s.WrappedUnder args

/-- So do all actions of a script. -/
def AllWrapped : Session → List Action → Prop
  | _, [] => True
  | s, a :: rest => a.TakesWrapped s ∧ AllWrapped (a.exec s) rest

/-- The announcement of the node has arrived. -/
def Announced (sent : List Post) (id : NodeId) : Prop :=
  (log sent).any (Message.announces id) = true

/-- What links the log of a session whose posts all arrive to the layers around nodes: a layer
that sends has an announcement that arrived, and so have all nodes named there. -/
structure Traced (config : Config) (sent : List Post) (s : Session) : Prop where
  relay : ∃ r, s.relays = #[r] ∧ Sends config [] sent r
  layers : ∀ id l, some l ∈ s.layersOf id → l.relay = 0 ∧ l.create.id = id ∧ Announced sent id ∧
    ∀ i ∈ Snapshot.names (Snapshot.partsOf l.create.properties), Announced sent i
  causal : Causal [] (log sent)

variable {config : Config} {sent : List Post} {s : Session} {id : NodeId}

theorem log_post_nil (sent : List Post) (m : Message) : log (post [] sent m) = log sent ++ [m] := by
  rw [log_post, if_neg List.not_mem_nil]

theorem Announced.post (h : Announced sent id) (m : Message) :
    Announced (Delivery.post [] sent m) id := by
  rw [Announced, log_post_nil, List.any_append, Bool.or_eq_true]
  exact .inl h

theorem announced_create (sent : List Post) (c : Create) :
    Announced (post [] sent (.create c)) c.id := by
  rw [Announced, log_post_nil, List.any_append, Bool.or_eq_true]
  exact .inr (by simp)

theorem traced_session (config : Config) (store : Store) (replica : Replica) :
    Traced config [] (session config [] store replica) :=
  ⟨⟨_, rfl, rfl, rfl, rfl, rfl, fun _ => rfl⟩, nofun, trivial⟩

theorem Traced.of_eq (h : Traced config sent s) {s' : Session} (hrelays : s'.relays = s.relays)
    (hlayers : s'.layers = s.layers) : Traced config sent s' := by
  refine ⟨hrelays ▸ h.relay, ?_, h.causal⟩
  rw [Session.layersOf_congr hlayers]
  exact h.layers

theorem Traced.announced (h : Traced config sent s) (hid : s.Wrapped id) : Announced sent id :=
  let ⟨l, hl⟩ := hid
  (h.layers id l hl).2.2.1

/-- All that is named in the properties of a node may be named. -/
theorem Traced.names_of_encodeProperties (h : Traced config sent s) {maxDepth : Nat}
    {owner : NodeId} {properties : Bag} (hwrapped : s.WrappedUnder properties.values)
    {snapshots : List (String × Snapshot)}
    (hsnapshots : s.store.encodeProperties maxDepth s.announcement? owner properties =
      .ok snapshots) :
    ∀ i ∈ Snapshot.names (Snapshot.partsOf snapshots), Announced sent i := by
  intro i hi
  obtain ⟨n, hn, hreaches | ⟨c, hc, hi⟩⟩ := Store.names_of_encodeProperties hsnapshots hi
  · exact h.announced (hwrapped n hn i hreaches)
  · obtain ⟨l, hl, rfl⟩ := Session.mem_of_announcement? hc
    obtain ⟨-, hid, hannounced, hnames⟩ := h.layers n.id l hl
    rcases hi with rfl | hi
    · exact hid ▸ hannounced
    · exact hnames i hi

/-- A new layer that sends nothing. -/
theorem Traced.idle (h : Traced config sent s) {s' : Session} (hrelays : s'.relays = s.relays)
    (hlayers : s'.layers = (id, none) :: s.layers) : Traced config sent s' := by
  refine ⟨hrelays ▸ h.relay, fun other l hl => h.layers other l ?_, h.causal⟩
  rw [Session.layersOf_cons hlayers] at hl
  split at hl
  · exact (List.mem_cons.1 hl).resolve_left nofun
  · exact hl

/-- An announcement that is sent after all that it names. -/
theorem Traced.create (h : Traced config sent s) {c : Create} {r : Relay}
    (hsends : Sends config [] sent r)
    (hnames : ∀ i ∈ Snapshot.names (Snapshot.partsOf c.properties), Announced sent i) :
    Traced config (post [] sent (.create c))
      { s with relays := #[r.sendCreate c], layers := (c.id, some ⟨0, c⟩) :: s.layers } := by
  refine ⟨⟨_, rfl, hsends.create c⟩, fun other l hl => ?_, ?_⟩
  · rw [Session.layersOf_cons rfl] at hl
    have hold (hl : some l ∈ s.layersOf other) : l.relay = 0 ∧ l.create.id = other ∧
        Announced (post [] sent (.create c)) other ∧
        ∀ i ∈ Snapshot.names (Snapshot.partsOf l.create.properties),
          Announced (post [] sent (.create c)) i := by
      obtain ⟨hrelay, hid, hannounced, hnames'⟩ := h.layers other l hl
      exact ⟨hrelay, hid, hannounced.post _, fun i hi => (hnames' i hi).post _⟩
    split at hl
    · rename_i hid
      rcases List.mem_cons.1 hl with heq | hl
      · cases heq
        exact ⟨rfl, hid, hid ▸ announced_create sent c, fun i hi => (hnames i hi).post _⟩
      · exact hold hl
    · exact hold hl
  · rw [log_post_nil]
    exact h.causal.append hnames

theorem Traced.exec_wrap (h : Traced config sent s) (path : NamePath) (suppress : Bool)
    (hwrapped : ∀ node, s.store.get? id = some node → s.WrappedUnder node.properties.values) :
    ∃ sent', Traced config sent' ((Action.wrap path suppress id).exec s) := by
  obtain ⟨r, hr, hsends⟩ := h.relay
  rw [Action.exec]
  cases hdue : s.createDue? r.config path suppress id with
  | some c =>
    obtain ⟨-, rfl, node, hnode, hproperties⟩ := Session.createDue?_eq_some hdue
    rw [Session.wrap_due hr hdue]
    exact ⟨_, h.create hsends (h.names_of_encodeProperties (hwrapped node hnode) hproperties)⟩
  | none =>
    rw [Session.wrap_idle hr hdue]
    split
    · exact ⟨sent, h⟩
    · exact ⟨sent, h.idle rfl rfl⟩

/-- A call that is sent after all that it names. -/
theorem Traced.call (h : Traced config sent s) {c : Call} {r : Relay}
    (hsends : Sends config [] sent r)
    (hnames : ∀ i ∈ (Message.call c).names, Announced sent i) :
    Traced config (post [] sent (.call c)) { s with relays := #[(r.send (.call c)).2] } := by
  refine ⟨⟨_, rfl, hsends.call c⟩, fun other l hl => ?_, ?_⟩
  · obtain ⟨hrelay, hid, hannounced, hnames'⟩ := h.layers other l hl
    exact ⟨hrelay, hid, hannounced.post _, fun i hi => (hnames' i hi).post _⟩
  · rw [log_post_nil]
    exact h.causal.append hnames

/-- However many layers send a call on, each time all that it names has been announced. -/
theorem Traced.sendCalls (h : Traced config sent s) (id : NodeId) (method : String)
    {args : List Value} (hargs : s.WrappedUnder args) {layers : List (Option Layer)}
    (hlayers : ∀ l, some l ∈ layers → l.relay = 0) :
    ∃ sent' s', ((Session.sendCalls id method args layers).exec s).2 = s' ∧
      Traced config sent' s' := by
  induction layers generalizing s sent with
  | nil => exact ⟨sent, s, rfl, h⟩
  | cons layer layers ih =>
    have hlayers' (l : Layer) (hl : some l ∈ layers) : l.relay = 0 :=
      hlayers l (List.mem_cons_of_mem layer hl)
    cases layer with
    | none => exact ih h hargs hlayers'
    | some l =>
      obtain ⟨number, c⟩ := l
      obtain rfl : number = 0 := hlayers _ List.mem_cons_self
      obtain ⟨r, hr, hsends⟩ := h.relay
      rw [Session.sendCalls_cons]
      cases ha : r.hasAnnounced id with
      | false =>
        rw [Session.sendCall_unannounced hr ha]
        exact ih h hargs hlayers'
      | true =>
        rw [Session.sendCall_announced hr ha]
        cases hcopied : s.store.encodeArgs r.config.maxDepth id args with
        | error e => exact ⟨sent, s, rfl, h⟩
        | ok snapshots =>
          refine ih (h.call hsends fun i hi => ?_) hargs hlayers'
          rcases List.mem_cons.1 hi with rfl | hi
          · exact (hsends.hasAnnounced _).symm.trans ha
          · obtain ⟨n, hn, hreaches⟩ := Store.names_of_encodeArgs hcopied hi
            exact h.announced (hargs n hn i hreaches)

theorem Traced.exec_invoke (h : Traced config sent s) (id : NodeId) (method : String)
    {args : List Value} (hargs : s.WrappedUnder args) :
    ∃ sent', Traced config sent' ((Action.invoke id method args).exec s) := by
  rw [Action.exec]
  cases hprivate : Session.isPrivate method with
  | true =>
    rw [Session.invoke_private hprivate]
    exact ⟨sent, h.of_eq rfl rfl⟩
  | false =>
    rw [Session.invoke_public hprivate]
    obtain ⟨sent', s', hs', h'⟩ := h.sendCalls id method hargs fun l hl => (h.layers id l hl).1
    rcases hexec : (Session.sendCalls id method args (s.layersOf id)).exec s with ⟨e | u, s''⟩
    · rw [hexec] at hs'
      exact ⟨sent', hs' ▸ h'⟩
    · rw [hexec] at hs'
      obtain rfl : s'' = s' := hs'
      exact ⟨sent', h'.of_eq rfl rfl⟩

/-- **Every action keeps the log causal**, if all nodes that it takes up have been wrapped. -/
theorem Traced.exec (h : Traced config sent s) {a : Action} (ha : a.TakesWrapped s) :
    ∃ sent', Traced config sent' (a.exec s) := by
  cases a with
  | work task => exact ⟨sent, h.of_eq rfl rfl⟩
  | wrap path suppress id => exact h.exec_wrap path suppress ha
  | invoke id method args => exact h.exec_invoke id method ha

theorem Traced.run (h : Traced config sent s) {script : List Action}
    (hscript : AllWrapped s script) :
    ∃ sent', Traced config sent' (Delivery.run s script) := by
  induction script generalizing s sent with
  | nil => exact ⟨sent, h⟩
  | cons a script ih =>
    obtain ⟨sent', h'⟩ := h.exec hscript.1
    exact ih h' hscript.2

/-- **No message of a session misses a node.** The session's posts all arrive, and it takes up
wrapped nodes only; the replica can make all nodes that are announced to it. Then no message fails
for a node that is not in the table: all nodes that it names, at any depth, are there when it is
applied. -/
theorem resolves_of_run (config : Config) (store : Store) (replica : Replica)
    {script : List Action} (hscript : AllWrapped (session config [] store replica) script)
    {r : Receiver} (hr : r.Sound)
    (hcreates : ∀ c r',
      (.create c, r') ∈ r.steps (waiting (run (session config [] store replica) script)) →
        ∃ v, ((Receiver.apply (.create c)).exec r').1 = .ok v) :
    ∀ m r', (m, r') ∈ r.steps (waiting (run (session config [] store replica) script)) →
      (∀ id, ((Receiver.apply m).exec r').1 ≠ .error (.unknownReference id)) ∧
      ∀ id ∈ m.names, r'.replica.get? id ≠ none := by
  obtain ⟨sent, htraced⟩ := (traced_session config store replica).run hscript
  obtain ⟨relay, hrelay, hsends⟩ := htraced.relay
  have hwaiting : waiting (run (session config [] store replica) script) = log sent := by
    rw [waiting, hrelay, List.flatMap_singleton, hsends.outlet]
    rfl
  rw [hwaiting] at hcreates ⊢
  have hready : r.Ready [] [] := ⟨hr, nofun, nofun⟩
  exact hready.steps htraced.causal hcreates

/-- The values that the action passes to a method. -/
def Action.args : Action → List Value
  | invoke _ _ args => args
  | _ => []

/-- Whether all nodes that stand in properties or are passed to methods have been wrapped, all the
way through a script. -/
def holdsWrapped : Session → List Action → Bool
  | _, [] => true
  | s, a :: rest => s.holdsWrapped a.args && holdsWrapped (a.exec s) rest

theorem allWrapped_of_holdsWrapped {script : List Action} (h : holdsWrapped s script = true) :
    AllWrapped s script := by
  induction script generalizing s with
  | nil => trivial
  | cons a script ih =>
    rw [holdsWrapped, Bool.and_eq_true] at h
    obtain ⟨hargs, hall⟩ := Session.wrapped_of_holdsWrapped h.1
    refine ⟨?_, ih h.2⟩
    cases a with
    | work task => trivial
    | wrap path suppress id =>
      exact fun node hnode => Session.wrappedUnder_of_all hall (hall id node hnode)
    | invoke id method args => exact Session.wrappedUnder_of_all hall hargs

/-- A ring through two sequences that is closed by a `set`, and a call that copies them in full. -/
def ring : List Action :=
  [.work (discard (Store.build (Node.chain .add [.scalar 1.0]))), .wrap ["Add"] false 1,
    .work (discard (Store.build (Node.sequence [.node ⟨1, false⟩, .scalar 0.0] (.scalar 2.0)))),
    .wrap ["Sequence"] false 2,
    .work (discard (Store.build (Node.sequence [.node ⟨2, true⟩] (.scalar 1.0)))),
    .wrap ["Sequence"] false 3,
    .work (discard (Store.build (Node.function .abs [.node ⟨3, true⟩]))), .wrap ["Abs"] false 4,
    .invoke 1 "set" [.text "0", .node ⟨4, false⟩], .invoke 4 "set" [.scalar 0.0, .node ⟨3, true⟩],
    .wrap ["Add"] false 1]

theorem resolves_of_ring :
    (waiting (run (session .worklet [] .empty .empty) ring)).map Message.names =
      [[], [1], [2, 1], [3, 2, 1], [1, 4], [4, 1], [4, 3, 2, 1]] ∧
    ∀ m r', (m, r') ∈ Receiver.start.steps
        (waiting (run (session .worklet [] .empty .empty) ring)) →
      ∀ id ∈ m.names, r'.replica.get? id ≠ none := by
  have hwrapped : holdsWrapped (session .worklet [] .empty .empty) ring = true := by
    decide +kernel
  have hsound : Receiver.start.Sound := Receiver.sound_of_builtins rfl nofun
  have hok : ((Receiver.start.steps (waiting (run (session .worklet [] .empty .empty) ring))).all
      fun step => ((Receiver.apply step.1).exec step.2).1.toBool) = true := by
    decide +kernel
  refine ⟨by decide +kernel, fun m r' hmem => ?_⟩
  refine (resolves_of_run .worklet .empty .empty (allWrapped_of_holdsWrapped hwrapped) hsound
    (fun c r'' hc => ?_) m r' hmem).2
  have hcreate := List.all_eq_true.1 hok _ hc
  cases houtcome : ((Receiver.apply (.create c)).exec r'').1 with
  | ok v => exact ⟨v, rfl⟩
  | error e =>
    rw [houtcome] at hcreate
    cases hcreate

end Delivery

end Patchbay
