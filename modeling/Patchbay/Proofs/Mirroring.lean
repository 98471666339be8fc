import Patchbay.Proofs.Picture
import Patchbay.Proofs.Session

/-!
# The replica of a session

A session makes nodes, wraps each as soon as it is made, and changes them by calls through their
layers only; no message gets lost. Now and then the replica takes what is pending.

* `Mirroring.picture`: the wrapped nodes as they are now;
* `Mirroring.Invariant`: the replica shows an older picture, and the pending messages tell what has
  become of it; every step keeps that (`Mirroring.Invariant.exec`);
* `Mirroring.replica_of_run`: after the last message the replica has the wrapped nodes and no
  others, each of the same kind and with the same properties.
-/

namespace Patchbay.Mirroring

/-! ## Sessions -/

/-- What happens in a session. -/
inductive Step where
  /-- a constructor is called, and the node that it returns is wrapped -/
  | make (maker : Maker) (path : NamePath)
  | invoke (id : NodeId) (method : String) (args : List Value)
  /-- the replica takes what is pending -/
  | sync

/-- The nodes that have been wrapped, the last one first. -/
def wrapped (s : Session) : List NodeId := s.layers.map Prod.fst

theorem wrapped_congr {s s' : Session} (h : s'.layers = s.layers) : wrapped s' = wrapped s := by
  rw [wrapped, h, wrapped]

namespace Step

/-- The session after a step. -/
def exec : Step → Session → Session
  | make maker path, s =>
    match (Session.onStore (Store.build maker.make)).exec s with
    | (.ok ref, s) => ((Session.wrap 0 path false ref.id).exec s).2
    | (.error _, s) => s
  | invoke id method args, s => ((Session.invoke id method args).exec s).2
  | sync, s => (s.sync? 0).elim s Prod.snd

/-- Whether what a constructor returned may be wrapped under a path: it is the path of its
constructor, and the nodes in it have been wrapped. -/
def MayWrap (s : Session) (path : NamePath) : Except Fault Node → Prop
  | .ok node => Text.lowercase (path.leaf?.getD "") = node.name ∧
    ∀ v ∈ node.properties.values, ∀ n ∈ v.node?, n.id ∈ wrapped s
  | .error _ => True

instance (s : Session) (path : NamePath) : (made : Except Fault Node) →
    Decidable (MayWrap s path made)
  | .ok node => inferInstanceAs (Decidable (Text.lowercase (path.leaf?.getD "") = node.name ∧
    ∀ v ∈ node.properties.values, ∀ n ∈ v.node?, n.id ∈ wrapped s))
  | .error _ => inferInstanceAs (Decidable True)

/-- Whether a step is one that a session may take: a node is wrapped as it should be, and is no map
of nothing; a method is called on a wrapped node, with nodes that have been wrapped and are no
sequences. -/
def Allowed (s : Session) : Step → Prop
  | make maker path => maker.HasInput ∧ MayWrap s path maker.make
  | invoke id _ args => id ∈ wrapped s ∧
    ∀ v ∈ args, ∀ n ∈ v.node?, n.id ∈ wrapped s ∧ n.isSequence = false
  | sync => True

instance (s : Session) : (step : Step) → Decidable (step.Allowed s)
  | make maker path => inferInstanceAs (Decidable (maker.HasInput ∧ MayWrap s path maker.make))
  | invoke id _ args => inferInstanceAs (Decidable (id ∈ wrapped s ∧
    ∀ v ∈ args, ∀ n ∈ v.node?, n.id ∈ wrapped s ∧ n.isSequence = false))
  | sync => inferInstanceAs (Decidable True)

/-- Whether a step makes a node. -/
def makesNode : Step → Bool
  | make maker _ => maker.make.isOk
  | _ => false

end Step

/-- The session after a script. -/
def run (s : Session) (script : List Step) : Session := script.foldl (fun s step => step.exec s) s

/-- Whether a session may take the steps of a script, one after the other. -/
def Allowed : Session → List Step → Prop
  | _, [] => True
  | s, step :: rest => step.Allowed s ∧ Allowed (step.exec s) rest

instance decidableAllowed : (s : Session) → (script : List Step) → Decidable (Allowed s script)
  | _, [] => inferInstanceAs (Decidable True)
  | s, step :: rest =>
    have := decidableAllowed (step.exec s) rest
    inferInstanceAs (Decidable (step.Allowed s ∧ Allowed (step.exec s) rest))

/-- A session with one relay into a channel that loses nothing, and an empty replica. -/
def session (config : Config) (store : Store) : Session :=
  ⟨store, [], #[.start config (.channel .context (some [])) []], .empty⟩

/-- The wrapped nodes as they are now. -/
def picture (s : Session) : Picture := fun id =>
  if id ∈ wrapped s then (s.store.get? id).map fun node => ⟨node.kind, node.properties⟩ else none

/-! ## Snapshots of wrapped nodes -/

variable {pic : Picture}

theorem encodeInside_carries (store : Store) (maxDepth : Nat) (owner : NodeId) {v : Value}
    (hnode : ∀ n, v = .node n → pic n.id ≠ none ∧ n.isSequence = false) :
    ∃ snapshot, store.encodeInside maxDepth owner v = .ok snapshot ∧ Carries pic snapshot v := by
  cases v with
  | scalar x => exact ⟨_, rfl, .scalar x⟩
  | bool b => exact ⟨_, rfl, .bool b⟩
  | text t => exact ⟨_, rfl, .text t⟩
  | unset => exact ⟨_, rfl, .unset⟩
  | node n =>
    obtain ⟨hid, hsequence⟩ := hnode n rfl
    refine ⟨.reference n.id, ?_, .reference hid⟩
    rw [Store.encodeInside, Store.encodeWith, hsequence]
    rfl

/-- Arguments that are in the picture, and no sequences, can be copied to any depth. -/
theorem encodeArgs_carries (store : Store) (maxDepth : Nat) (owner : NodeId) {args : List Value}
    (hnodes : ∀ n, .node n ∈ args → pic n.id ≠ none ∧ n.isSequence = false) :
    ∃ snapshots, store.encodeArgs maxDepth owner args = .ok snapshots ∧
      List.Forall₂ (Carries pic) snapshots args := by
  unfold Store.encodeArgs
  induction args with
  | nil => exact ⟨[], rfl, .nil⟩
  | cons v args ih =>
    obtain ⟨snapshot, hencode, hcarries⟩ := encodeInside_carries store maxDepth owner (v := v)
      fun n hn => hnodes n (hn ▸ List.mem_cons_self)
    obtain ⟨snapshots, hencodes, hcarriesAll⟩ :=
      ih fun n hn => hnodes n (List.mem_cons_of_mem v hn)
    refine ⟨snapshot :: snapshots, ?_, .cons hcarries hcarriesAll⟩
    rw [List.mapM_cons, hencode, hencodes]
    rfl

theorem encodeEntries_carries {encode : Value → Except Fault Snapshot} {es : List (Key × Value)}
    (h : ∀ v ∈ es.map Prod.snd, ∃ snapshot, encode v = .ok snapshot ∧ Carries pic snapshot v) :
    ∃ properties, Store.encodeEntries encode es = .ok properties ∧
      List.Forall₂ (fun p e => p.1 = e.1.text ∧ Carries pic p.2 e.2) properties es := by
  induction es with
  | nil => exact ⟨[], rfl, .nil⟩
  | cons e es ih =>
    obtain ⟨key, v⟩ := e
    obtain ⟨snapshot, hencode, hcarries⟩ := h v List.mem_cons_self
    obtain ⟨snapshots, hencodes, hcarriesAll⟩ := ih fun v' hv' => h v' (List.mem_cons_of_mem v hv')
    refine ⟨(key.text, snapshot) :: snapshots, ?_, .cons ⟨rfl, hcarries⟩ hcarriesAll⟩
    rw [Store.encodeEntries, hencode, hencodes]
    rfl

/-- Properties whose nodes have been announced travel as those announcements, to any depth. -/
theorem encodeProperties_carries (store : Store) (maxDepth : Nat)
    (announcement? : NodeId → Option Create) (owner : NodeId) {b : Bag}
    (hnodes : ∀ n, .node n ∈ b.values →
      pic n.id ≠ none ∧ ∃ c, announcement? n.id = some c ∧ c.id = n.id) :
    ∃ properties, store.encodeProperties maxDepth announcement? owner b = .ok properties ∧
      List.Forall₂ (fun p e => p.1 = e.1.text ∧ Carries pic p.2 e.2) properties b.entries := by
  refine encodeEntries_carries fun v hv => ?_
  cases v with
  | node n =>
    obtain ⟨hid, c, hc, hcid⟩ := hnodes n hv
    refine ⟨Snapshot.ofCreate c, ?_, ?_⟩
    · simp only [Value.node?, Option.bind_some, hc]
      rfl
    · rw [Snapshot.ofCreate, hcid]
      exact .created c.path c.properties hid
  | _ => exact encodeInside_carries store maxDepth owner nofun

/-! ## The invariant -/

/-- The relay has announced the wrapped nodes, each wrapped node has one layer with its
announcement and holds wrapped nodes only, and the pending messages tell what has become of the
picture that the replica shows. -/
structure Invariant (config : Config) (s : Session) : Prop where
  relay : ∃ r pending shown, s.relays = #[r] ∧ r.config = config ∧ r.lost = [] ∧
    r.outlet = .channel .context (some pending) ∧
    (∀ id, r.hasAnnounced id = true ↔ id ∈ wrapped s) ∧
    Shows (wrapped s) ⟨s.store, s.replica⟩ shown ∧ TellsAll shown pending (picture s)
  layer : ∀ id ∈ wrapped s, ∃ c, s.layersOf id = [some ⟨0, c⟩] ∧ c.id = id
  filed : ∀ id ∈ wrapped s, ∃ node, s.store.get? id = some node ∧
    ∀ n, .node n ∈ node.properties.values → n.id ∈ wrapped s

variable {config : Config} {s : Session}

/-- A replica that has received nothing shows nothing. -/
theorem shows_start (store : Store) : Shows [] ⟨store, .empty⟩ fun _ => none where
  constructors := rfl
  absent _ _ := rfl
  copied _ _ h := absurd h.symm (Option.some_ne_none _)
  distinct _ _ _ _ h := absurd h.symm (Option.some_ne_none _)
  apart _ _ h := absurd h.symm (Option.some_ne_none _)
  below _ h := absurd h List.not_mem_nil

theorem invariant_session (config : Config) (store : Store) :
    Invariant config (session config store) where
  relay := by
    refine ⟨_, [], fun _ => none, rfl, rfl, rfl, rfl, fun id => ?_, ?_, ?_⟩
    · simp [Relay.start, Relay.hasAnnounced, wrapped, session]
    · exact shows_start store
    · exact .nil _
  layer := nofun
  filed := nofun

theorem picture_of_get? {id : NodeId} (hid : id ∈ wrapped s) {node : Node}
    (hnode : s.store.get? id = some node) : picture s id = some ⟨node.kind, node.properties⟩ := by
  rw [picture, if_pos hid, hnode]
  rfl

theorem Invariant.picture_ne_none (h : Invariant config s) {id : NodeId} (hid : id ∈ wrapped s) :
    picture s id ≠ none := by
  obtain ⟨node, hnode, -⟩ := h.filed id hid
  rw [picture_of_get? hid hnode]
  exact nofun

theorem Invariant.lt_nextId (h : Invariant config s) {id : NodeId} (hid : id ∈ wrapped s) :
    id < s.store.nextId := by
  obtain ⟨node, hnode, -⟩ := h.filed id hid
  exact Store.lt_nextId hnode

theorem Invariant.announcement? (h : Invariant config s) {id : NodeId} (hid : id ∈ wrapped s) :
    ∃ c, s.announcement? id = some c ∧ c.id = id := by
  obtain ⟨c, hc, hcid⟩ := h.layer id hid
  refine ⟨c, ?_, hcid⟩
  rw [Session.announcement?, hc]
  rfl

theorem layersOf_of_not_wrapped {id : NodeId} (h : id ∉ wrapped s) : s.layersOf id = [] := by
  rw [Session.layersOf, List.map_eq_nil_iff, List.filter_eq_nil_iff]
  intro e he heq
  exact h (List.mem_map.2 ⟨e, he, of_decide_eq_true heq⟩)

/-! ## Making a node -/

/-- The session after a constructor has returned. -/
def built (s : Session) (node : Node) : Session := { s with store := (s.store.add node).2 }

theorem exec_make {maker : Maker} {node : Node} (h : maker.make = .ok node) (path : NamePath) :
    (Step.make maker path).exec s =
      ((Session.wrap 0 path false s.store.nextId).exec (built s node)).2 := by
  rw [Step.exec, h, Session.exec_onStore, Store.exec_build_ok]
  rfl

theorem exec_make_fault {maker : Maker} {e : Fault} (h : maker.make = .error e)
    (path : NamePath) : (Step.make maker path).exec s = s := by
  rw [Step.exec, h, Session.exec_onStore, Store.exec_build_error]

/-- The announcement of a node that has just been made is due. -/
theorem Invariant.createDue? (h : Invariant config s) (hactive : config.isActive = true)
    {node : Node} (hnodes : ∀ n, .node n ∈ node.properties.values → n.id ∈ wrapped s)
    (path : NamePath) :
    ∃ properties, (built s node).createDue? config path false s.store.nextId =
        some ⟨path, properties, s.store.nextId⟩ ∧
      List.Forall₂ (fun p e => p.1 = e.1.text ∧ Carries (picture s) p.2 e.2) properties
        node.properties.entries := by
  have hcopied (n : NodeRef) (hn : .node n ∈ node.properties.values) :
      picture s n.id ≠ none ∧ ∃ c, s.announcement? n.id = some c ∧ c.id = n.id :=
    ⟨h.picture_ne_none (hnodes n hn), h.announcement? (hnodes n hn)⟩
  obtain ⟨properties, hencode, hcarries⟩ := encodeProperties_carries (built s node).store
    config.maxDepth s.announcement? s.store.nextId hcopied
  refine ⟨properties, ?_, hcarries⟩
  have hnode : (built s node).store.get? s.store.nextId = some node :=
    Store.get?_add_self s.store node
  rw [Session.createDue?, hactive, hnode, Option.bind_eq_bind, Option.bind_some]
  show (((built s node).store.encodeProperties config.maxDepth s.announcement? s.store.nextId
    node.properties).toOption.bind _) = _
  rw [hencode]
  rfl

/-- The session after a node has been made and wrapped. -/
def wrappedAfter (s : Session) (r : Relay) (node : Node) (c : Create) : Session :=
  { built s node with relays := #[r.sendCreate c], layers := (c.id, some ⟨0, c⟩) :: s.layers }

theorem Invariant.picture_wrappedAfter (h : Invariant config s) {r : Relay} {node : Node}
    {c : Create} (hid : c.id = s.store.nextId) :
    picture (wrappedAfter s r node c) = (picture s).put c.id ⟨node.kind, node.properties⟩ := by
  funext other
  by_cases hother : other = c.id
  · have hmem : c.id ∈ wrapped (wrappedAfter s r node c) := List.mem_cons_self
    rw [hother, Picture.put_self, picture, if_pos hmem, hid]
    show ((s.store.add node).2.get? s.store.nextId).map _ = _
    rw [Store.get?_add_self]
    rfl
  · rw [Picture.put_of_ne hother, picture, picture]
    have hmem : other ∈ wrapped (wrappedAfter s r node c) ↔ other ∈ wrapped s := by
      refine ⟨fun hm => ?_, List.mem_cons_of_mem c.id⟩
      exact (List.mem_cons.1 hm).resolve_left hother
    by_cases hw : other ∈ wrapped s
    · rw [if_pos hw, if_pos (hmem.2 hw)]
      show ((s.store.add node).2.get? other).map _ = _
      rw [Store.get?_add_of_lt (h.lt_nextId hw)]
    · rw [if_neg hw, if_neg (mt hmem.1 hw)]

theorem Invariant.wrappedAfter (h : Invariant config s) {r : Relay} (hr : s.relays = #[r])
    {node : Node} {c : Create} (hid : c.id = s.store.nextId)
    (hnodes : ∀ n, .node n ∈ node.properties.values → n.id ∈ wrapped s)
    (htells : Tells (picture s) (.create c) ((picture s).put c.id ⟨node.kind, node.properties⟩)) :
    Invariant config (wrappedAfter s r node c) := by
  have hfresh : c.id ∉ wrapped s := fun hm => Nat.lt_irrefl _ (hid ▸ h.lt_nextId hm)
  have hlayersOf (other : NodeId) : (Mirroring.wrappedAfter s r node c).layersOf other =
      if c.id = other then some ⟨0, c⟩ :: s.layersOf other else s.layersOf other :=
    Session.layersOf_cons rfl other
  refine ⟨?_, fun other hother => ?_, fun other hother => ?_⟩
  · obtain ⟨r', pending, shown, hr', hconfig, hlost, houtlet, hannounced, hshows, htold⟩ := h.relay
    rw [hr] at hr'
    cases hr'
    obtain ⟨hconfig', hlost', houtlet', hannounced'⟩ :=
      Relay.sendCreate_of_lost_eq_nil houtlet hlost c
    refine ⟨_, _, shown, rfl, hconfig'.trans hconfig, hlost', houtlet', fun id => ?_, ?_, ?_⟩
    · rw [hannounced', hannounced]
      exact List.mem_cons.symm
    · refine hshows.of_store (fun id ref href => ?_) (fun id ref href hm => ?_) fun id hm => ?_
      · exact Store.get?_add_of_lt (hshows.ref_lt href) node
      · rcases List.mem_cons.1 hm with heq | hm
        · exact Nat.ne_of_lt (hshows.ref_lt href) (heq.trans hid)
        · exact hshows.apart id ref href hm
      · have hnext : (s.store.add node).2.nextId = s.store.nextId + 1 := Array.size_push _
        show id < (s.store.add node).2.nextId
        rw [hnext]
        rcases List.mem_cons.1 hm with rfl | hm
        · exact Nat.lt_succ_of_le (Nat.le_of_eq hid)
        · exact Nat.lt_succ_of_lt (h.lt_nextId hm)
    · rw [h.picture_wrappedAfter hid]
      exact htold.append htells
  · rw [hlayersOf]
    split
    · rename_i heq
      refine ⟨c, ?_, heq⟩
      rw [← heq, layersOf_of_not_wrapped hfresh]
    · rename_i hne
      exact h.layer other ((List.mem_cons.1 hother).resolve_left (Ne.symm hne))
  · rcases List.mem_cons.1 hother with rfl | hother
    · refine ⟨node, ?_, fun n hn => List.mem_cons_of_mem _ (hnodes n hn)⟩
      rw [hid]
      exact Store.get?_add_self s.store node
    · obtain ⟨node', hnode', hclosed⟩ := h.filed other hother
      refine ⟨node', ?_, fun n hn => List.mem_cons_of_mem _ (hclosed n hn)⟩
      exact (Store.get?_add_of_lt (h.lt_nextId hother) node).trans hnode'

theorem Invariant.exec_make (h : Invariant config s) (hactive : config.isActive = true)
    {maker : Maker} {path : NamePath} (hallowed : (Step.make maker path).Allowed s) :
    Invariant config ((Step.make maker path).exec s) ∧
      ((Step.make maker path).exec s).layers.length =
        s.layers.length + if maker.make.isOk then 1 else 0 := by
  obtain ⟨hinput, hwrap⟩ := hallowed
  cases hmake : maker.make with
  | error e =>
    rw [exec_make_fault hmake]
    exact ⟨h, rfl⟩
  | ok node =>
    rw [hmake] at hwrap
    obtain ⟨hname, hvalues⟩ := hwrap
    have hnodes (n : NodeRef) (hn : .node n ∈ node.properties.values) : n.id ∈ wrapped s :=
      hvalues _ hn n rfl
    obtain ⟨properties, hdue, hcarries⟩ := h.createDue? hactive hnodes path
    obtain ⟨r, pending, shown, hr, hconfig, -⟩ := h.relay
    rw [Mirroring.exec_make hmake, Session.wrap_due (s := built s node) hr (hconfig ▸ hdue)]
    refine ⟨h.wrappedAfter hr (c := ⟨path, properties, s.store.nextId⟩) rfl hnodes ?_, rfl⟩
    refine .create ?_ ?_ (Maker.makes hinput hmake) hcarries
    · refine if_neg fun hm => Nat.lt_irrefl _ (h.lt_nextId hm)
    · rw [hname, Node.name_eq]

/-! ## Calling a method -/

theorem isPrivate_set : Session.isPrivate "set" = false := by decide

/-- The picture after a call on a wrapped node. -/
theorem picture_call {id : NodeId} (hid : id ∈ wrapped s)
    {node : Node} (hnode : s.store.get? id = some node) (method : String) (args : List Value)
    {s' : Session} (hlayers : s'.layers = s.layers)
    (hstore : s'.store = ((Store.call id method args).exec s.store).2) :
    picture s' = (picture s).put id ⟨node.kind, node.properties.edit method args⟩ := by
  obtain ⟨node', hnode', hkind, hproperties, hothers, -⟩ := Store.call_edits hnode method args
  have hwrapped := wrapped_congr hlayers
  funext other
  rw [picture, hwrapped, hstore]
  by_cases hother : other = id
  · rw [hother, Picture.put_self, if_pos hid, hnode', ← hproperties, ← hkind]
    rfl
  · rw [Picture.put_of_ne hother, hothers other hother]
    rfl

/-- A call keeps the invariant if it is told, or has no need to be. -/
theorem Invariant.call (h : Invariant config s) {id : NodeId} (hid : id ∈ wrapped s)
    {method : String} {args : List Value} (hargs : ∀ n, .node n ∈ args → n.id ∈ wrapped s)
    {s' : Session} (hlayers : s'.layers = s.layers) (hreplica : s'.replica = s.replica)
    (hstore : s'.store = ((Store.call id method args).exec s.store).2)
    (hrelay : ∀ r pending, s.relays = #[r] → r.lost = [] →
      r.outlet = .channel .context (some pending) →
      ∃ r' pending', s'.relays = #[r'] ∧ r'.config = r.config ∧ r'.lost = [] ∧
        r'.outlet = .channel .context (some pending') ∧
        (∀ other, r'.hasAnnounced other = r.hasAnnounced other) ∧
        ∀ shown node, s.store.get? id = some node → TellsAll shown pending (picture s) →
          TellsAll shown pending'
            ((picture s).put id ⟨node.kind, node.properties.edit method args⟩)) :
    Invariant config s' := by
  have hwrapped := wrapped_congr hlayers
  have hlayersOf := Session.layersOf_congr hlayers
  obtain ⟨node, hnode, hclosed⟩ := h.filed id hid
  obtain ⟨node', hnode', -, hproperties, hothers, hnextId⟩ := Store.call_edits hnode method args
  rw [← hstore] at hnode' hothers hnextId
  refine ⟨?_, fun other hother => ?_, fun other hother => ?_⟩
  · obtain ⟨r, pending, shown, hr, hconfig, hlost, houtlet, hannounced, hshows, htold⟩ := h.relay
    obtain ⟨r', pending', hr', hconfig', hlost', houtlet', hannounced', htold'⟩ :=
      hrelay r pending hr hlost houtlet
    refine ⟨r', pending', shown, hr', hconfig'.trans hconfig, hlost', houtlet', fun other => ?_,
      ?_, ?_⟩
    · rw [hannounced', hannounced, hwrapped]
    · rw [hwrapped, hreplica]
      refine hshows.of_store (fun i ref href => ?_) hshows.apart fun i hi => ?_
      · exact hothers ref.id fun heq => hshows.apart i ref href (heq ▸ hid)
      · rw [hnextId]
        exact h.lt_nextId hi
    · rw [picture_call hid hnode method args hlayers hstore]
      exact htold' shown node hnode htold
  · rw [hwrapped] at hother
    rw [hlayersOf]
    exact h.layer other hother
  · rw [hwrapped] at hother ⊢
    by_cases heq : other = id
    · refine ⟨node', heq ▸ hnode', fun n hn => ?_⟩
      rw [hproperties] at hn
      rcases Bag.mem_values_edit hn with hn | hn
      · exact hargs n hn
      · exact hclosed n hn
    · rw [hothers other heq]
      exact h.filed other hother

theorem Invariant.exec_invoke (h : Invariant config s) {id : NodeId} {method : String}
    {args : List Value} (hallowed : (Step.invoke id method args).Allowed s) :
    Invariant config ((Step.invoke id method args).exec s) ∧
      ((Step.invoke id method args).exec s).layers = s.layers := by
  obtain ⟨hid, hvalues⟩ := hallowed
  have hargs (n : NodeRef) (hn : .node n ∈ args) : n.id ∈ wrapped s ∧ n.isSequence = false :=
    hvalues _ hn n rfl
  obtain ⟨c, hlayer, -⟩ := h.layer id hid
  obtain ⟨r, pending, shown, hr, hconfig, hlost, houtlet, hannounced, -⟩ := h.relay
  have hid' : r.hasAnnounced id = true := (hannounced id).2 hid
  cases hpublic : Session.isPrivate method with
  | true =>
    have hidle : (!Session.isPrivate method && r.hasAnnounced id) = false := by rw [hpublic]; rfl
    rw [Step.exec, Session.invoke_idle hr (Or.inr (Or.inr ⟨c, hlayer⟩)) hidle]
    refine ⟨h.call hid (fun n hn => (hargs n hn).1) rfl rfl rfl
      fun r' pending' hr' hlost' houtlet' => ⟨r', pending', hr', rfl, hlost', houtlet',
        fun _ => rfl, fun shown' node hnode htold => ?_⟩, rfl⟩
    have hset : method ≠ "set" := by
      rintro rfl
      rw [isPrivate_set] at hpublic
      cases hpublic
    rw [Bag.edit_of_ne hset, Picture.put_eq_self (picture_of_get? hid hnode)]
    exact htold
  | false =>
    have hcopied (n : NodeRef) (hn : .node n ∈ args) :
        picture s n.id ≠ none ∧ n.isSequence = false :=
      ⟨h.picture_ne_none (hargs n hn).1, (hargs n hn).2⟩
    obtain ⟨snapshots, hencode, hcarries⟩ :=
      encodeArgs_carries s.store r.config.maxDepth id hcopied
    have hdue : s.callDue? r.config (r.hasAnnounced id) id method args =
        some ⟨id, method, snapshots⟩ := by
      rw [Session.callDue?, hpublic, hid', hencode]
      rfl
    rw [Step.exec, Session.invoke_due hr hlayer hdue, Relay.send_channel houtlet,
      Relay.posted_of_lost_eq_nil hlost]
    refine ⟨h.call hid (fun n hn => (hargs n hn).1) rfl rfl rfl
      fun r' pending' hr' hlost' houtlet' => ?_, rfl⟩
    rw [hr] at hr'
    cases hr'
    rw [houtlet] at houtlet'
    cases houtlet'
    refine ⟨_, pending ++ [.call ⟨id, method, snapshots⟩], rfl, rfl, hlost, rfl, fun _ => rfl,
      fun shown' node hnode htold => ?_⟩
    have htells := Tells.call (c := ⟨id, method, snapshots⟩) (picture_of_get? hid hnode) hcarries
    exact htold.append htells

/-! ## Taking what is pending -/

theorem picture_of_kept {s s' : Session} (hlayers : s'.layers = s.layers)
    (hkept : ∀ id ∈ wrapped s, s'.store.get? id = s.store.get? id) : picture s' = picture s := by
  have hwrapped := wrapped_congr hlayers
  funext id
  rw [picture, picture, hwrapped]
  by_cases hid : id ∈ wrapped s
  · rw [if_pos hid, if_pos hid, hkept id hid]
  · rw [if_neg hid, if_neg hid]

theorem Invariant.exec_sync (h : Invariant config s) :
    Invariant config (Step.sync.exec s) ∧ (Step.sync.exec s).layers = s.layers ∧
      ∃ r, (Step.sync.exec s).relays = #[r] ∧ r.outlet = .channel .context (some []) := by
  obtain ⟨r, pending, shown, hr, hconfig, hlost, houtlet, hannounced, hshows, htold⟩ := h.relay
  obtain ⟨hshows', hspares⟩ := hshows.applyAll htold
  generalize hafter : ((Receiver.applyAll pending).run ⟨s.store, s.replica⟩).2 = after at *
  have hexec : Step.sync.exec s =
      ⟨after.store, s.layers, #[{ r with outlet := .channel .context (some []) }],
        after.replica⟩ := by
    have hfirst : s.relays[0]?.map Relay.outlet = some (.channel .context (some pending)) := by
      rw [Session.relays_zero hr, Option.map_some, houtlet]
    rw [← hafter, Step.exec, Session.sync?, hfirst]
    refine (Session.modifyRelay_zero (s := { s with
      store := ((Receiver.applyAll pending).run ⟨s.store, s.replica⟩).2.store
      replica := ((Receiver.applyAll pending).run ⟨s.store, s.replica⟩).2.replica }) hr
      fun r => { r with outlet := r.outlet.dropAll }).trans ?_
    rw [houtlet]
    rfl
  have hpicture : picture (Step.sync.exec s) = picture s :=
    picture_of_kept (by rw [hexec]) (by rw [hexec]; exact hspares.kept)
  rw [hexec] at hpicture ⊢
  refine ⟨⟨⟨_, [], picture s, rfl, hconfig, hlost, rfl, hannounced, hshows', ?_⟩, h.layer, ?_⟩,
    rfl, _, rfl, rfl⟩
  · rw [hpicture]
    exact .nil _
  · intro id hid
    obtain ⟨node, hnode, hclosed⟩ := h.filed id hid
    exact ⟨node, (hspares.kept id hid).trans hnode, hclosed⟩

/-! ## Runs -/

/-- Every step that a session may take keeps the invariant, and wraps a node if it makes one. -/
theorem Invariant.exec (h : Invariant config s) (hactive : config.isActive = true) {step : Step}
    (hallowed : step.Allowed s) :
    Invariant config (step.exec s) ∧
      (wrapped (step.exec s)).length =
        (wrapped s).length + if step.makesNode then 1 else 0 := by
  simp only [wrapped, List.length_map]
  cases step with
  | make maker path => exact h.exec_make hactive hallowed
  | invoke id method args =>
    obtain ⟨hinvariant, hlayers⟩ := h.exec_invoke hallowed
    exact ⟨hinvariant, by rw [hlayers]; rfl⟩
  | sync =>
    obtain ⟨hinvariant, hlayers, -⟩ := h.exec_sync
    exact ⟨hinvariant, by rw [hlayers]; rfl⟩

/-- So does every script. -/
theorem Invariant.run (h : Invariant config s) (hactive : config.isActive = true)
    {script : List Step} (hallowed : Allowed s script) :
    Invariant config (Mirroring.run s script) ∧
      (wrapped (Mirroring.run s script)).length =
        (wrapped s).length + script.countP Step.makesNode := by
  induction script generalizing s with
  | nil => exact ⟨h, rfl⟩
  | cons step rest ih =>
    obtain ⟨hinvariant, hlength⟩ := h.exec hactive hallowed.1
    obtain ⟨hinvariant', hlength'⟩ := ih hinvariant hallowed.2
    refine ⟨hinvariant', hlength'.trans ?_⟩
    rw [hlength, List.countP_cons]
    omega

/-- After the pending messages have been taken, whatever has been taken before and when: every node
that a constructor returned is wrapped, the table of the replica has the wrapped nodes and no
others, and each has the same kind as the node that it stands for and the same properties in the
same order, with the node of the table in place of a node. -/
theorem replica_of_run (config : Config) (hactive : config.isActive = true) (store : Store)
    (script : List Step) (hallowed : Allowed (session config store) script) :
    let s := Step.sync.exec (run (session config store) script)
    (wrapped s).length = script.countP Step.makesNode ∧
    (∀ id, id ∈ s.replica.ids ↔ id ∈ wrapped s) ∧
    ∀ id ∈ wrapped s, ∃ ref here there, s.replica.get? id = some ref ∧
      s.store.get? id = some here ∧ s.store.get? ref.id = some there ∧ there.kind = here.kind ∧
      List.Forall₂ (fun e e' => e'.1 = e.1 ∧ s.replica.counterpart? e.2 = some e'.2)
        here.properties.entries there.properties.entries := by
  intro s
  obtain ⟨hrun, hlength⟩ := (invariant_session config store).run hactive hallowed
  obtain ⟨h, hlayers, r, hr, houtlet⟩ := hrun.exec_sync
  obtain ⟨r', pending, shown, hr', -, -, houtlet', -, hshows, htold⟩ := h.relay
  rw [hr] at hr'
  cases hr'
  rw [houtlet] at houtlet'
  cases houtlet'
  cases htold
  refine ⟨?_, fun id => ?_, fun id hid => ?_⟩
  · rw [wrapped, hlayers]
    rw [wrapped] at hlength
    exact hlength.trans (Nat.zero_add _)
  · rw [Replica.mem_ids]
    constructor
    · intro hid
      refine by_contra fun hnot => hid (hshows.absent id ?_)
      exact if_neg hnot
    · intro hid
      obtain ⟨ref, href⟩ := hshows.get?_of_ne_none (h.picture_ne_none hid)
      rw [show s.replica.get? id = some ref from href]
      exact nofun
  · obtain ⟨here, hhere, -⟩ := h.filed id hid
    obtain ⟨ref, there, href, hthere, hkind, hmatch⟩ :=
      hshows.copied id _ (picture_of_get? hid hhere)
    exact ⟨ref, here, there, href, hhere, hthere, hkind, hmatch⟩

/-- Nodes that hold themselves and each other, one of them a sequence, and one made after the
replica has taken the others. -/
def ring : List Step :=
  [.make (.chain .add [.bool true, .text "x"]) ["Add"],
    .make (.sequence [.node ⟨1, false⟩] (.bool true)) ["Osc", "Sequence"],
    .invoke 1 "set" [.text "gain", .node ⟨1, false⟩], .sync,
    .make (.function .merge [.node ⟨2, true⟩, .node ⟨1, false⟩]) ["Merge"],
    .invoke 2 "set" [.text "rate", .node ⟨5, false⟩], .invoke 1 "stop" []]

theorem replica_of_ring :
    Allowed (session .worklet .empty) ring ∧
    let s := Step.sync.exec (run (session .worklet .empty) ring)
    s.replica.ids = [1, 2, 5] ∧ (∀ id, id ∈ s.replica.ids ↔ id ∈ wrapped s) := by
  refine ⟨by decide +kernel, by decide +kernel, ?_⟩
  exact (replica_of_run .worklet (by decide) .empty ring (by decide +kernel)).2.1

end Patchbay.Mirroring
