import Patchbay.Proofs.Store
import Patchbay.Session

/-!
# A session with one relay

What wrapping and calling make of a session whose only relay is number 0. The announcement that a
wrap has to send, and the call that an invocation has to send, are functions of the session alone
(`Session.createDue?`, `Session.callDue?`):

* `Session.wrap_due`, `Session.wrap_idle`: a wrap sends what is due, and nothing else;
* `Session.invoke_outcome`: an invocation through any layers calls the method, or changes nothing
  at all because the arguments cannot be copied;
* `Session.invoke_due`, `Session.invoke_idle`, `Session.invoke_refused`: an invocation through one
  layer sends what is due, and nothing else.
-/

namespace Patchbay

/-! ## Sending -/

namespace Relay

/-- The relay after one more post into its channel, which arrives unless it is a lost one. -/
def posted (r : Relay) (pending : List Message) (message : Message) : Relay :=
  { r with
    sent := r.sent + 1
    outlet := .channel .context
      (some (if r.sent ∈ r.lost then pending else pending ++ [message])) }

variable {r : Relay} {pending : List Message}

theorem send_channel (h : r.outlet = .channel .context (some pending)) (message : Message) :
    r.send message = (decide (r.sent ∉ r.lost), r.posted pending message) := by
  unfold send posted
  split
  · rename_i hlost
    simp [hlost, ← h]
  · rename_i harrives
    simp [harrives, h, Outlet.post, pure, Except.pure]

/-- Whatever becomes of a message, the relay has announced the same nodes. -/
theorem kept_send (r : Relay) (message : Message) :
    (r.send message).2.config = r.config ∧ (r.send message).2.announced = r.announced := by
  unfold send
  split
  · exact ⟨rfl, rfl⟩
  · split
    · exact ⟨rfl, rfl⟩
    · exact ⟨rfl, rfl⟩

theorem hasAnnounced_announce (r : Relay) (id other : NodeId) :
    (r.announce id).2.hasAnnounced other = true ↔ other = id ∨ r.hasAnnounced other = true := by
  unfold announce
  split
  · rename_i h
    refine ⟨Or.inr, ?_⟩
    rintro (rfl | hother)
    · exact h
    · exact hother
  · simp [hasAnnounced]

/-- Remembering a node changes nothing but the nodes announced. -/
theorem announce_eq (r : Relay) (id : NodeId) :
    (r.announce id).2 = { r with announced := (r.announce id).2.announced } := by
  unfold announce
  split
  · rfl
  · rfl

/-- An announcement is remembered if it arrives. -/
theorem sendCreate_channel (h : r.outlet = .channel .context (some pending)) (c : Create) :
    r.sendCreate c = if r.sent ∈ r.lost then r.posted pending (.create c)
      else ((r.posted pending (.create c)).announce c.id).2 := by
  unfold sendCreate
  rw [send_channel h]
  by_cases hlost : r.sent ∈ r.lost <;> simp [hlost]

/-- What a channel that loses nothing makes of a message. -/
theorem posted_of_lost_eq_nil (h : r.lost = []) (message : Message) :
    r.posted pending message =
      { r with sent := r.sent + 1, outlet := .channel .context (some (pending ++ [message])) } := by
  rw [posted, h]
  rfl

theorem sendCreate_of_lost_eq_nil (h : r.outlet = .channel .context (some pending))
    (hlost : r.lost = []) (c : Create) :
    (r.sendCreate c).config = r.config ∧ (r.sendCreate c).lost = [] ∧
      (r.sendCreate c).outlet = .channel .context (some (pending ++ [.create c])) ∧
      ∀ id, (r.sendCreate c).hasAnnounced id = true ↔ id = c.id ∨ r.hasAnnounced id = true := by
  rw [sendCreate_channel h, hlost, if_neg List.not_mem_nil, posted_of_lost_eq_nil hlost]
  refine ⟨?_, ?_, ?_, fun id => ?_⟩
  · rw [announce_eq]
  · rw [announce_eq]
    exact hlost
  · rw [announce_eq]
  · rw [hasAnnounced_announce]
    exact Iff.rfl

end Relay

namespace Session

/-! ## What is due -/

/-- The announcement that a wrap has to send: there is none if the relay is not active for the
node, and none if the properties cannot be copied. -/
def createDue? (s : Session) (config : Config) (path : NamePath) (suppress : Bool) (id : NodeId) :
    Option Create :=
  if config.isActive && !suppress then do
    let node ← s.store.get? id
    let properties ← (s.store.encodeProperties config.maxDepth s.announcement? id
      node.properties).toOption
    return ⟨path, properties, id⟩
  else none

/-- The call that an invocation has to send: there is none if the method is private or the node
has not been announced, and none if the arguments cannot be copied. -/
def callDue? (s : Session) (config : Config) (announced : Bool) (id : NodeId) (method : String)
    (args : List Value) : Option Call :=
  if !isPrivate method && announced then do
    let args ← (s.store.encodeArgs config.maxDepth id args).toOption
    return ⟨id, method, args⟩
  else none

variable {s : Session} {r : Relay}

theorem createDue?_eq_some {config : Config} {path : NamePath} {suppress : Bool} {id : NodeId}
    {c : Create} (h : s.createDue? config path suppress id = some c) :
    c.path = path ∧ c.id = id ∧ ∃ node, s.store.get? id = some node ∧
      s.store.encodeProperties config.maxDepth s.announcement? id node.properties =
        .ok c.properties := by
  unfold createDue? at h
  split at h
  · obtain ⟨node, hnode, h⟩ := Option.bind_eq_some_iff.1 h
    obtain ⟨properties, hproperties, h⟩ := Option.bind_eq_some_iff.1 h
    cases h
    exact ⟨rfl, rfl, node, hnode, Task.eq_ok_of_toOption hproperties⟩
  · cases h

theorem createDue?_id {config : Config} {path : NamePath} {suppress : Bool} {id : NodeId}
    {c : Create} (h : s.createDue? config path suppress id = some c) : c.id = id :=
  (createDue?_eq_some h).2.1

theorem callDue?_eq_some {config : Config} {announced : Bool} {id : NodeId} {method : String}
    {args : List Value} {call : Call}
    (h : s.callDue? config announced id method args = some call) :
    (!isPrivate method && announced) = true ∧ call.object = id := by
  unfold callDue? at h
  split at h
  · rename_i hsends
    obtain ⟨snapshots, -, h⟩ := Option.bind_eq_some_iff.1 h
    cases h
    exact ⟨hsends, rfl⟩
  · cases h

/-! ## Wrapping -/

theorem layersOf_congr {s s' : Session} (h : s'.layers = s.layers) : s'.layersOf = s.layersOf := by
  funext id
  rw [layersOf, h, layersOf]

theorem layersOf_cons {s s' : Session} {id : NodeId} {layer : Option Layer}
    (h : s'.layers = (id, layer) :: s.layers) (other : NodeId) :
    s'.layersOf other = if id = other then layer :: s.layersOf other else s.layersOf other := by
  rw [layersOf, h, List.filter_cons]
  by_cases hid : id = other
  · simp [hid, layersOf]
  · simp [hid, layersOf]

theorem mem_layersOf {id : NodeId} {layer : Option Layer} :
    layer ∈ s.layersOf id ↔ (id, layer) ∈ s.layers := by
  rw [layersOf, List.mem_map]
  constructor
  · rintro ⟨⟨id', layer'⟩, hmem, rfl⟩
    obtain ⟨hlayers, hid⟩ := List.mem_filter.1 hmem
    obtain rfl : id' = id := of_decide_eq_true hid
    exact hlayers
  · intro hmem
    exact ⟨_, List.mem_filter.2 ⟨hmem, decide_eq_true rfl⟩, rfl⟩

theorem mem_of_announcement? {id : NodeId} {c : Create}
    (h : s.announcement? id = some c) : ∃ l, some l ∈ s.layersOf id ∧ l.create = c := by
  obtain ⟨l, hl, rfl⟩ := Option.map_eq_some_iff.1 h
  rw [Option.join_eq_some_iff] at hl
  exact ⟨l, List.mem_of_head? hl, rfl⟩

theorem relays_zero (h : s.relays = #[r]) : s.relays[0]? = some r := by
  rw [h]
  rfl

theorem modifyRelay_zero (h : s.relays = #[r]) (change : Relay → Relay) :
    modifyRelay 0 change s = { s with relays := #[change r] } := by
  rw [modifyRelay, h]
  rfl

theorem exec_onStore {α : Type} (task : Task Store α) (s : Session) :
    (onStore task).exec s = ((task.exec s.store).1, { s with store := (task.exec s.store).2 }) :=
  rfl

/-- A wrap by a relay that is not active for the node puts a layer around it that sends nothing. -/
theorem exec_wrap_inactive (h : s.relays = #[r]) {suppress : Bool}
    (hinactive : r.isActive suppress = false) (path : NamePath) (id : NodeId) :
    (wrap 0 path suppress id).exec s =
      (.ok none, { s with layers := (id, none) :: s.layers }) := by
  unfold wrap
  rw [Task.exec_get_bind]
  simp only [relays_zero h]
  rw [hinactive]
  rfl

/-- A wrap by an active relay sends an announcement, if the properties can be copied. -/
theorem exec_wrap_active (h : s.relays = #[r]) {suppress : Bool}
    (hactive : r.isActive suppress = true) (path : NamePath) {id : NodeId} {node : Node}
    (hnode : s.store.get? id = some node) :
    (wrap 0 path suppress id).exec s =
      match s.store.encodeProperties r.config.maxDepth s.announcement? id node.properties with
      | .ok properties =>
        (.ok (some ⟨path, properties, id⟩),
          { s with
            relays := #[r.sendCreate ⟨path, properties, id⟩]
            layers := (id, some ⟨0, ⟨path, properties, id⟩⟩) :: s.layers })
      | .error e => (.error e, s) := by
  unfold wrap
  rw [Task.exec_get_bind]
  simp only [relays_zero h]
  rw [if_pos hactive]
  unfold wrapActive
  rw [Task.exec_get_bind, Task.exec_bind, exec_onStore, Store.exec_fetch hnode]
  simp only
  rw [Task.exec_bind, Task.exec_ofExcept]
  cases s.store.encodeProperties r.config.maxDepth s.announcement? id node.properties with
  | error e => rfl
  | ok properties =>
    simp only
    rw [Task.exec_bind, Task.exec_modify, modifyRelay_zero h]
    rfl

/-- A wrap by an active relay of a node that is not there changes nothing. -/
theorem exec_wrap_missing (h : s.relays = #[r]) {suppress : Bool}
    (hactive : r.isActive suppress = true) (path : NamePath) {id : NodeId}
    (hnode : s.store.get? id = none) :
    (wrap 0 path suppress id).exec s = (.error (.unknownReference id), s) := by
  unfold wrap
  rw [Task.exec_get_bind]
  simp only [relays_zero h]
  rw [if_pos hactive]
  unfold wrapActive
  rw [Task.exec_get_bind, Task.exec_bind, exec_onStore, Store.exec_fetch_none hnode]

/-- A wrap sends the announcement that is due and puts a layer around the node. -/
theorem wrap_due (h : s.relays = #[r]) {path : NamePath} {suppress : Bool} {id : NodeId}
    {c : Create} (hdue : s.createDue? r.config path suppress id = some c) :
    (wrap 0 path suppress id).exec s = (.ok (some c),
      { s with relays := #[r.sendCreate c], layers := (id, some ⟨0, c⟩) :: s.layers }) := by
  unfold createDue? at hdue
  split at hdue
  · rename_i hactive
    obtain ⟨node, hnode, hdue⟩ := Option.bind_eq_some_iff.1 hdue
    obtain ⟨properties, hproperties, hc⟩ := Option.bind_eq_some_iff.1 hdue
    cases hc
    rw [exec_wrap_active h hactive path hnode, Task.eq_ok_of_toOption hproperties]
  · cases hdue

/-- A wrap without an announcement that is due sends nothing. -/
theorem wrap_idle (h : s.relays = #[r]) {path : NamePath} {suppress : Bool} {id : NodeId}
    (hdue : s.createDue? r.config path suppress id = none) :
    ((wrap 0 path suppress id).exec s).2 =
      if r.isActive suppress then s else { s with layers := (id, none) :: s.layers } := by
  split
  · rename_i hactive
    rw [createDue?, if_pos (show (r.config.isActive && !suppress) = true from hactive)] at hdue
    cases hnode : s.store.get? id with
    | none => rw [exec_wrap_missing h hactive path hnode]
    | some node =>
      rw [exec_wrap_active h hactive path hnode]
      rw [hnode, Option.bind_eq_bind, Option.bind_some] at hdue
      cases hproperties : s.store.encodeProperties r.config.maxDepth s.announcement? id
          node.properties with
      | error e => rfl
      | ok properties =>
        rw [hproperties] at hdue
        cases hdue
  · rename_i hinactive
    rw [exec_wrap_inactive h (Bool.eq_false_iff.2 hinactive)]

/-! ## Calling -/

/-- The layers around a node of which there is at most one. -/
def SingleLayer (layers : List (Option Layer)) : Prop :=
  layers = [] ∨ layers = [none] ∨ ∃ c, layers = [some ⟨0, c⟩]

theorem invoke_private {id : NodeId} {method : String} (h : isPrivate method = true)
    (args : List Value) :
    (invoke id method args).exec s = (onStore (Store.call id method args)).exec s := by
  unfold invoke
  rw [h]
  rfl

/-- A method that is not private is called after the call was sent on, if that succeeds. -/
theorem invoke_public {id : NodeId} {method : String} (h : isPrivate method = false)
    (args : List Value) :
    (invoke id method args).exec s =
      match (sendCalls id method args (s.layersOf id)).exec s with
      | (.ok (), s') => (onStore (Store.call id method args)).exec s'
      | (.error e, s') => (.error e, s') := by
  unfold invoke
  rw [h]
  refine (Task.exec_get_bind _ s).trans ((Task.exec_bind _ _ s).trans ?_)
  rcases (sendCalls id method args (s.layersOf id)).exec s with ⟨e | u, s'⟩
  · rfl
  · rfl

theorem sendCall_unannounced (h : s.relays = #[r]) {id : NodeId}
    (ha : r.hasAnnounced id = false) (method : String) (args : List Value) (c : Create) :
    (sendCall id method args ⟨0, c⟩).exec s = (.ok (), s) := by
  unfold sendCall
  rw [Task.exec_get_bind]
  simp only [relays_zero h, ha]
  rfl

theorem sendCall_announced (h : s.relays = #[r]) {id : NodeId}
    (ha : r.hasAnnounced id = true) (method : String) (args : List Value) (c : Create) :
    (sendCall id method args ⟨0, c⟩).exec s =
      match s.store.encodeArgs r.config.maxDepth id args with
      | .ok snapshots =>
        (.ok (), { s with relays := #[(r.send (.call ⟨id, method, snapshots⟩)).2] })
      | .error e => (.error e, s) := by
  unfold sendCall
  rw [Task.exec_get_bind]
  simp only [relays_zero h, ha, if_true]
  rw [Task.exec_bind, Task.exec_ofExcept]
  rcases s.store.encodeArgs r.config.maxDepth id args with e | snapshots
  · rfl
  · simp only
    rw [Task.exec_modify, modifyRelay_zero h]

/-! ## Calling through several layers -/

theorem sendCalls_cons (id : NodeId) (method : String) (args : List Value) (layer : Layer)
    (layers : List (Option Layer)) :
    (sendCalls id method args (some layer :: layers)).exec s =
      match (sendCall id method args layer).exec s with
      | (.ok (), s') => (sendCalls id method args layers).exec s'
      | (.error e, s') => (.error e, s') := by
  rw [sendCalls, Task.exec_bind]
  rcases (sendCall id method args layer).exec s with ⟨e | u, s'⟩
  · rfl
  · rfl

theorem sendCalls_single (id : NodeId) (method : String) (args : List Value) (layer : Layer) :
    (sendCalls id method args [some layer]).exec s = (sendCall id method args layer).exec s := by
  rw [sendCalls_cons]
  rcases (sendCall id method args layer).exec s with ⟨e | u, s'⟩
  · rfl
  · rfl

variable {id : NodeId} {args : List Value} {layers : List (Option Layer)}

theorem sendCalls_unannounced (h : s.relays = #[r]) (ha : r.hasAnnounced id = false)
    (hl : ∀ l, some l ∈ layers → l.relay = 0) (method : String) :
    (sendCalls id method args layers).exec s = (.ok (), s) := by
  induction layers with
  | nil => rfl
  | cons layer layers ih =>
    have ih := ih fun l hmem => hl l (List.mem_cons_of_mem layer hmem)
    cases layer with
    | none => exact ih
    | some l =>
      obtain ⟨number, c⟩ := l
      obtain rfl : number = 0 := hl _ List.mem_cons_self
      rw [sendCalls_cons, sendCall_unannounced h ha]
      exact ih

/-- If the arguments can be copied for one layer they can be for all of them, and a call through
them fails in none. -/
theorem sendCalls_copied (h : s.relays = #[r]) (ha : r.hasAnnounced id = true)
    (hl : ∀ l, some l ∈ layers → l.relay = 0) {snapshots : List Snapshot}
    (hargs : s.store.encodeArgs r.config.maxDepth id args = .ok snapshots) (method : String) :
    ∃ r', (sendCalls id method args layers).exec s = (.ok (), { s with relays := #[r'] }) := by
  induction layers generalizing s r with
  | nil => exact ⟨r, by rw [← h]; rfl⟩
  | cons layer layers ih =>
    have hl' (l : Layer) (hmem : some l ∈ layers) : l.relay = 0 :=
      hl l (List.mem_cons_of_mem layer hmem)
    cases layer with
    | none => exact ih h ha hl' hargs
    | some l =>
      obtain ⟨number, c⟩ := l
      obtain rfl : number = 0 := hl _ List.mem_cons_self
      rw [sendCalls_cons, sendCall_announced h ha, hargs]
      obtain ⟨hconfig, hannounced⟩ := r.kept_send (.call ⟨id, method, snapshots⟩)
      refine ih (s := { s with relays := #[(r.send (.call ⟨id, method, snapshots⟩)).2] }) rfl ?_
        hl' ?_
      · rw [Relay.hasAnnounced, hannounced]
        exact ha
      · rw [hconfig]
        exact hargs

/-- If they cannot be copied, no layer sends anything. -/
theorem sendCalls_refused (h : s.relays = #[r]) (ha : r.hasAnnounced id = true)
    (hl : ∀ l, some l ∈ layers → l.relay = 0) {e : Fault}
    (hargs : s.store.encodeArgs r.config.maxDepth id args = .error e) (method : String) :
    (sendCalls id method args layers).exec s = (.ok (), s) ∨
      (sendCalls id method args layers).exec s = (.error e, s) := by
  induction layers with
  | nil => exact Or.inl rfl
  | cons layer layers ih =>
    cases layer with
    | none => exact ih fun l hmem => hl l (List.mem_cons_of_mem none hmem)
    | some l =>
      obtain ⟨number, c⟩ := l
      obtain rfl : number = 0 := hl _ List.mem_cons_self
      rw [sendCalls_cons, sendCall_announced h ha, hargs]
      exact Or.inr rfl

/-- An invocation calls the method and changes the relay at most, or fails because the arguments
cannot be copied and changes nothing. -/
theorem invoke_outcome (h : s.relays = #[r]) (hl : ∀ l, some l ∈ s.layersOf id → l.relay = 0)
    (method : String) (args : List Value) :
    (∃ r', (invoke id method args).exec s =
      (onStore (Store.call id method args)).exec { s with relays := #[r'] }) ∨
    ∃ e, s.store.encodeArgs r.config.maxDepth id args = .error e ∧
      (invoke id method args).exec s = (.error e, s) := by
  have hsame : { s with relays := #[r] } = s := by rw [← h]
  cases hprivate : isPrivate method with
  | true => exact Or.inl ⟨r, by rw [hsame, invoke_private hprivate]⟩
  | false =>
    rw [invoke_public hprivate]
    cases ha : r.hasAnnounced id with
    | false => exact Or.inl ⟨r, by rw [hsame, sendCalls_unannounced h ha hl]⟩
    | true =>
      cases hargs : s.store.encodeArgs r.config.maxDepth id args with
      | ok snapshots =>
        obtain ⟨r', hsent⟩ := sendCalls_copied h ha hl hargs method
        exact Or.inl ⟨r', by rw [hsent]⟩
      | error e =>
        rcases sendCalls_refused h ha hl hargs method with hsent | hsent
        · exact Or.inl ⟨r, by rw [hsame, hsent]⟩
        · exact Or.inr ⟨e, rfl, by rw [hsent]⟩

theorem sendCalls_silent (hl : ∀ l, some l ∉ layers) (method : String) :
    (sendCalls id method args layers).exec s = (.ok (), s) := by
  induction layers with
  | nil => rfl
  | cons layer layers ih =>
    cases layer with
    | none => exact ih fun l hmem => hl l (List.mem_cons_of_mem none hmem)
    | some l => exact absurd List.mem_cons_self (hl l)

/-- Layers that send nothing leave a call alone. -/
theorem invoke_silent (hl : ∀ l, some l ∉ s.layersOf id) (method : String) (args : List Value) :
    (invoke id method args).exec s = (onStore (Store.call id method args)).exec s := by
  cases hprivate : isPrivate method with
  | true => exact invoke_private hprivate args
  | false => rw [invoke_public hprivate, sendCalls_silent hl]

/-! ## Calling through one layer -/

/-- An invocation of a private method, or of a node that was not announced, sends nothing. -/
theorem invoke_idle (h : s.relays = #[r]) {id : NodeId} (hl : SingleLayer (s.layersOf id))
    {method : String} (hidle : (!isPrivate method && r.hasAnnounced id) = false)
    (args : List Value) :
    (invoke id method args).exec s = (onStore (Store.call id method args)).exec s := by
  cases hpublic : isPrivate method with
  | true => exact invoke_private hpublic args
  | false =>
    rw [hpublic, Bool.not_false, Bool.true_and] at hidle
    rw [invoke_public hpublic]
    rcases hl with hl | hl | ⟨c, hl⟩ <;> rw [hl]
    · rfl
    · rfl
    · rw [sendCalls_single, sendCall_unannounced h hidle]

/-- A call on an announced node whose arguments can be copied is sent, and then made. -/
theorem invoke_due (h : s.relays = #[r]) {id : NodeId} {c : Create}
    (hl : s.layersOf id = [some ⟨0, c⟩]) {method : String} {args : List Value} {call : Call}
    (hdue : s.callDue? r.config (r.hasAnnounced id) id method args = some call) :
    (invoke id method args).exec s =
      (onStore (Store.call id method args)).exec
        { s with relays := #[(r.send (.call call)).2] } := by
  unfold callDue? at hdue
  split at hdue
  · rename_i hsends
    obtain ⟨hpublic, hannounced⟩ := Bool.and_eq_true_iff.1 hsends
    obtain ⟨snapshots, hsnapshots, hcall⟩ := Option.bind_eq_some_iff.1 hdue
    cases hcall
    rw [invoke_public (Bool.not_eq_true' _ ▸ hpublic), hl, sendCalls_single,
      sendCall_announced h hannounced, Task.eq_ok_of_toOption hsnapshots]
  · cases hdue

/-- A call on an announced node whose arguments cannot be copied fails and changes nothing. -/
theorem invoke_refused (h : s.relays = #[r]) {id : NodeId} {c : Create}
    (hl : s.layersOf id = [some ⟨0, c⟩]) {method : String}
    (hsends : (!isPrivate method && r.hasAnnounced id) = true) {args : List Value}
    (hdue : s.callDue? r.config (r.hasAnnounced id) id method args = none) :
    ((invoke id method args).exec s).2 = s := by
  rw [callDue?, if_pos hsends] at hdue
  obtain ⟨hpublic, hannounced⟩ := Bool.and_eq_true_iff.1 hsends
  rw [invoke_public (Bool.not_eq_true' _ ▸ hpublic), hl, sendCalls_single,
    sendCall_announced h hannounced]
  cases hargs : s.store.encodeArgs r.config.maxDepth id args with
  | error e => rfl
  | ok snapshots =>
    rw [hargs] at hdue
    cases hdue

end Session

end Patchbay
