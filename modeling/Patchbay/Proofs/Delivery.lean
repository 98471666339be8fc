import Patchbay.Proofs.Session

/-!
# What arrives of a session

A session with one relay, whose posts get lost in any pattern, makes nodes, wraps them and calls
their methods in any order. Its log is what arrived, in the order in which it was sent:

* `Delivery.posts`: the posts of a run, from what each action has to send;
* `Delivery.Invariant`: what links the log, the announced nodes and the layers, kept by every
  action (`Delivery.Invariant.exec`);
* `Delivery.log_of_run`: the relay delivers exactly those posts that do not get lost, a call
  arrives only after the one announcement of its node, and none arrives for a node whose
  announcement got lost.
-/

namespace Patchbay

/-- Whether a message announces the node `id`. -/
def Message.announces (id : NodeId) (message : Message) : Bool :=
  message.isCreate && message.object == id

@[simp] theorem Message.announces_create (id : NodeId) (c : Create) :
    (Message.create c).announces id = (c.id == id) := rfl

@[simp] theorem Message.announces_call (id : NodeId) (c : Call) :
    (Message.call c).announces id = false := rfl

namespace Delivery

/-! ## Runs and their posts -/

/-- What happens in a session: a node is wrapped, a method is called, or anything is done to the
nodes without the relay. -/
inductive Action where
  | work (task : Task Store Unit)
  | wrap (path : NamePath) (suppress : Bool) (id : NodeId)
  | invoke (id : NodeId) (method : String) (args : List Value)

/-- A message sent, and whether it arrived. -/
structure Post where
  message : Message
  arrived : Bool

/-- The messages that arrived, in the order in which they were sent. -/
def log (sent : List Post) : List Message := (sent.filter Post.arrived).map Post.message

/-- The posts after one more message, the numbers of the lost ones being given. -/
def post (lost : List Nat) (sent : List Post) (message : Message) : List Post :=
  sent ++ [⟨message, decide (sent.length ∉ lost)⟩]

namespace Action

/-- The session after an action, which may fail. -/
def exec : Action → Session → Session
  | work task, s => ((Session.onStore task).exec s).2
  | wrap path suppress id, s => ((Session.wrap 0 path suppress id).exec s).2
  | invoke id method args, s => ((Session.invoke id method args).exec s).2

/-- The node that an action wraps. -/
def wrapped? : Action → Option NodeId
  | wrap _ _ id => some id
  | _ => none

/-- The message that an action has to send: the announcement of an active wrap whose properties
can be copied, or a call that is not private, on a node whose announcement has arrived, whose
arguments can be copied. -/
def due? (config : Config) (s : Session) (sent : List Post) : Action → Option Message
  | work _ => none
  | wrap path suppress id => (s.createDue? config path suppress id).map .create
  | invoke id method args =>
    (s.callDue? config ((log sent).any (Message.announces id)) id method args).map .call

end Action

/-- The session after a script. -/
def run (s : Session) (script : List Action) : Session := script.foldl (fun s a => a.exec s) s

/-- The posts of a script after those sent before it. -/
def posts (config : Config) (lost : List Nat) : Session → List Post → List Action → List Post
  | _, sent, [] => sent
  | s, sent, a :: rest =>
    posts config lost (a.exec s) ((a.due? config s sent).elim sent (post lost sent)) rest

/-- A session with one relay that has sent nothing, before any node is wrapped. -/
def session (config : Config) (lost : List Nat) (store : Store) (replica : Replica) : Session :=
  ⟨store, [], #[.start config (.channel .context (some [])) lost], replica⟩

/-! ## The log -/

variable {lost : List Nat} {sent : List Post}

theorem log_post (lost : List Nat) (sent : List Post) (message : Message) :
    log (post lost sent message) =
      if sent.length ∈ lost then log sent else log sent ++ [message] := by
  unfold log post
  rw [List.filter_append, List.map_append]
  split
  · rename_i h
    simp [h]
  · rename_i h
    simp [h]

theorem length_post (lost : List Nat) (sent : List Post) (message : Message) :
    (post lost sent message).length = sent.length + 1 := by
  rw [post, List.length_append]
  rfl

theorem not_announces_post {id : NodeId} {message : Message}
    (hsent : ∀ p ∈ sent, p.message.announces id = false) (hmessage : message.announces id = false) :
    ∀ p ∈ post lost sent message, p.message.announces id = false := by
  intro p hp
  rcases List.mem_append.1 hp with hp | hp
  · exact hsent p hp
  · rw [List.mem_singleton.1 hp]
    exact hmessage

theorem mem_log {message : Message} : message ∈ log sent ↔ ⟨message, true⟩ ∈ sent := by
  unfold log
  rw [List.mem_map]
  constructor
  · rintro ⟨⟨m, arrived⟩, hp, rfl⟩
    obtain ⟨hmem, harrived⟩ := List.mem_filter.1 hp
    rw [show arrived = true from harrived] at hmem
    exact hmem
  · intro h
    exact ⟨⟨message, true⟩, List.mem_filter.2 ⟨h, rfl⟩, rfl⟩

theorem countP_log_le (id : NodeId) :
    (log sent).countP (Message.announces id) ≤
      sent.countP (fun p => p.message.announces id) := by
  unfold log
  rw [List.countP_map]
  exact List.Sublist.countP_le List.filter_sublist

/-- Every call comes after an announcement of its node. -/
def Ordered (log : List Message) : Prop :=
  ∀ before call after, log = before ++ .call call :: after →
    before.any (Message.announces call.object) = true

theorem Ordered.append {log : List Message} (h : Ordered log) {message : Message}
    (hcall : ∀ call, message = .call call → log.any (Message.announces call.object) = true) :
    Ordered (log ++ [message]) := by
  intro before call after heq
  rcases List.eq_nil_or_concat after with rfl | ⟨after, last, rfl⟩
  · obtain ⟨rfl, hlast⟩ := List.append_inj' heq rfl
    cases hlast
    exact hcall call rfl
  · rw [List.concat_eq_append, ← List.cons_append, ← List.append_assoc] at heq
    obtain ⟨hlog, -⟩ := List.append_inj' heq rfl
    exact h before call after hlog

/-- A call that arrived comes after exactly one announcement if there is at most one. -/
theorem Ordered.countP {log before after : List Message} {call : Call} (h : Ordered log)
    (hlog : log = before ++ .call call :: after)
    (honce : log.countP (Message.announces call.object) ≤ 1) :
    before.countP (Message.announces call.object) = 1 := by
  obtain ⟨m, hm, hannounces⟩ := List.any_eq_true.1 (h before call after hlog)
  have hpos := List.countP_pos_iff.2 ⟨m, hm, hannounces⟩
  rw [hlog, List.countP_append] at honce
  omega

/-! ## The relay -/

/-- The relay of a session after the given posts. -/
structure Sends (config : Config) (lost : List Nat) (sent : List Post) (r : Relay) : Prop where
  config_eq : r.config = config
  outlet : r.outlet = .channel .context (some (log sent))
  lost_eq : r.lost = lost
  sent_eq : r.sent = sent.length
  hasAnnounced : ∀ id, r.hasAnnounced id = (log sent).any (Message.announces id)

variable {config : Config} {r : Relay}

theorem Sends.posted (h : Sends config lost sent r) {message : Message}
    (hannounced : ∀ id,
      r.hasAnnounced id = (log (post lost sent message)).any (Message.announces id)) :
    Sends config lost (post lost sent message) (r.posted (log sent) message) := by
  refine ⟨h.config_eq, ?_, h.lost_eq, ?_, hannounced⟩
  · rw [log_post, Relay.posted, h.sent_eq, h.lost_eq]
  · rw [length_post, ← h.sent_eq]
    rfl

theorem Sends.call (h : Sends config lost sent r) (call : Call) :
    Sends config lost (post lost sent (.call call)) (r.send (.call call)).2 := by
  rw [Relay.send_channel h.outlet]
  refine h.posted fun id => ?_
  rw [h.hasAnnounced, log_post]
  split
  · rfl
  · simp

theorem Sends.create (h : Sends config lost sent r) (c : Create) :
    Sends config lost (post lost sent (.create c)) (r.sendCreate c) := by
  rw [Relay.sendCreate_channel h.outlet, h.sent_eq, h.lost_eq]
  split
  · rename_i hlost
    refine h.posted fun id => ?_
    rw [h.hasAnnounced, log_post, if_pos hlost]
  · rename_i harrives
    have hlog : log (post lost sent (.create c)) = log sent ++ [.create c] := by
      rw [log_post, if_neg harrives]
    refine ⟨?_, ?_, ?_, ?_, fun id => ?_⟩
    · rw [Relay.announce_eq]
      exact h.config_eq
    · rw [Relay.announce_eq, hlog]
      show Outlet.channel .context (some (if r.sent ∈ r.lost then _ else _)) = _
      rw [h.sent_eq, h.lost_eq, if_neg harrives]
    · rw [Relay.announce_eq]
      exact h.lost_eq
    · rw [Relay.announce_eq, length_post, ← h.sent_eq]
      rfl
    · have hlast : [Message.create c].any (Message.announces id) = true ↔ id = c.id := by
        rw [List.any_cons, List.any_nil, Bool.or_false, Message.announces_create, beq_iff_eq]
        exact eq_comm
      rw [Bool.eq_iff_iff, Relay.hasAnnounced_announce, hlog, List.any_append, Bool.or_eq_true,
        ← h.hasAnnounced, hlast]
      exact or_comm

/-! ## The invariant -/

/-- What links the posts of a run, the relay, and the layers, `wrapped` being the nodes that have
been wrapped: a node has one layer at most, and a layer that sends if its announcement arrived. -/
structure Invariant (config : Config) (lost : List Nat) (sent : List Post) (wrapped : List NodeId)
    (s : Session) : Prop where
  relay : ∃ r, s.relays = #[r] ∧ Sends config lost sent r
  single : ∀ id, Session.SingleLayer (s.layersOf id)
  announced : ∀ id, (log sent).any (Message.announces id) = true →
    ∃ c, s.layersOf id = [some ⟨0, c⟩]
  fresh : ∀ id, id ∉ wrapped →
    s.layersOf id = [] ∧ ∀ p ∈ sent, p.message.announces id = false
  once : ∀ id, sent.countP (fun p => p.message.announces id) ≤ 1
  ordered : Ordered (log sent)

variable {wrapped : List NodeId} {s : Session}

theorem invariant_session (config : Config) (lost : List Nat) (store : Store) (replica : Replica) :
    Invariant config lost [] [] (session config lost store replica) where
  relay := ⟨_, rfl, rfl, rfl, rfl, rfl, fun _ => rfl⟩
  single _ := Or.inl rfl
  announced _ h := absurd h (by simp [log])
  fresh _ _ := ⟨rfl, fun p hp => absurd hp (List.not_mem_nil)⟩
  once _ := Nat.zero_le _
  ordered before call after h := by
    rw [log, List.filter_nil, List.map_nil] at h
    cases before <;> cases h

/-- An action that neither sends nor wraps. -/
theorem Invariant.of_eq (h : Invariant config lost sent wrapped s) {s' : Session}
    (hrelays : s'.relays = s.relays) (hlayers : s'.layers = s.layers) :
    Invariant config lost sent wrapped s' := by
  have hlayersOf := Session.layersOf_congr hlayers
  refine ⟨?_, ?_, ?_, ?_, h.once, h.ordered⟩
  · rw [hrelays]
    exact h.relay
  · rw [hlayersOf]
    exact h.single
  · rw [hlayersOf]
    exact h.announced
  · rw [hlayersOf]
    exact h.fresh

theorem Invariant.mono (h : Invariant config lost sent wrapped s) {wrapped' : List NodeId}
    (hsub : wrapped ⊆ wrapped') : Invariant config lost sent wrapped' s :=
  { h with fresh := fun id hid => h.fresh id fun hmem => hid (hsub hmem) }

/-- A call that is due is sent. -/
theorem Invariant.call (h : Invariant config lost sent wrapped s) {call : Call}
    (hannounced : (log sent).any (Message.announces call.object) = true) {s' : Session}
    (hrelays : ∀ r, s.relays = #[r] → s'.relays = #[(r.send (.call call)).2])
    (hlayers : s'.layers = s.layers) :
    Invariant config lost (post lost sent (.call call)) wrapped s' := by
  have hannounces (id : NodeId) :
      (log (post lost sent (.call call))).any (Message.announces id) =
        (log sent).any (Message.announces id) := by
    rw [log_post]
    split
    · rfl
    · simp
  have hlayersOf := Session.layersOf_congr hlayers
  obtain ⟨r, hr, hsends⟩ := h.relay
  refine ⟨⟨_, hrelays r hr, hsends.call call⟩, ?_, ?_, ?_, fun id => ?_, ?_⟩
  · rw [hlayersOf]
    exact h.single
  · intro id hid
    rw [hlayersOf]
    exact h.announced id (hannounces id ▸ hid)
  · intro id hid
    rw [hlayersOf]
    exact ⟨(h.fresh id hid).1, not_announces_post (h.fresh id hid).2 rfl⟩
  · rw [post, List.countP_append]
    exact h.once id
  · rw [log_post]
    split
    · exact h.ordered
    · refine h.ordered.append fun call' heq => ?_
      cases heq
      exact hannounced

/-- A node that is wrapped for the first time has one layer then. -/
theorem Invariant.layersOf_cons (h : Invariant config lost sent wrapped s) {id : NodeId}
    (hfresh : id ∉ wrapped) {layer : Option Layer} {s' : Session}
    (hlayers : s'.layers = (id, layer) :: s.layers) (other : NodeId) :
    s'.layersOf other = if id = other then [layer] else s.layersOf other := by
  rw [Session.layersOf_cons hlayers]
  split
  · rename_i hid
    rw [← hid, (h.fresh id hfresh).1]
  · rfl

/-- An announcement that is due is sent. -/
theorem Invariant.create (h : Invariant config lost sent wrapped s) {c : Create}
    (hfresh : c.id ∉ wrapped) {s' : Session}
    (hrelays : ∀ r, s.relays = #[r] → s'.relays = #[r.sendCreate c])
    (hlayers : s'.layers = (c.id, some ⟨0, c⟩) :: s.layers) :
    Invariant config lost (post lost sent (.create c)) (c.id :: wrapped) s' := by
  have hlayersOf := h.layersOf_cons hfresh hlayers
  obtain ⟨r, hr, hsends⟩ := h.relay
  refine ⟨⟨_, hrelays r hr, hsends.create c⟩, fun id => ?_, fun id hid => ?_, fun id hid => ?_,
    fun id => ?_, ?_⟩
  · rw [hlayersOf]
    split
    · exact Or.inr (Or.inr ⟨c, rfl⟩)
    · exact h.single id
  · rw [hlayersOf]
    split
    · exact ⟨c, rfl⟩
    · rename_i hne
      refine h.announced id ?_
      rw [log_post] at hid
      split at hid
      · exact hid
      · simpa [hne] using hid
  · obtain ⟨hne, hid⟩ := not_or.1 fun h => hid (List.mem_cons.2 h)
    rw [hlayersOf, if_neg (Ne.symm hne)]
    exact ⟨(h.fresh id hid).1, not_announces_post (h.fresh id hid).2 (by simpa using Ne.symm hne)⟩
  · rw [post, List.countP_append]
    by_cases hid : c.id = id
    · have hnone : sent.countP (fun p => p.message.announces id) = 0 := by
        refine List.countP_eq_zero.2 fun p hp => ?_
        rw [(h.fresh id (hid ▸ hfresh)).2 p hp]
        exact Bool.false_ne_true
      rw [hnone]
      simp [hid]
    · have := h.once id
      simpa [hid] using this
  · rw [log_post]
    split
    · exact h.ordered
    · exact h.ordered.append fun call heq => nomatch heq

/-- A wrap without an announcement that is due. -/
theorem Invariant.idle (h : Invariant config lost sent wrapped s) {id : NodeId}
    (hfresh : id ∉ wrapped) {s' : Session} (hrelays : s'.relays = s.relays)
    (hlayers : s'.layers = (id, none) :: s.layers) :
    Invariant config lost sent (id :: wrapped) s' := by
  have hlayersOf := h.layersOf_cons hfresh hlayers
  refine ⟨?_, fun other => ?_, fun other hother => ?_, fun other hother => ?_, h.once, h.ordered⟩
  · rw [hrelays]
    exact h.relay
  · rw [hlayersOf]
    split
    · exact Or.inr (Or.inl rfl)
    · exact h.single other
  · rw [hlayersOf]
    split
    · rename_i hid
      obtain ⟨m, hm, hannounces⟩ := List.any_eq_true.1 hother
      rw [(h.fresh other (hid ▸ hfresh)).2 _ (mem_log.1 hm)] at hannounces
      cases hannounces
    · exact h.announced other hother
  · obtain ⟨hne, hid⟩ := not_or.1 fun h => hother (List.mem_cons.2 h)
    rw [hlayersOf, if_neg (Ne.symm hne)]
    exact h.fresh other hid

theorem Invariant.exec_wrap (h : Invariant config lost sent wrapped s) (path : NamePath)
    (suppress : Bool) {id : NodeId} (hfresh : id ∉ wrapped) :
    Invariant config lost
      (((Action.wrap path suppress id).due? config s sent).elim sent (post lost sent))
      (id :: wrapped) ((Action.wrap path suppress id).exec s) := by
  obtain ⟨r, hr, hsends⟩ := h.relay
  obtain rfl := hsends.config_eq
  simp only [Action.due?, Action.exec]
  cases hdue : s.createDue? r.config path suppress id with
  | some c =>
    obtain rfl := Session.createDue?_id hdue
    rw [Session.wrap_due hr hdue]
    refine h.create hfresh (fun r' hr' => ?_) rfl
    rw [hr] at hr'
    cases hr'
    rfl
  | none =>
    rw [Session.wrap_idle hr hdue]
    split
    · exact h.mono (List.subset_cons_self id wrapped)
    · exact h.idle hfresh rfl rfl

theorem Invariant.exec_invoke (h : Invariant config lost sent wrapped s) (id : NodeId)
    (method : String) (args : List Value) :
    Invariant config lost
      (((Action.invoke id method args).due? config s sent).elim sent (post lost sent))
      wrapped ((Action.invoke id method args).exec s) := by
  obtain ⟨r, hr, hsends⟩ := h.relay
  obtain rfl := hsends.config_eq
  simp only [Action.due?, Action.exec, ← hsends.hasAnnounced]
  cases hdue : s.callDue? r.config (r.hasAnnounced id) id method args with
  | some call =>
    obtain ⟨hpublic, rfl⟩ := Session.callDue?_eq_some hdue
    have hannounced := (Bool.and_eq_true_iff.1 hpublic).2
    rw [hsends.hasAnnounced] at hannounced
    obtain ⟨c, hl⟩ := h.announced _ hannounced
    rw [Session.invoke_due hr hl hdue]
    refine h.call hannounced (fun r' hr' => ?_) rfl
    rw [hr] at hr'
    cases hr'
    rfl
  | none =>
    cases hpublic : !Session.isPrivate method && r.hasAnnounced id with
    | true =>
      have hannounced := (Bool.and_eq_true_iff.1 hpublic).2
      rw [hsends.hasAnnounced] at hannounced
      obtain ⟨c, hl⟩ := h.announced _ hannounced
      rw [Session.invoke_refused hr hl hpublic hdue]
      exact h
    | false =>
      rw [Session.invoke_idle hr (h.single id) hpublic]
      exact h.of_eq rfl rfl

/-- Every action keeps the invariant if it wraps no node a second time. -/
theorem Invariant.exec (h : Invariant config lost sent wrapped s) (a : Action)
    (hfresh : ∀ id ∈ a.wrapped?, id ∉ wrapped) :
    Invariant config lost ((a.due? config s sent).elim sent (post lost sent))
      (a.wrapped?.toList ++ wrapped) (a.exec s) := by
  cases a with
  | work task => exact h.of_eq rfl rfl
  | wrap path suppress id => exact h.exec_wrap path suppress (hfresh id rfl)
  | invoke id method args => exact h.exec_invoke id method args

/-- So does every script that wraps no node a second time. -/
theorem Invariant.run (script : List Action) :
    ∀ {sent : List Post} {wrapped : List NodeId} {s : Session},
      Invariant config lost sent wrapped s → (script.filterMap Action.wrapped?).Nodup →
      (∀ id ∈ script.filterMap Action.wrapped?, id ∉ wrapped) →
      ∃ wrapped', Invariant config lost (posts config lost s sent script) wrapped'
        (Delivery.run s script) := by
  induction script with
  | nil => exact fun h _ _ => ⟨_, h⟩
  | cons a script ih =>
    intro sent wrapped s h hnodup hfresh
    cases hwrapped : a.wrapped? with
    | none =>
      rw [List.filterMap_cons_none hwrapped] at hnodup hfresh
      have hstep := h.exec a fun id hid => by
        rw [hwrapped] at hid
        cases hid
      rw [hwrapped] at hstep
      exact ih hstep hnodup hfresh
    | some id =>
      rw [List.filterMap_cons_some hwrapped] at hnodup hfresh
      obtain ⟨hid, hnodup⟩ := List.nodup_cons.1 hnodup
      have hstep := h.exec a fun id' hid' => by
        rw [hwrapped] at hid'
        cases hid'
        exact hfresh id List.mem_cons_self
      rw [hwrapped] at hstep
      refine ih hstep hnodup fun other hother hmem => ?_
      rcases List.mem_cons.1 hmem with rfl | hmem
      · exact hid hother
      · exact hfresh other (List.mem_cons_of_mem id hother) hmem

/-- No announcement arrives of a node whose announcement got lost. -/
theorem Invariant.not_announced (h : Invariant config lost sent wrapped s) {c : Create}
    (hc : ⟨.create c, false⟩ ∈ sent) : (log sent).any (Message.announces c.id) = false := by
  rw [List.any_eq_false]
  intro m hm hannounces
  have hm := mem_log.1 hm
  obtain ⟨before, after, hsent⟩ := List.append_of_mem hc
  have honce := h.once c.id
  rw [hsent] at hm honce
  have hother : ⟨m, true⟩ ∈ before ++ after := by
    rcases List.mem_append.1 hm with hm | hm
    · exact List.mem_append_left after hm
    · rcases List.mem_cons.1 hm with hm | hm
      · cases hm
      · exact List.mem_append_right before hm
  have hpos : 0 < (before ++ after).countP (fun p => p.message.announces c.id) :=
    List.countP_pos_iff.2 ⟨_, hother, hannounces⟩
  rw [List.countP_append] at hpos
  rw [List.countP_append, List.countP_cons_of_pos (by simp)] at honce
  omega

/-- What arrives of a run in which no node is wrapped twice, whatever gets lost on the way: of the
posts that the actions give a reason for, in their order, those that do not get lost; a call only
after exactly one announcement of its node; and no call for a node whose announcement got lost. -/
theorem log_of_run (config : Config) (lost : List Nat) (store : Store) (replica : Replica)
    (script : List Action) (hnodup : (script.filterMap Action.wrapped?).Nodup) :
    let sent := posts config lost (session config lost store replica) [] script
    (∃ r, (run (session config lost store replica) script).relays = #[r] ∧
      r.outlet = .channel .context (some (log sent)) ∧ r.sent = sent.length) ∧
    (∀ before call after, log sent = before ++ .call call :: after →
      before.countP (Message.announces call.object) = 1 ∧
      (log sent).countP (Message.announces call.object) = 1) ∧
    (∀ c, ⟨.create c, false⟩ ∈ sent → ∀ call, .call call ∈ log sent → call.object ≠ c.id) := by
  intro sent
  obtain ⟨wrapped, h⟩ := Invariant.run script (invariant_session config lost store replica) hnodup
    fun id _ => List.not_mem_nil
  have honce (id : NodeId) : (log sent).countP (Message.announces id) ≤ 1 :=
    Nat.le_trans (countP_log_le id) (h.once id)
  refine ⟨?_, fun before call after hlog => ?_, fun c hc call hcall hid => ?_⟩
  · obtain ⟨r, hr, hsends⟩ := h.relay
    exact ⟨r, hr, hsends.outlet, hsends.sent_eq⟩
  · have hbefore := h.ordered.countP hlog (honce _)
    refine ⟨hbefore, Nat.le_antisymm (honce _) ?_⟩
    rw [hlog, List.countP_append, hbefore]
    exact Nat.le_add_right 1 _
  · obtain ⟨before, after, hlog⟩ := List.append_of_mem hcall
    have hbefore := h.ordered before call after hlog
    have hnone := h.not_announced hc
    rw [hlog, List.any_append, ← hid, hbefore] at hnone
    cases hnone

/-- A node is wrapped and called twice, and the first call gets lost. -/
def lostCall : List Action :=
  [.work (discard (Store.build (Node.chain .add [.bool true]))), .wrap ["Add"] false 1,
    .invoke 1 "set" [.text "gain", .bool true], .invoke 1 "get" [.text "gain"],
    .invoke 1 "__dispose" []]

theorem log_of_lostCall :
    (lostCall.filterMap Action.wrapped?).Nodup ∧
    let sent := posts .worklet [1] (session .worklet [1] .empty .empty) [] lostCall
    sent.map Post.arrived = [true, false, true] ∧
    (log sent).map Message.isCreate = [true, false] ∧
    (∃ r, (run (session .worklet [1] .empty .empty) lostCall).relays = #[r] ∧
      r.outlet = .channel .context (some (log sent)) ∧ r.sent = sent.length) := by
  refine ⟨by decide, ?_, ?_, ?_⟩
  · decide +kernel
  · decide +kernel
  · exact (log_of_run .worklet [1] .empty .empty lostCall (by decide)).1

end Delivery

end Patchbay
