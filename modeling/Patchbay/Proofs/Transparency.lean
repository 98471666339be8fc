import Patchbay.Proofs.Closed
import Patchbay.Proofs.Session

/-!
# Relays and the nodes behind them

Nodes are made, wrapped, called, compiled and sampled, in a session whose relay loses whatever it
may, and the same is done once more in a session whose relay sends nothing. Neither makes more of
an action than the store alone does, unless a copy nests too deep.

* `Action.plain`: what an action does in a store alone, where a wrap does nothing;
* `Sending.exec`: an action in a session with a relay either has a copy that nests too deep, and
  changes nothing at all, or does what it does in the store alone;
* `Silent.exec`: in a session whose relay is silent, an action does what it does in the store alone;
* `answers_of_silent`: so the two sessions give the same answers and end with the same nodes.
-/

namespace Patchbay.Transparency

/-! ## Actions -/

/-- What is done in a session. -/
inductive Action where
  | make (maker : Maker)
  | wrap (path : NamePath) (suppress : Bool) (id : NodeId)
  | invoke (id : NodeId) (method : String) (args : List Value)
  | compile (limit : Nat) (id : NodeId)
  | compileApart (limit : Nat) (id : NodeId)
  | tick (limit : Nat) (id : NodeId)

/-- What an action gives. A wrap gives the node that it is given; its layer is no part of that. -/
inductive Answer where
  | made (ref : NodeRef)
  | wrapped
  | value (v : Value)
  | text (t : String)
  | number (x : Float)

/-- Whether an action failed because a copy nests too deep. -/
def isOverflow : Except Fault Answer → Bool
  | .ok _ => false
  | .error e => e.isOverflow

namespace Action

/-- The action in a session whose relay is number 0. -/
def task : Action → Task Session Answer
  | make maker => .made <$> Session.onStore (Store.build maker.make)
  | wrap path suppress id => (fun _ => .wrapped) <$> Session.wrap 0 path suppress id
  | invoke id method args => .value <$> Session.invoke id method args
  | compile limit id => .text <$> Session.onStore (Store.compile limit id)
  | compileApart limit id => .text <$> Session.onStore (Store.compileApart limit id)
  | tick limit id => .number <$> Session.onStore (Store.tick limit id)

/-- The action in a store alone. -/
def plain : Action → Task Store Answer
  | make maker => .made <$> Store.build maker.make
  | wrap .. => pure .wrapped
  | invoke id method args => .value <$> Store.call id method args
  | compile limit id => .text <$> Store.compile limit id
  | compileApart limit id => .text <$> Store.compileApart limit id
  | tick limit id => .number <$> Store.tick limit id

/-- The action, with nothing announced by it. -/
def suppressed : Action → Action
  | wrap path _ id => wrap path true id
  | a => a

/-- Whether an action is one that copies values: a wrap or a call. -/
def copies : Action → Bool
  | wrap .. | invoke .. => true
  | _ => false

/-- Whether an action is a wrap or a call that fails because a copy nests too deep. -/
def overflows (s : Session) (a : Action) : Bool := a.copies && isOverflow (a.task.exec s).1

/-- The values that an action passes to a constructor or a method. -/
def given : Action → List Value
  | make maker => maker.values
  | invoke _ _ args => args
  | _ => []

/-- The nodes that an action passes on are there: those that a constructor or a method is given, and
the one that is wrapped. -/
def Known (s : Session) : Action → Prop
  | make maker => s.store.HasAll maker.values
  | wrap _ _ id => s.store.Has id
  | invoke _ _ args => s.store.HasAll args
  | _ => True

instance (s : Session) : (a : Action) → Decidable (a.Known s)
  | make maker => inferInstanceAs (Decidable (s.store.HasAll maker.values))
  | wrap _ _ id => inferInstanceAs (Decidable (s.store.Has id))
  | invoke _ _ args => inferInstanceAs (Decidable (s.store.HasAll args))
  | compile .. | compileApart .. | tick .. => inferInstanceAs (Decidable True)

theorem Known.given {s : Session} {a : Action} (h : a.Known s) :
    ∀ n, .node n ∈ a.given → s.store.Has n.id := by
  cases a with
  | make | invoke => exact h
  | wrap | compile | compileApart | tick => exact nofun

/-- The relay announces nothing for the action. -/
def Idle (r : Relay) : Action → Prop
  | wrap _ suppress _ => r.isActive suppress = false
  | _ => True

/-- The action does in the session what it does in the store alone. -/
def Follows (s : Session) (a : Action) : Prop :=
  (a.task.exec s).1 = (a.plain.exec s.store).1 ∧
    (a.task.exec s).2.store = (a.plain.exec s.store).2

end Action

/-! ## Scripts -/

/-- The answers of the actions of a script, done by `task` one after the other whether they fail or
not, and the state after them. -/
def run {State : Type} (task : Action → Task State Answer) :
    List Action → State → List (Except Fault Answer) × State
  | [], s => ([], s)
  | a :: rest, s =>
    let (answer, s) := (task a).exec s
    let (answers, s) := run task rest s
    (answer :: answers, s)

/-- Each action of a script is one that `P` holds for in the session that it is done in. -/
def Along (P : Session → Action → Prop) : Session → List Action → Prop
  | _, [] => True
  | s, a :: rest => P s a ∧ Along P (a.task.exec s).2 rest

instance decidableAlong (P : Session → Action → Prop) [∀ s a, Decidable (P s a)] :
    (s : Session) → (script : List Action) → Decidable (Along P s script)
  | _, [] => inferInstanceAs (Decidable True)
  | s, a :: rest =>
    have := decidableAlong P (a.task.exec s).2 rest
    inferInstanceAs (Decidable (P s a ∧ Along P (a.task.exec s).2 rest))

/-- A session with one relay and no layers. -/
def session (relay : Relay) (store : Store) : Session := ⟨store, [], #[relay], .empty⟩

variable {s : Session} {r : Relay} {a : Action} {script : List Action}

theorem run_cons {State : Type} (task : Action → Task State Answer) (a : Action)
    (rest : List Action) (s : State) :
    run task (a :: rest) s =
      (((task a).exec s).1 :: (run task rest ((task a).exec s).2).1,
        (run task rest ((task a).exec s).2).2) := rfl

theorem Along.imp₂ {P Q R : Session → Action → Prop} (hP : Along P s script)
    (hQ : Along Q s script) (himp : ∀ s a, P s a → Q s a → R s a) : Along R s script := by
  induction script generalizing s with
  | nil => trivial
  | cons a rest ih => exact ⟨himp s a hP.1 hQ.1, ih hP.2 hQ.2⟩

/-- A run of actions that do what they do in the store alone is the run in the store alone. -/
theorem run_of_follows (h : Along Action.Follows s script) :
    (run Action.task script s).1 = (run Action.plain script s.store).1 ∧
      (run Action.task script s).2.store = (run Action.plain script s.store).2 := by
  induction script generalizing s with
  | nil => exact ⟨rfl, rfl⟩
  | cons a rest ih =>
    obtain ⟨⟨hanswer, hstore⟩, hrest⟩ := h
    obtain ⟨hanswers, hend⟩ := ih hrest
    rw [hstore] at hanswers hend
    rw [run_cons, run_cons, hanswer, hanswers]
    exact ⟨rfl, hend⟩

theorem plain_suppressed (a : Action) : a.suppressed.plain = a.plain := by
  cases a <;> rfl

theorem run_suppressed (script : List Action) (store : Store) :
    run Action.plain (script.map Action.suppressed) store = run Action.plain script store := by
  induction script generalizing store with
  | nil => rfl
  | cons a rest ih => rw [List.map_cons, run_cons, run_cons, plain_suppressed, ih]

/-! ## Single actions -/

/-- Actions other than wraps and calls concern the store alone. -/
theorem exec_task (h : a.copies = false) (s : Session) :
    a.task.exec s = ((a.plain.exec s.store).1, { s with store := (a.plain.exec s.store).2 }) := by
  cases a with
  | make | compile | compileApart | tick =>
    rw [Action.task, Task.exec_map, Session.exec_onStore, Action.plain, Task.exec_map]
  | wrap | invoke => cases h

/-- An action on nodes of which something stable holds keeps it true of all nodes in properties. -/
theorem linked_plain {Q : Store → NodeRef → Prop} (hQ : Store.Stable Q) (h : s.store.Linked Q)
    (hgiven : ∀ n, .node n ∈ a.given → Q s.store n) : (a.plain.exec s.store).2.Linked Q := by
  cases a with
  | make maker =>
    rw [Action.plain, Task.exec_map]
    exact Store.linked_build hQ h hgiven
  | wrap path suppress id => exact h
  | invoke id method args =>
    rw [Action.plain, Task.exec_map]
    exact Store.linked_call hQ method h hgiven
  | compile limit id =>
    rw [Action.plain, Task.exec_map]
    exact h.of_alike hQ (Store.alike_compile limit id s.store)
  | compileApart limit id =>
    rw [Action.plain, Task.exec_map]
    exact h.of_alike hQ (Store.alike_compileApart limit id s.store)
  | tick limit id =>
    rw [Action.plain, Task.exec_map]
    exact h.of_alike hQ (Store.alike_tick limit id s.store)

/-- No copy is made in the store alone. -/
theorem not_isOverflow_plain (h : a.copies = true) (store : Store) :
    isOverflow (a.plain.exec store).1 = false := by
  cases a with
  | wrap path suppress id => rfl
  | invoke id method args =>
    rw [Action.plain, Task.exec_map]
    cases hcall : ((Store.call id method args).exec store).1 with
    | ok v => rfl
    | error e => exact Store.not_isOverflow_of_call hcall
  | make | compile | compileApart | tick => cases h

theorem Action.Follows.overflows_eq (h : a.Follows s) : a.overflows s = false := by
  rw [Action.overflows, h.1]
  cases hcopies : a.copies with
  | false => rfl
  | true => exact not_isOverflow_plain hcopies s.store

/-! ## A relay that sends -/

/-- All layers are of the one relay, and the store is closed. -/
structure Sending (s : Session) : Prop where
  relay : ∃ r, s.relays = #[r]
  layer : ∀ id l, (id, some l) ∈ s.layers → l.relay = 0
  closed : s.store.Closed

/-- What an action in a session with a relay comes to: it changes nothing if a copy nests too deep,
and otherwise it does what it does in the store alone. -/
def Transparent (s : Session) (a : Action) : Prop :=
  if a.overflows s then (a.task.exec s).2 = s else a.Follows s

theorem Action.Follows.transparent (h : a.Follows s) : Transparent s a := by
  rw [Transparent, h.overflows_eq]
  exact h

theorem transparent_of_error (hcopies : a.copies = true) {e : Fault} (he : e.isOverflow = true)
    (h : a.task.exec s = (.error e, s)) : Transparent s a := by
  have hoverflows : a.overflows s = true := by
    rw [Action.overflows, hcopies, h]
    exact he
  rw [Transparent, if_pos hoverflows, h]

theorem Sending.follows (h : Sending s) (hknown : a.Known s) (hfollows : a.Follows s)
    (hrelay : ∃ r, (a.task.exec s).2.relays = #[r])
    (hlayer : ∀ id l, (id, some l) ∈ (a.task.exec s).2.layers → l.relay = 0) :
    Sending (a.task.exec s).2 ∧ Transparent s a := by
  refine ⟨⟨hrelay, hlayer, ?_⟩, hfollows.transparent⟩
  rw [hfollows.2]
  exact linked_plain Store.stable_has h.closed hknown.given

/-- A wrap that puts a layer of the relay around the node, or one that sends nothing. -/
theorem Sending.wrapped (h : Sending s) {path : NamePath} {suppress : Bool} {id : NodeId}
    (hid : s.store.Has id) {layer : Option Layer} (hlayer : ∀ l, layer = some l → l.relay = 0)
    (hexec : (Action.wrap path suppress id).task.exec s =
      (.ok .wrapped, { s with relays := #[r], layers := (id, layer) :: s.layers })) :
    Sending ((Action.wrap path suppress id).task.exec s).2 ∧
      Transparent s (.wrap path suppress id) := by
  refine h.follows hid ⟨by rw [hexec]; rfl, by rw [hexec]; rfl⟩ ⟨r, by rw [hexec]⟩ ?_
  rw [hexec]
  intro other l hl
  rcases List.mem_cons.1 hl with hl | hl
  · exact hlayer l (congrArg Prod.snd hl).symm
  · exact h.layer other l hl

theorem Sending.exec_wrap (h : Sending s) {path : NamePath} {suppress : Bool} {id : NodeId}
    (hid : s.store.Has id) :
    Sending ((Action.wrap path suppress id).task.exec s).2 ∧
      Transparent s (.wrap path suppress id) := by
  obtain ⟨r, hr⟩ := h.relay
  obtain ⟨node, hnode⟩ := Option.ne_none_iff_exists'.1 hid
  have hexec : (Action.wrap path suppress id).task.exec s =
      (((Session.wrap 0 path suppress id).exec s).1.map fun _ => .wrapped,
        ((Session.wrap 0 path suppress id).exec s).2) := Task.exec_map _ _ s
  cases hactive : r.isActive suppress with
  | false =>
    rw [Session.exec_wrap_inactive hr hactive] at hexec
    have hnone (l : Layer) (hl : none = some l) : l.relay = 0 := by cases hl
    exact h.wrapped hid hnone (hexec.trans (by rw [← hr]; rfl))
  | true =>
    rw [Session.exec_wrap_active hr hactive path hnode] at hexec
    cases hproperties : s.store.encodeProperties r.config.maxDepth s.announcement? id
        node.properties with
    | error e =>
      rw [hproperties] at hexec
      have he := Store.isOverflow_of_encodeProperties h.closed (h.closed id node hnode) hproperties
      refine ⟨?_, transparent_of_error rfl he hexec⟩
      rw [hexec]
      exact h
    | ok properties =>
      rw [hproperties] at hexec
      refine h.wrapped hid (fun l hl => ?_) hexec
      cases hl
      rfl

theorem Sending.exec_invoke (h : Sending s) {id : NodeId} {method : String} {args : List Value}
    (hargs : s.store.HasAll args) :
    Sending ((Action.invoke id method args).task.exec s).2 ∧
      Transparent s (.invoke id method args) := by
  obtain ⟨r, hr⟩ := h.relay
  have hlayer (l : Layer) (hl : some l ∈ s.layersOf id) : l.relay = 0 :=
    h.layer id l (Session.mem_layersOf.1 hl)
  have hexec : (Action.invoke id method args).task.exec s =
      (((Session.invoke id method args).exec s).1.map .value,
        ((Session.invoke id method args).exec s).2) := Task.exec_map _ _ s
  rcases Session.invoke_outcome hr hlayer method args with ⟨r', hinvoke⟩ | ⟨e, herror, hinvoke⟩
  · rw [hinvoke, Session.exec_onStore] at hexec
    have hplain : (Action.invoke id method args).plain.exec s.store =
        (((Store.call id method args).exec s.store).1.map .value,
          ((Store.call id method args).exec s.store).2) := Task.exec_map _ _ _
    refine h.follows hargs ⟨by rw [hexec, hplain], by rw [hexec, hplain]⟩ ⟨r', by rw [hexec]⟩ ?_
    rw [hexec]
    exact h.layer
  · rw [hinvoke] at hexec
    have he := Store.isOverflow_of_encodeArgs h.closed hargs herror
    refine ⟨?_, transparent_of_error rfl he hexec⟩
    rw [hexec]
    exact h

/-- Every action on nodes that are there keeps a session sending, and is transparent. -/
theorem Sending.exec (h : Sending s) (hknown : a.Known s) :
    Sending (a.task.exec s).2 ∧ Transparent s a := by
  cases hcopies : a.copies with
  | false =>
    have hexec := exec_task hcopies s
    refine h.follows hknown ⟨by rw [hexec], by rw [hexec]⟩ ?_ ?_
    · rw [hexec]
      exact h.relay
    · rw [hexec]
      exact h.layer
  | true =>
    cases a with
    | wrap path suppress id => exact h.exec_wrap hknown
    | invoke id method args => exact h.exec_invoke hknown
    | make | compile | compileApart | tick => cases hcopies

/-- So is every action of a script. -/
theorem Sending.along (h : Sending s) (hknown : Along (fun s a => a.Known s) s script) :
    Along Transparent s script := by
  induction script generalizing s with
  | nil => trivial
  | cons a rest ih =>
    obtain ⟨hkeeps, htransparent⟩ := h.exec hknown.1
    exact ⟨htransparent, ih hkeeps hknown.2⟩

/-! ## A silent relay -/

/-- The relay is as it was at first, and no layer sends anything. -/
structure Silent (r : Relay) (s : Session) : Prop where
  relay : s.relays = #[r]
  layer : ∀ id l, (id, some l) ∉ s.layers

/-- An action that the relay announces nothing for leaves it silent, and does what it does in the
store alone. -/
theorem Silent.exec (h : Silent r s) (hidle : a.Idle r) :
    Silent r (a.task.exec s).2 ∧ a.Follows s := by
  cases hcopies : a.copies with
  | false =>
    rw [Action.Follows, exec_task hcopies]
    exact ⟨⟨h.relay, h.layer⟩, rfl, rfl⟩
  | true =>
    cases a with
    | wrap path suppress id =>
      rw [Action.Follows, Action.task, Task.exec_map, Session.exec_wrap_inactive h.relay hidle]
      refine ⟨⟨h.relay, fun other l hl => ?_⟩, rfl, rfl⟩
      rcases List.mem_cons.1 hl with hl | hl
      · cases hl
      · exact h.layer other l hl
    | invoke id method args =>
      have hsilent (l : Layer) (hl : some l ∈ s.layersOf id) : False :=
        h.layer id l (Session.mem_layersOf.1 hl)
      rw [Action.Follows, Action.task, Task.exec_map, Session.invoke_silent hsilent,
        Session.exec_onStore, Action.plain, Task.exec_map]
      exact ⟨⟨h.relay, h.layer⟩, rfl, rfl⟩
    | make | compile | compileApart | tick => cases hcopies

theorem Silent.along (h : Silent r s) (hidle : ∀ a ∈ script, a.Idle r) :
    Along Action.Follows s script := by
  induction script generalizing s with
  | nil => trivial
  | cons a rest ih =>
    obtain ⟨hsilent, hfollows⟩ := h.exec (hidle a List.mem_cons_self)
    exact ⟨hfollows, ih hsilent fun a' ha' => hidle a' (List.mem_cons_of_mem a ha')⟩

/-- A relay that is not active announces nothing. -/
theorem idle_of_inactive (h : r.config.isActive = false) (a : Action) : a.Idle r := by
  cases a with
  | wrap path suppress id =>
    rw [Action.Idle, Relay.isActive, h]
    rfl
  | make | invoke | compile | compileApart | tick => trivial

theorem idle_suppressed (r : Relay) (a : Action) : a.suppressed.Idle r := by
  cases a with
  | wrap path suppress id => exact Bool.and_false _
  | make | invoke | compile | compileApart | tick => trivial

/-! ## Two runs -/

theorem sending_session (relay : Relay) {store : Store} (h : store.Closed) :
    Sending (session relay store) where
  relay := ⟨relay, rfl⟩
  layer := nofun
  closed := h

theorem silent_session (relay : Relay) (store : Store) : Silent relay (session relay store) where
  relay := rfl
  layer := nofun

/-- A script in a session with a relay, whatever it loses, and the same script in one whose relay is
not active, or whose wraps are suppressed: if no wrap and no call of the first fails because a copy
nests too deep, all actions give the same answers, or fail in the same way, and the nodes are the
same in the end. A wrap or call that does fail so sends nothing, announces nothing, and changes no
node. -/
theorem answers_of_silent {store : Store} (hstore : store.Closed) (relay silent : Relay)
    {script script' : List Action}
    (hsilent : script' = script ∧ silent.config.isActive = false ∨
      script' = script.map Action.suppressed)
    (hknown : Along (fun s a => a.Known s) (session relay store) script) :
    (Along (fun s a => a.overflows s = false) (session relay store) script →
      (run Action.task script (session relay store)).1 =
        (run Action.task script' (session silent store)).1 ∧
      (run Action.task script (session relay store)).2.store =
        (run Action.task script' (session silent store)).2.store) ∧
    Along (fun s a => a.overflows s = true → (a.task.exec s).2 = s) (session relay store)
      script := by
  have htransparent := (sending_session relay hstore).along hknown
  refine ⟨fun hfits => ?_, htransparent.imp₂ hknown fun s a h _ hoverflows => ?_⟩
  · have hfirst := run_of_follows (htransparent.imp₂ hfits fun s a h hfit => by
      rw [Transparent, hfit] at h
      exact h)
    have hidle : ∀ a ∈ script', a.Idle silent := by
      rcases hsilent with ⟨-, hinactive⟩ | rfl
      · exact fun a _ => idle_of_inactive hinactive a
      · intro a ha
        obtain ⟨a, -, rfl⟩ := List.mem_map.1 ha
        exact idle_suppressed silent a
    have hsecond := run_of_follows ((silent_session silent store).along hidle)
    have hplain : run Action.plain script' store = run Action.plain script store := by
      rcases hsilent with ⟨rfl, -⟩ | rfl
      · rfl
      · exact run_suppressed script store
    rw [show (session silent store).store = store from rfl, hplain] at hsecond
    exact ⟨hfirst.1.trans hsecond.1.symm, hfirst.2.trans hsecond.2.symm⟩
  · rw [Transparent, if_pos hoverflows] at h
    exact h

/-- A relay that loses the first message. -/
def lossy : Relay := .start .worklet (.channel .context (some [])) [0]

/-- A node whose announcement gets lost, and a sequence of it whose announcement arrives. -/
def pair : List Action :=
  [.make (.function .merge [.bool true, .bool false]), .wrap ["Merge"] false 1,
    .make (.sequence [.node ⟨1, false⟩] (.bool true)), .wrap ["Sequence"] false 2,
    .invoke 1 "set" [.text "gain", .bool false], .invoke 2 "set" [.text "rate", .node ⟨1, false⟩],
    .invoke 2 "stop" [], .compile 8 2, .tick 8 2]

/-- The sequence is passed to itself. -/
def passedToItself : Action := .invoke 2 "set" [.text "step", .node ⟨2, true⟩]

theorem answers_of_silent_pair :
    Along (fun s a => a.Known s) (session lossy .empty) (pair ++ [passedToItself]) ∧
    Along (fun s a => a.overflows s = false) (session lossy .empty) pair ∧
    ¬ Along (fun s a => a.overflows s = false) (session lossy .empty) (pair ++ [passedToItself]) ∧
    (run Action.task pair (session lossy .empty)).1 =
      (run Action.task pair (session (.start .silent .nowhere []) .empty)).1 ∧
    Along (fun s a => a.overflows s = true → (a.task.exec s).2 = s) (session lossy .empty)
      (pair ++ [passedToItself]) := by
  have hknown : Along (fun s a => a.Known s) (session lossy .empty) (pair ++ [passedToItself]) := by
    decide +kernel
  have hfits : Along (fun s a => a.overflows s = false) (session lossy .empty) pair := by
    decide +kernel
  refine ⟨hknown, hfits, by decide +kernel, ?_, ?_⟩
  · exact ((answers_of_silent Store.closed_empty lossy (.start .silent .nowhere [])
      (.inl ⟨rfl, rfl⟩) (by decide +kernel)).1 hfits).1
  · exact (answers_of_silent Store.closed_empty lossy lossy (.inr rfl) hknown).2

end Patchbay.Transparency
