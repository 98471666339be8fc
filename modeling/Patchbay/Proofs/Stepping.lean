import Patchbay.Proofs.Course
import Patchbay.Proofs.Rebuilt

/-!
# Where a sequence stands

The position of a sequence is an index into properties that it does not own: any call of `set` may
add steps to them. It stays the index of a step, since properties are never taken away, a reset
leads to the first step, and a sample takes the number of steps from the properties themselves.

* `Playback.Sampled`, `Playback.sampled_process`: what one sample makes of a sequence that stands at
  a step;
* `Playback.Stopped`: a stopped sequence, which samples leave where it is
  (`Playback.Stopped.process`);
* `Node.Course.inRange`, `Node.Course.stopped`: what is done to a sequence leaves it at a step, and
  a stopped one where it is, unless it is started or reset;
* `Node.AtStep`, `Node.AtStep.process`: the rate, the steps, and the sequence at one of them, which
  gives the value of that step;
* `Identity.atStep_of_later`: so it is in every session after the sequence was constructed.
-/

namespace Patchbay

namespace Playback

variable {p p' : Playback} {rate x : Float} {count : Nat} {inputs : List Float} {method : String}
  {answer : Value}

/-! ## Samples -/

/-- What one sample makes of a sequence of `count` steps, where the rate is worth `rate` and the
step that it stands at `x`. -/
structure Sampled (p : Playback) (rate : Float) (count : Nat) (x : Float) (p' : Playback) :
    Prop where
  value : p'.value = x
  running : p'.running = p.running
  /-- when `rate` samples are full, the next step begins; after the last one it is the first -/
  full : p.running = true → rate ≤ p.phase + 1.0 →
    p'.phase = 0.0 ∧ p'.position = (p.position + 1) % count
  /-- until then samples are counted -/
  counted : p.running = true → ¬ rate ≤ p.phase + 1.0 →
    p'.phase = p.phase + 1.0 ∧ p'.position = p.position
  /-- but not while the sequence is stopped -/
  stopped : p.running = false → p'.phase = p.phase ∧ p'.position = p.position

/-- A sequence stays at its step or goes on to the next one. -/
theorem Sampled.position (h : p.Sampled rate count x p') :
    p'.position = p.position ∨ p'.position = (p.position + 1) % count := by
  cases hrunning : p.running with
  | false => exact .inl (h.stopped hrunning).2
  | true =>
    by_cases hfull : rate ≤ p.phase + 1.0
    · exact .inr (h.full hrunning hfull).2
    · exact .inl (h.counted hrunning hfull).2

theorem Sampled.position_lt (h : p.Sampled rate count x p') (hp : p.position < count) :
    p'.position < count := by
  rcases h.position with heq | heq
  · rw [heq]
    exact hp
  · rw [heq]
    exact Nat.mod_lt _ (Nat.zero_lt_of_lt hp)

/-- The sequence is stopped, at the position and in the phase. -/
structure Stopped (position : Nat) (phase : Float) (p : Playback) : Prop where
  running : p.running = false
  position : p.position = position
  phase : p.phase = phase

/-- A sample of a stopped sequence leaves it where it is, whatever its inputs. -/
theorem Stopped.process {position : Nat} {phase : Float} (h : p.Stopped position phase)
    (inputs : List Float) : (p.process inputs).Stopped position phase := by
  unfold Playback.process
  split
  · exact h
  · split
    · exact h
    · rw [if_neg (by rw [h.running]; exact Bool.false_ne_true)]
      exact ⟨h.running, h.position, h.phase⟩

theorem process_of_lt {values : List Float} (rate : Float) (h : p.position < values.length) :
    p.process (rate :: values) =
      if p.running then { p with value := values[p.position] }.advance rate values.length
      else { p with value := values[p.position] } := by
  have hvalue : values[p.position % values.length]? = some values[p.position] := by
    rw [Nat.mod_eq_of_lt h, List.getElem?_eq_getElem h]
  simp only [Playback.process, hvalue]

/-- At a step, a sample gives the value of the step. -/
theorem sampled_process {values : List Float} (rate : Float) (h : p.position < values.length) :
    p.Sampled rate values.length values[p.position] (p.process (rate :: values)) := by
  rw [process_of_lt rate h]
  obtain ⟨phase, position, running, value⟩ := p
  cases running with
  | false => exact ⟨rfl, rfl, nofun, nofun, fun _ => ⟨rfl, rfl⟩⟩
  | true =>
    rw [if_pos rfl, advance]
    by_cases hfull : rate ≤ phase + 1.0
    · simp only [if_pos hfull]
      exact ⟨rfl, rfl, fun _ _ => ⟨rfl, rfl⟩, fun _ hnot => absurd hfull hnot, nofun⟩
    · simp only [if_neg hfull]
      exact ⟨rfl, rfl, fun _ hfull' => absurd hfull' hfull, fun _ _ => ⟨rfl, rfl⟩, nofun⟩

/-! ## Methods -/

/-- A method leaves a sequence where it stands, or leads to the first step. -/
theorem position_of_callPlayback? (h : Node.callPlayback? p method = some (answer, p')) :
    p'.position = p.position ∨ p'.position = 0 := by
  unfold Node.callPlayback? at h
  repeat' split at h
  all_goals cases h
  · exact .inl rfl
  · exact .inl rfl
  · exact .inr rfl
  · exact .inl rfl

/-- A stopped sequence stays stopped where it is, unless it is started or reset. -/
theorem Stopped.callPlayback? {position : Nat} {phase : Float} (hp : p.Stopped position phase)
    (hstart : method ≠ "start") (hreset : method ≠ "reset")
    (h : Node.callPlayback? p method = some (answer, p')) : p'.Stopped position phase := by
  simp only [Node.callPlayback?, if_neg hstart, if_neg hreset] at h
  split at h
  · cases h
    exact ⟨rfl, hp.position, hp.phase⟩
  · split at h
    · cases h
      exact hp
    · cases h

end Playback

namespace Node

variable {n n' : Node} {p : Playback} {id : NodeId} {method : String} {args : List Value}
  {answer : Value} {inputs : List Float} {output : NodeId → Option Float} {M : String → Prop}

theorem body_of_callCommon (h : callCommon id n method args = .ok (answer, n')) :
    n'.body = n.body := by
  unfold callCommon at h
  split at h
  · unfold callSet at h
    repeat' split at h
    all_goals cases h
    rfl
  · split at h
    · unfold callGet at h
      split at h
      · cases h
        rfl
      · cases h
    · cases h

/-- A call leaves the playback of a sequence alone, or changes it as its method does. -/
theorem call_sequence (hbody : n.body = .sequence p)
    (h : n.call id method args = .ok (answer, n')) : ∃ p', n'.body = .sequence p' ∧
      (p' = p ∨ callPlayback? p method = some (answer, p')) := by
  unfold call at h
  rw [hbody] at h
  simp only at h
  split at h
  · rename_i hplayback
    cases h
    exact ⟨_, rfl, .inr hplayback⟩
  · exact ⟨p, (body_of_callCommon h).trans hbody, .inl rfl⟩

theorem process_sequence (hbody : n.body = .sequence p) (inputs : List Float) :
    n.process inputs =
      ((p.process inputs).value, { n with body := .sequence (p.process inputs) }) := by
  unfold process
  rw [hbody]

theorem length_inputs (h : n.inputs? output = some inputs) :
    inputs.length = n.properties.size := by
  rw [← Bag.values_length]
  exact (Task.mapM_eq_some_iff.1 h).length_eq.symm

/-! ## In range -/

/-- The node is a sequence, and its position is that of a property after the first. -/
def InRange (n : Node) : Prop :=
  ∃ p, n.body = .sequence p ∧ p.position + 1 < n.properties.size

theorem InRange.call (h : n.InRange) (hcall : n.call id method args = .ok (answer, n')) :
    n'.InRange := by
  obtain ⟨p, hbody, hlt⟩ := h
  obtain ⟨p', hbody', hp'⟩ := call_sequence hbody hcall
  -- `set` may add a property, and no method takes one away
  have hsize : n.properties.size ≤ n'.properties.size := by
    rw [(edit_of_call hcall).2]
    exact Bag.size_le_edit ..
  have hposition : p'.position ≤ p.position := by
    rcases hp' with rfl | hplayback
    · exact Nat.le_refl _
    · rcases Playback.position_of_callPlayback? hplayback with heq | heq
      · exact Nat.le_of_eq heq
      · rw [heq]
        exact Nat.zero_le _
  exact ⟨p', hbody', by omega⟩

/-- A sample counts the steps anew, by the inputs that it is given: these are as many as there are
properties at that time. -/
theorem InRange.process (h : n.InRange) (hinputs : n.inputs? output = some inputs) :
    (n.process inputs).2.InRange := by
  obtain ⟨p, hbody, hlt⟩ := h
  rw [process_sequence hbody]
  refine ⟨p.process inputs, rfl, ?_⟩
  show (p.process inputs).position + 1 < n.properties.size
  rw [← length_inputs hinputs] at hlt ⊢
  cases inputs with
  | nil => exact absurd hlt (Nat.not_lt_zero _)
  | cons rate values =>
    have hp : p.position < values.length := Nat.lt_of_succ_lt_succ hlt
    exact Nat.succ_lt_succ ((Playback.sampled_process rate hp).position_lt hp)

/-- **Whatever is done to a sequence, its position is that of a step.** -/
theorem Course.inRange (h : Course M n n') (hn : n.InRange) : n'.InRange := by
  induction h with
  | start => exact hn
  | called _ _ hcall ih => exact ih.call hcall
  | processed _ hinputs ih => exact ih.process hinputs
  | written _ _ ih => exact ih

theorem body_of_freshSequence {properties : Bag} (h : freshSequence properties = .ok n) :
    n.body = .sequence .start := by
  unfold freshSequence at h
  split at h
  · cases h
  · cases h
    rfl

/-- A constructor leaves a sequence at its start. -/
theorem body_of_make {m : Maker} (h : m.make = .ok n) (hkind : n.kind = .sequence) :
    n.body = .sequence .start := by
  cases m with
  | chain op operands =>
    simp only [Maker.make, chain] at h
    split at h
    · cases h
    · cases h
      cases hkind
  | function f args =>
    simp only [Maker.make, function] at h
    split at h
    · cases h
      cases hkind
    · cases h
  | applying | map =>
    cases h
    cases hkind
  | mapOf given =>
    obtain ⟨values, -, h⟩ := Task.exists_of_bind_eq_ok h
    cases h
    cases hkind
  | sequence steps rate => exact body_of_freshSequence h
  | sequenceOf given => exact body_of_freshSequence h

theorem inRange_of_make {m : Maker} (h : m.make = .ok n) (hkind : n.kind = .sequence) :
    n.InRange := by
  have hsize := Maker.leastSize_le h
  rw [hkind] at hsize
  exact ⟨.start, body_of_make h hkind, hsize⟩

/-! ## Stopped -/

/-- The node is a sequence that is stopped, at the position and in the phase. -/
def Stopped (position : Nat) (phase : Float) (n : Node) : Prop :=
  ∃ p, n.body = .sequence p ∧ p.Stopped position phase

/-- **A stopped sequence stays where it is**, whatever is done to it, unless it is started or
reset. -/
theorem Course.stopped {position : Nat} {phase : Float} (h : Course M n n')
    (hM : ∀ method, M method → method ≠ "start" ∧ method ≠ "reset")
    (hn : n.Stopped position phase) : n'.Stopped position phase := by
  induction h with
  | start => exact hn
  | called _ hmethod hcall ih =>
    obtain ⟨p, hbody, hp⟩ := ih
    obtain ⟨p', hbody', rfl | hplayback⟩ := call_sequence hbody hcall
    · exact ⟨p', hbody', hp⟩
    · obtain ⟨hstart, hreset⟩ := hM _ hmethod
      exact ⟨p', hbody', hp.callPlayback? hstart hreset hplayback⟩
  | @processed _ _ inputs _ _ ih =>
    -- whatever the steps are worth, and however many there are by now
    obtain ⟨p, hbody, hp⟩ := ih
    rw [process_sequence hbody]
    exact ⟨p.process inputs, rfl, hp.process inputs⟩
  | written _ _ ih => exact ih

/-! ## Steps -/

/-- The node is a sequence of a rate and, after it, steps, and stands at one of these. -/
structure AtStep (n : Node) (p : Playback) (rate : Value) (steps : List (Key × Value)) : Prop where
  body : n.body = .sequence p
  entries : n.properties.entries = (.named "rate", rate) :: steps
  ne_nil : steps ≠ []
  position_lt : p.position < steps.length

theorem exists_atStep (hgenuine : n.Genuine) (hrange : n.InRange) :
    ∃ p rate steps, n.AtStep p rate steps := by
  obtain ⟨p, hbody, hlt⟩ := hrange
  have hkind : n.kind = .sequence := by
    rw [kind, hbody]
    rfl
  obtain ⟨-, rest, hkeys⟩ := hgenuine.rateFirst hkind
  obtain ⟨⟨key, rate⟩, steps, hentries, hkey, -⟩ := List.map_eq_cons_iff.1 hkeys
  obtain rfl : key = .named "rate" := hkey
  have hposition : p.position < steps.length := by
    rw [Bag.size, hentries, List.length_cons] at hlt
    exact Nat.lt_of_succ_lt_succ hlt
  exact ⟨p, rate, steps, hbody, hentries, List.ne_nil_of_length_pos (Nat.zero_lt_of_lt hposition),
    hposition⟩

/-- A sequence that is processed gives the value of the step that it stands at. -/
theorem AtStep.process {rate : Value} {steps : List (Key × Value)} (h : n.AtStep p rate steps)
    (hinputs : n.inputs? output = some inputs) : ∃ r step p', rate.input? output = some r ∧
      steps[p.position]? = some step ∧ step.2.input? output = some (n.process inputs).1 ∧
      (n.process inputs).2 = { n with body := .sequence p' } ∧
      p.Sampled r steps.length (n.process inputs).1 p' := by
  have heach := Task.mapM_eq_some_iff.1 hinputs
  rw [Bag.values, h.entries, List.map_cons] at heach
  obtain ⟨r, values, hr, hvalues, rfl⟩ := List.forall₂_cons_left_iff.1 heach
  rw [List.forall₂_map_left_iff] at hvalues
  have hstep : p.position < steps.length := h.position_lt
  have hlt : p.position < values.length := hvalues.length_eq ▸ hstep
  have hsampled := Playback.sampled_process r hlt
  rw [process_sequence h.body, hsampled.value]
  refine ⟨r, steps[p.position], _, hr, List.getElem?_eq_getElem hstep, hvalues.get hstep hlt,
    rfl, ?_⟩
  rw [hvalues.length_eq]
  exact hsampled

end Node

namespace Identity

/-- The method does not start or reset the node `id`, if it is called of it. -/
def Spares (id other : NodeId) (method : String) : Prop :=
  other = id → method ≠ "start" ∧ method ≠ "reset"

/-- **A sequence stands at one of its steps.** Let a session have a sequence as its constructor made
it, and whatever actions follow, in any order and whether they succeed or fail. The properties of
the sequence are its rate and one or more steps, and its position is that of a step. A sample of any
graph, under any limit and also one that fails, processes the sequence not at all, or with the value
of that step as its output; then the sequence stays there or goes on to the next step, with the
first after the last. While it is stopped, actions that do not start or reset it leave its position
and its phase as they are, among them any number of samples. -/
theorem atStep_of_later {m : Maker} {made : Node} (hmake : m.make = .ok made)
    (hkind : made.kind = .sequence) {s s' : Session} {id : NodeId}
    (hmade : s.store.get? id = some made) (hlater : Later (fun _ _ => True) s s') :
    ∃ node p rate steps, s'.store.get? id = some node ∧ node.AtStep p rate steps ∧
      (∀ limit root,
        ((Store.tick limit root).exec s'.store).1.toOption =
          (s'.store.passOf limit root).output root ∧
        ((s'.store.passOf limit root).output id = none ∧
            ((Store.tick limit root).exec s'.store).2.get? id = some node ∨
          ∃ r step x p', rate.input? (s'.store.passOf limit root).output = some r ∧
            steps[p.position]? = some step ∧
            step.2.input? (s'.store.passOf limit root).output = some x ∧
            (s'.store.passOf limit root).output id = some x ∧
            ((Store.tick limit root).exec s'.store).2.get? id =
              some { node with body := .sequence p' } ∧
            p.Sampled r steps.length x p' ∧
            (p'.position = p.position ∨ p'.position = (p.position + 1) % steps.length))) ∧
      (p.running = false → ∀ s'', Later (Spares id) s' s'' →
        ∃ node' p', s''.store.get? id = some node' ∧ node'.body = .sequence p' ∧
          p'.running = false ∧ p'.position = p.position ∧ p'.phase = p.phase) := by
  obtain ⟨node, hnode, hcourse⟩ := hlater.evolves id made hmade
  obtain ⟨p, rate, steps, hstep⟩ := Node.exists_atStep (hcourse.genuine (.made hmake))
    (hcourse.inRange (Node.inRange_of_make hmake hkind))
  refine ⟨node, p, rate, steps, hnode, hstep, fun limit root => ⟨Store.toOption_tick .., ?_⟩,
    fun hrunning s'' hlater' => ?_⟩
  · refine (Store.passOf_cases hnode limit root).imp_right ?_
    rintro ⟨inputs, hinputs, houtput, hafter⟩
    obtain ⟨r, step, p', hr, hposition, hvalue, hprocess, hsampled⟩ := hstep.process hinputs
    rw [hprocess] at hafter
    exact ⟨r, step, _, p', hr, hposition, hvalue, houtput, hafter, hsampled, hsampled.position⟩
  · obtain ⟨node', hnode', hcourse'⟩ := hlater'.evolves id node hnode
    obtain ⟨p', hbody', hp'⟩ := hcourse'.stopped (fun _ hspares => hspares rfl)
      ⟨p, hstep.body, hrunning, rfl, rfl⟩
    exact ⟨node', p', hnode', hbody', hp'.running, hp'.position, hp'.phase⟩

/-- A sequence of two steps. -/
def twoSteps : Maker := .sequence [.bool true, .bool false] (.bool true)

/-- The sequence, and the sum of it and itself. -/
def doubled : Session :=
  after [.make twoSteps, .make (.function .merge [.node ⟨1, true⟩, .node ⟨1, true⟩])] .start

/-- The sequence is sampled as a part of the sum, is given a step, is sampled, and is stopped. -/
def extended : Session :=
  after [.tick 8 2, .invoke 1 "set" [.text "5", .bool true], .tick 8 2, .invoke 1 "stop" []] doubled

/-- What is done then: samples, and a rate under which each of them would be full. -/
def holding : List Action :=
  [.tick 8 2, .invoke 1 "set" [.text "rate", .bool false], .tick 8 1, .tick 8 2]

/-- The sequence is stopped at the step that it was given, and stays there. -/
theorem atStep_of_extended :
    (∃ node p rate steps, extended.store.get? 1 = some node ∧ node.AtStep p rate steps ∧
      p.position = 2 ∧ steps.map Prod.fst = [.index 0, .index 1, .index 5]) ∧
    ∃ node p, (after holding extended).store.get? 1 = some node ∧ node.body = .sequence p ∧
      p.running = false ∧ p.position = 2 := by
  have hlater : Later (fun _ _ => True) doubled extended :=
    Later.refl.after fun _ _ _ _ _ => trivial
  have hheld : Later (Spares 1) extended (after holding extended) := by
    refine Later.refl.after ?_
    simp only [holding, List.forall_mem_cons]
    refine ⟨nofun, ?_, nofun, nofun, nofun⟩
    rintro id method ⟨rfl, rfl⟩ -
    decide
  have hmade : doubled.store.get? 1 = some (.fresh (.sequence .start)
      ⟨[(.named "rate", .bool true), (.index 0, .bool true), (.index 1, .bool false)]⟩) := by
    decide +kernel
  have hextended : extended.store.get? 1 = some ⟨.sequence ⟨0.0, 2, false, 0.0⟩,
      ⟨[(.named "rate", .bool true), (.index 0, .bool true), (.index 1, .bool false),
        (.index 5, .bool true)]⟩, none⟩ := by
    decide +kernel
  obtain ⟨node, p, rate, steps, hnode, hstep, -, hstopped⟩ :=
    atStep_of_later (m := twoSteps) rfl rfl hmade hlater
  cases hnode.symm.trans hextended
  cases hstep.body
  cases hstep.entries
  obtain ⟨node', p', hnode', hbody', hrunning, hposition, -⟩ := hstopped rfl _ hheld
  exact ⟨⟨_, _, _, _, hextended, hstep, rfl, rfl⟩, node', p', hnode', hbody', hrunning, hposition⟩

end Identity

end Patchbay
