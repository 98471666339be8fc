import Patchbay.Proofs.Delivery
import Patchbay.Proofs.Bag
import Patchbay.Proofs.Wire

/-!
# Which messages of a session can be read

The limit on full copies keeps a call from nesting deeper than the limit (`Session.CallsFit`), but
nothing limits the announcements: that of a node contains those of the nodes it holds. With the
limit that is set unless another is asked for, a session sends messages of both kinds that are one
level too deep for the reader:

* `Delivery.read_of_run`: what arrives of a session and has only numbers that are read back is read
  back itself exactly if it nests 63 deep at most, and a call nests 64 deep at most;
* `Delivery.read_of_tower`: the announcement of the last of 64 nodes, each of which holds the one
  before, is not read back.
-/

namespace Patchbay

namespace Store

variable {s : Store} {n : Nat} {copy : NodeId → Except Fault Snapshot} {snapshot : Snapshot}

theorem nesting_encodeWith (h : ∀ id snapshot, copy id = .ok snapshot → snapshot.nesting ≤ n)
    {v : Value} (hv : encodeWith copy v = .ok snapshot) : snapshot.nesting ≤ n := by
  cases v with
  | node m =>
    unfold encodeWith at hv
    simp only at hv
    split at hv
    · exact h m.id snapshot hv
    · cases hv
      exact Nat.zero_le n
  | scalar | bool | text | unset =>
    cases hv
    exact Nat.zero_le n

theorem nesting_encodeEntries {encode : Value → Except Fault Snapshot}
    (h : ∀ v snapshot, encode v = .ok snapshot → snapshot.nesting ≤ n) {es : List (Key × Value)}
    {properties : List (String × Snapshot)} (hes : encodeEntries encode es = .ok properties) :
    Snapshot.nestingOf properties ≤ n := by
  induction es generalizing properties with
  | nil =>
    cases hes
    exact Nat.zero_le n
  | cons e es ih =>
    obtain ⟨snapshot, hsnapshot, hes⟩ := Task.exists_of_bind_eq_ok hes
    obtain ⟨snapshots, hsnapshots, hes⟩ := Task.exists_of_bind_eq_ok hes
    cases hes
    rw [Snapshot.nestingOf, Nat.max_le]
    exact ⟨h e.2 snapshot hsnapshot, ih hsnapshots⟩

/-- A full copy nests no deeper than it has levels. -/
theorem nesting_fullCopy {levels : Nat} {path : List NodeId} {id : NodeId}
    (h : s.fullCopy levels path id = .ok snapshot) : snapshot.nesting ≤ levels := by
  induction levels generalizing path id snapshot with
  | zero => cases h
  | succ levels ih =>
    unfold fullCopy at h
    split at h
    · cases h
    · split at h
      · cases h
      · obtain ⟨properties, hproperties, h⟩ := Task.exists_of_bind_eq_ok h
        cases h
        rw [Snapshot.nesting]
        have hcopies := nesting_encodeEntries (fun v snapshot =>
          nesting_encodeWith fun id' copied (hcopied : s.fullCopy levels _ id' = .ok copied) =>
            ih hcopied) hproperties
        omega

theorem nesting_encodeArgs {maxDepth : Nat} {owner : NodeId} {args : List Value}
    {snapshots : List Snapshot} (h : s.encodeArgs maxDepth owner args = .ok snapshots) :
    ∀ snapshot ∈ snapshots, snapshot.nesting ≤ maxDepth - 1 := by
  intro snapshot hsnapshot
  obtain ⟨v, -, hv⟩ := Bag.exists_of_forall₂ (Task.forall₂_of_mapM h) hsnapshot
  exact nesting_encodeWith (fun _ _ => nesting_fullCopy) hv

end Store

/-! ## What waits in channels -/

theorem Outlet.mem_pending_of_post {outlet outlet' : Outlet} {message m : Message}
    (h : outlet.post message = .ok outlet') (hm : m ∈ outlet'.pending) :
    m ∈ outlet.pending ∨ m = message := by
  cases outlet with
  | channel receiving pending =>
    cases pending with
    | none => cases h
    | some messages =>
      cases h
      rcases List.mem_append.1 hm with hm | hm
      · exact Or.inl hm
      · exact Or.inr (List.mem_singleton.1 hm)
  | lines accepting written =>
    cases accepting with
    | false => cases h
    | true =>
      cases h
      cases hm
  | nowhere =>
    cases h
    cases hm

namespace Relay

/-- The relay has the limit `maxDepth`, and no call that waits in its channel nests deeper than the
copies inside it do and itself. -/
structure CallsFit (maxDepth : Nat) (r : Relay) : Prop where
  maxDepth_eq : r.config.maxDepth = maxDepth
  nesting_le : ∀ m ∈ r.outlet.pending, m.isCreate = false → m.nesting ≤ maxDepth - 1 + 1

variable {maxDepth : Nat} {r : Relay}

theorem CallsFit.send (h : r.CallsFit maxDepth) {message : Message}
    (hmessage : message.isCreate = false → message.nesting ≤ maxDepth - 1 + 1) :
    (r.send message).2.CallsFit maxDepth := by
  unfold Relay.send
  simp only
  split
  · exact ⟨h.maxDepth_eq, h.nesting_le⟩
  · split
    · rename_i outlet houtlet
      refine ⟨h.maxDepth_eq, fun m hm hcall => ?_⟩
      rcases Outlet.mem_pending_of_post houtlet hm with hm | rfl
      · exact h.nesting_le m hm hcall
      · exact hmessage hcall
    · exact ⟨h.maxDepth_eq, h.nesting_le⟩

theorem CallsFit.sendCreate (h : r.CallsFit maxDepth) (c : Create) :
    (r.sendCreate c).CallsFit maxDepth := by
  have hsent : (r.send (.create c)).2.CallsFit maxDepth := h.send nofun
  unfold Relay.sendCreate
  split
  · rename_i r' hsend
    rw [hsend] at hsent
    rw [announce_eq]
    exact ⟨hsent.maxDepth_eq, hsent.nesting_le⟩
  · rename_i r' hsend
    rw [hsend] at hsent
    exact hsent

end Relay

namespace Session

/-- All relays have the limit, and no call that waits in a channel nests deeper than it allows. -/
def CallsFit (maxDepth : Nat) (s : Session) : Prop :=
  ∀ (number : Nat) (r : Relay), s.relays[number]? = some r → r.CallsFit maxDepth

variable {maxDepth : Nat} {s : Session}

theorem CallsFit.modifyRelay (h : s.CallsFit maxDepth) {number : Nat} {change : Relay → Relay}
    (hchange : ∀ r : Relay, r.CallsFit maxDepth → (change r).CallsFit maxDepth) :
    (Session.modifyRelay number change s).CallsFit maxDepth := by
  intro other r hr
  rw [Session.modifyRelay, Array.getElem?_modify] at hr
  split at hr
  · obtain ⟨r', hr', rfl⟩ := Option.map_eq_some_iff.1 hr
    exact hchange r' (h other r' hr')
  · exact h other r hr

theorem callsFit_onStore {α : Type} (task : Task Store α) :
    (onStore task).Keeps (CallsFit maxDepth) := fun _ hs => hs

theorem callsFit_wrap (number : Nat) (path : NamePath) (suppress : Bool) (id : NodeId) :
    (wrap number path suppress id).Keeps (CallsFit maxDepth) := by
  have hlayer (layer : Option Layer) :
      (modify (addLayer id layer) : Task Session Unit).Keeps (CallsFit maxDepth) :=
    Task.keeps_modify fun _ hs => hs
  have hcreate (create : Create) :
      (modify (Session.modifyRelay number (·.sendCreate create)) : Task Session Unit).Keeps
        (CallsFit maxDepth) :=
    Task.keeps_modify fun _ hs => hs.modifyRelay fun _ hr => hr.sendCreate create
  unfold wrap
  refine Task.keeps_get_bind fun s _ => ?_
  split
  · split
    · unfold wrapActive
      refine Task.keeps_get_bind fun s _ => (callsFit_onStore _).bind fun node => ?_
      refine (Task.keeps_ofExcept _).bind fun properties => ?_
      exact (hcreate _).bind fun _ => (hlayer _).bind fun _ => Task.keeps_pure _
    · exact (hlayer none).bind fun _ => Task.keeps_pure _
  · exact (hlayer none).bind fun _ => Task.keeps_pure _

/-- The copies in a call are made with the limit of the relay that it is sent through. -/
theorem callsFit_sendCall (id : NodeId) (method : String) (args : List Value) (layer : Layer) :
    (sendCall id method args layer).Keeps (CallsFit maxDepth) := by
  unfold sendCall
  refine Task.keeps_get_bind fun s hs => ?_
  split
  · exact Task.keeps_pure ()
  · rename_i relay hrelay
    split
    · refine Task.keeps_ofExcept_bind fun snapshots hsnapshots => ?_
      refine Task.keeps_modify fun s' hs' => hs'.modifyRelay fun r hr => hr.send fun _ => ?_
      rw [← (hs _ relay hrelay).maxDepth_eq, Message.nesting, Nat.add_le_add_iff_right,
        Message.foldr_nesting_le]
      exact Store.nesting_encodeArgs hsnapshots
    · exact Task.keeps_pure ()

theorem callsFit_sendCalls (id : NodeId) (method : String) (args : List Value)
    (layers : List (Option Layer)) :
    (sendCalls id method args layers).Keeps (CallsFit maxDepth) := by
  induction layers with
  | nil => exact Task.keeps_pure ()
  | cons layer rest ih =>
    cases layer with
    | none => exact ih
    | some layer => exact (callsFit_sendCall id method args layer).bind fun _ => ih

theorem callsFit_invoke (id : NodeId) (method : String) (args : List Value) :
    (invoke id method args).Keeps (CallsFit maxDepth) := by
  cases hpublic : isPrivate method with
  | true =>
    intro s hs
    rw [invoke_private hpublic]
    exact hs
  | false =>
    intro s hs
    have hsent := callsFit_sendCalls id method args (s.layersOf id) s hs
    rw [invoke_public hpublic]
    rcases hexec : (sendCalls id method args (s.layersOf id)).exec s with ⟨e | u, s'⟩
    · rw [hexec] at hsent
      exact hsent
    · rw [hexec] at hsent
      exact hsent

end Session

namespace Delivery

theorem Action.callsFit_exec {maxDepth : Nat} {s : Session} (h : s.CallsFit maxDepth)
    (a : Action) : (a.exec s).CallsFit maxDepth := by
  cases a with
  | work task => exact h
  | wrap path suppress id => exact Session.callsFit_wrap 0 path suppress id s h
  | invoke id method args => exact Session.callsFit_invoke id method args s h

theorem callsFit_run {maxDepth : Nat} {s : Session} (h : s.CallsFit maxDepth)
    (script : List Action) : (run s script).CallsFit maxDepth := by
  induction script generalizing s with
  | nil => exact h
  | cons a rest ih => exact ih (a.callsFit_exec h)

theorem callsFit_session (config : Config) (lost : List Nat) (store : Store) (replica : Replica) :
    (session config lost store replica).CallsFit config.maxDepth := by
  intro number r hr
  cases number with
  | zero =>
    obtain rfl := Option.some.inj hr
    exact ⟨rfl, nofun⟩
  | succ number => cases hr

/-- The messages that wait in the channels of a session. -/
def waiting (s : Session) : List Message := s.relays.toList.flatMap fun r => r.outlet.pending

/-- Of the messages that have arrived from a session with the default limit, whatever was wrapped
and called in it, how often, and what got lost, and whose numbers are read back, those are read back
that nest 63 deep at most. A call nests at most one level deeper. -/
theorem read_of_run (numerals : Numerals) (lost : List Nat) (store : Store) (replica : Replica)
    (script : List Action) :
    ∀ m ∈ waiting (run (session .worklet lost store replica) script), m.Sendable →
      (m.NumbersReadBack numerals →
        (Message.readBy numerals m.print = .ok m ↔ m.nesting ≤ 63)) ∧
        (m.isCreate = false → m.nesting ≤ 64) := by
  intro m hm hsendable
  refine ⟨Message.readBy_print_iff hsendable, fun hcall => ?_⟩
  obtain ⟨r, hr, hm⟩ := List.mem_flatMap.1 hm
  obtain ⟨number, hnumber⟩ := List.mem_iff_getElem?.1 hr
  rw [Array.getElem?_toList] at hnumber
  have hfit := callsFit_run (callsFit_session .worklet lost store replica) script number r hnumber
  exact hfit.nesting_le m hm hcall

/-- Nodes that each hold the one before, all of them wrapped as they are made. -/
def tower : Nat → List Action
  | 0 => [.work (discard (Store.build (Node.chain .add [.scalar 1.5]))), .wrap ["Add"] false 1]
  | height + 1 => tower height ++
    [.work (discard (Store.build (Node.function .abs [.node ⟨height + 1, false⟩]))),
      .wrap ["Abs"] false (height + 2)]

/-- The announcement of the last of 63 such nodes is read back. -/
theorem read_of_low_tower :
    ∃ m ∈ waiting (run (session .worklet [] .empty .empty) (tower 62)),
      m.nesting = 63 ∧ Message.read m.print = .ok m := by
  have hlast : ((waiting (run (session .worklet [] .empty .empty) (tower 62))).any fun m =>
      decide (m.Sendable ∧ m.NumbersReadBack .scaled ∧ m.nesting = 63)) = true := by
    decide +kernel
  obtain ⟨m, hm, hmessage⟩ := List.any_eq_true.1 hlast
  obtain ⟨hsendable, hnumbers, hnesting⟩ := of_decide_eq_true hmessage
  refine ⟨m, hm, hnesting, ?_⟩
  exact ((read_of_run .scaled [] .empty .empty (tower 62) m hm hsendable).1 hnumbers).2
    (Nat.le_of_eq hnesting)

/-- The announcement of one more is not. -/
theorem read_of_tower :
    ∃ m ∈ waiting (run (session .worklet [] .empty .empty) (tower 63)),
      m.Sendable ∧ m.NumbersReadBack .scaled ∧ Message.read m.print ≠ .ok m := by
  have hlast : ((waiting (run (session .worklet [] .empty .empty) (tower 63))).any fun m =>
      decide (m.Sendable ∧ m.NumbersReadBack .scaled ∧ m.nesting = 64)) = true := by
    decide +kernel
  obtain ⟨m, hm, hmessage⟩ := List.any_eq_true.1 hlast
  obtain ⟨hsendable, hnumbers, hnesting⟩ := of_decide_eq_true hmessage
  refine ⟨m, hm, hsendable, hnumbers, fun hread => ?_⟩
  have hle := (Message.readBy_print_iff hsendable hnumbers).1 hread
  omega

end Delivery

end Patchbay
