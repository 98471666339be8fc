import Patchbay.Proofs.Framing
import Patchbay.Proofs.Intact
import Patchbay.Proofs.Recorded
import Patchbay.Proofs.Refresh

/-!
# What a replay of a file prints

A replay goes through the lines of a file in order, and passes over those that are blank. It stops
at the first line that is no message or whose message fails, and tells the line by its number,
counted with the blank ones; what stands after the line does not matter, and nothing is printed. If
all lines pass, a row is printed for each number that was recorded, in ascending order. Writing a
row keeps texts at nodes which the rows after it share, and they do not change because of it.

* `Command.Carries`, `Command.Passes`, `Command.Fails`: the message that a line carries, what lines
  make of a replica if none fails, and how a line fails;
* `Command.passes_or_fails`: all lines pass, or some do up to one that fails;
* `Command.RecordedIn`, `Command.Passes.mem_ids`: the numbers that the messages on lines record are
  those in the table;
* `Command.IsRow`, `Command.rows_of_alike`: the rows are what each is by itself;
* `Command.replay_outcome`: the outcome of a replay.
-/

namespace Patchbay

namespace Replica

/-- Each entry of a table in order is found under its number. -/
theorem get?_of_mem {r : Replica} (h : r.ids.Pairwise (· < ·)) {id : NodeId} {ref : NodeRef}
    (hmem : (id, ref) ∈ r.table) : r.get? id = some ref := by
  obtain ⟨before, after, htable⟩ := List.append_of_mem hmem
  rw [ids, htable, List.map_append, List.pairwise_append] at h
  refine List.lookup_eq_some_iff.2 ⟨before, after, htable, fun entry hentry => ?_⟩
  have hlt : entry.1 < id := h.2.2 entry.1 (List.mem_map_of_mem hentry) id List.mem_cons_self
  exact bne_iff_ne.2 (Nat.ne_of_gt hlt)

end Replica

namespace Command

variable {r r₁ r' : Receiver} {line : List Char} {lines before after : List (List Char)}
  {m : Message} {id : NodeId} {number : Nat} {what : String} {fault : Fault}

/-! ## Lines -/

/-- The line is not blank, and what stands on it between blanks is the message. -/
def Carries (line : List Char) (m : Message) : Prop :=
  Text.trim line ≠ [] ∧ Message.read (String.ofList (Text.trim line)) = .ok m

/-- What the lines make of the first receiver is the second one: those that are not blank carry
messages, and each of these succeeds after the ones before it. -/
inductive Passes : List (List Char) → Receiver → Receiver → Prop
  | done {r : Receiver} : Passes [] r r
  | blank {line : List Char} {rest : List (List Char)} {r r' : Receiver}
    (hline : Text.trim line = []) (later : Passes rest r r') : Passes (line :: rest) r r'
  | applied {line : List Char} {rest : List (List Char)} {r r₁ r' : Receiver} {m : Message}
    {value : Value} (carries : Carries line m)
    (applies : (Receiver.apply m).exec r = (.ok value, r₁)) (later : Passes rest r₁ r') :
    Passes (line :: rest) r r'

/-- How a line fails at a receiver, in words, and why. -/
inductive Fails (line : List Char) (r : Receiver) : String → Fault → Prop
  /-- it is not blank and is no message -/
  | unreadable {why : Rejection} (hline : Text.trim line ≠ [])
    (hread : Message.read (String.ofList (Text.trim line)) = .error why) :
    Fails line r ": invalid message" (.rejected why)
  /-- its message fails -/
  | refused {m : Message} {fault : Fault} {r' : Receiver} (carries : Carries line m)
    (applies : (Receiver.apply m).exec r = (.error fault, r')) :
    Fails line r ": failed to apply message" fault

theorem Carries.unique {m' : Message} (h : Carries line m) (h' : Carries line m') : m = m' :=
  Except.ok.inj (h.2.symm.trans h'.2)

theorem Carries.not_blank (h : Carries line m) : Text.trim line ≠ [] := h.1

/-- All lines pass, or some do up to one that fails. -/
def PassesOrFails (lines : List (List Char)) (r : Receiver) : Prop :=
  (∃ r', Passes lines r r') ∨
    ∃ before line after r' what fault, lines = before ++ line :: after ∧
      Passes before r r' ∧ Fails line r' what fault

/-- A line that lines can come after passes. -/
theorem PassesOrFails.cons (h : PassesOrFails lines r₁)
    (hline : ∀ rest r', Passes rest r₁ r' → Passes (line :: rest) r r') :
    PassesOrFails (line :: lines) r := by
  rcases h with ⟨r', hpasses⟩ | ⟨before, line', after, r', what, fault, rfl, hpasses, hfails⟩
  · exact .inl ⟨r', hline _ _ hpasses⟩
  · exact .inr ⟨line :: before, line', after, r', what, fault, rfl, hline _ _ hpasses, hfails⟩

theorem PassesOrFails.of_fails (h : Fails line r what fault) (lines : List (List Char)) :
    PassesOrFails (line :: lines) r :=
  .inr ⟨[], line, lines, r, what, fault, rfl, .done, h⟩

theorem passes_or_fails (lines : List (List Char)) (r : Receiver) : PassesOrFails lines r := by
  induction lines generalizing r with
  | nil => exact .inl ⟨r, .done⟩
  | cons line lines ih =>
    by_cases hline : Text.trim line = []
    · exact (ih r).cons fun _ _ => .blank hline
    · rcases hread : Message.read (String.ofList (Text.trim line)) with why | m
      · exact .of_fails (.unreadable hline hread) lines
      · have hcarries : Carries line m := ⟨hline, hread⟩
        rcases happly : (Receiver.apply m).exec r with ⟨fault | value, r₁⟩
        · exact .of_fails (.refused hcarries happly) lines
        · exact (ih r₁).cons fun _ _ => .applied hcarries happly

/-! ## Going through the lines -/

/-- The lines that are not blank, without blanks around them, with their numbers from `number`
on. -/
def numberedFrom (number : Nat) (lines : List (List Char)) : List (Nat × String) :=
  (lines.zipIdx number).filterMap fun (line, number) =>
    let trimmed := Text.trim line
    if trimmed.isEmpty then none else some (number, String.ofList trimmed)

theorem numberedFrom_blank (hline : Text.trim line = []) (number : Nat)
    (lines : List (List Char)) :
    numberedFrom number (line :: lines) = numberedFrom (number + 1) lines := by
  rw [numberedFrom, List.zipIdx_cons, List.filterMap_cons]
  simp only [hline, List.isEmpty_nil, if_true]
  rfl

theorem numberedFrom_cons (hline : Text.trim line ≠ []) (number : Nat)
    (lines : List (List Char)) :
    numberedFrom number (line :: lines) =
      (number, String.ofList (Text.trim line)) :: numberedFrom (number + 1) lines := by
  rw [numberedFrom, List.zipIdx_cons, List.filterMap_cons]
  simp only [List.isEmpty_eq_false_iff.2 hline, Bool.false_eq_true, if_false]
  rfl

theorem replayLine_carries (h : Carries line m) {value : Value}
    (happly : (Receiver.apply m).exec r = (.ok value, r')) (number : Nat) :
    replayLine number (String.ofList (Text.trim line)) r = .ok r' := by
  rw [replayLine_of_read h.2, happly]

theorem replayLine_fails (h : Fails line r what fault) (number : Nat) :
    replayLine number (String.ofList (Text.trim line)) r =
      .error (.of ("Line " ++ Nat.repr number ++ what) fault) := by
  cases h with
  | unreadable hline hread =>
    rw [replayLine, hread]
    rfl
  | @refused m fault r' hcarries happly =>
    rw [replayLine_of_read hcarries.2, happly]
    rfl

/-- Lines that pass are gone through, and the lines after them are numbered on. -/
theorem replayLines_passes (h : Passes before r r') (number : Nat) (rest : List (List Char)) :
    replayLines (numberedFrom number (before ++ rest)) r =
      replayLines (numberedFrom (number + before.length) rest) r' := by
  induction h generalizing number with
  | done => rfl
  | @blank line before r r' hline _ ih =>
    rw [List.cons_append, numberedFrom_blank hline, ih, List.length_cons, Nat.add_right_comm,
      Nat.add_assoc]
  | @applied line before r r₁ r' m value hcarries happly _ ih =>
    rw [List.cons_append, numberedFrom_cons hcarries.not_blank, replayLines,
      replayLine_carries hcarries happly, List.length_cons, Nat.add_comm before.length,
      ← Nat.add_assoc, ← ih]
    rfl

/-- A line that fails is the end, whatever comes after it. -/
theorem replayLines_fails (h : Fails line r what fault) (number : Nat)
    (rest : List (List Char)) :
    replayLines (numberedFrom number (line :: rest)) r =
      .error (.of ("Line " ++ Nat.repr number ++ what) fault) := by
  have hline : Text.trim line ≠ [] := by
    cases h with
    | unreadable hline => exact hline
    | refused hcarries => exact hcarries.not_blank
  rw [numberedFrom_cons hline, replayLines, replayLine_fails h]
  rfl

/-! ## What is in the table -/

/-- A message on one of the lines records a node under the number, after the lines before it. -/
def RecordedIn (lines : List (List Char)) (r : Receiver) (id : NodeId) : Prop :=
  ∃ before line after r₁ m, lines = before ++ line :: after ∧ Passes before r r₁ ∧
    Carries line m ∧ m.Records r₁ id

theorem recordedIn_blank (hline : Text.trim line = []) :
    RecordedIn (line :: lines) r id ↔ RecordedIn lines r id := by
  constructor
  · rintro ⟨before, line', after, r₁, m, heq, hpasses, hcarries, hrecords⟩
    cases hpasses with
    | done =>
      cases heq
      exact absurd hline hcarries.not_blank
    | blank _ hlater =>
      cases heq
      exact ⟨_, line', after, r₁, m, rfl, hlater, hcarries, hrecords⟩
    | applied hcarries' =>
      cases heq
      exact absurd hline hcarries'.not_blank
  · rintro ⟨before, line', after, r₁, m, rfl, hpasses, hrest⟩
    exact ⟨line :: before, line', after, r₁, m, rfl, .blank hline hpasses, hrest⟩

theorem recordedIn_applied (hcarries : Carries line m) {value : Value}
    (happly : (Receiver.apply m).exec r = (.ok value, r₁)) :
    RecordedIn (line :: lines) r id ↔ m.Records r id ∨ RecordedIn lines r₁ id := by
  constructor
  · rintro ⟨before, line', after, r₂, m', heq, hpasses, hcarries', hrecords⟩
    cases hpasses with
    | done =>
      cases heq
      cases hcarries.unique hcarries'
      exact .inl hrecords
    | blank hline =>
      cases heq
      exact absurd hline hcarries.not_blank
    | applied hcarries'' happly'' hlater =>
      cases heq
      cases hcarries.unique hcarries''
      cases happly.symm.trans happly''
      exact .inr ⟨_, line', after, r₂, m', rfl, hlater, hcarries', hrecords⟩
  · rintro (hrecords | ⟨before, line', after, r₂, m', rfl, hpasses, hrest⟩)
    · exact ⟨[], line, lines, r, m, rfl, .done, hcarries, hrecords⟩
    · exact ⟨line :: before, line', after, r₂, m', rfl, .applied hcarries happly hpasses, hrest⟩

/-- The numbers in the table are those of before, and those that the lines record. -/
theorem Passes.mem_ids (h : Passes lines r r') :
    id ∈ r'.replica.ids ↔ id ∈ r.replica.ids ∨ RecordedIn lines r id := by
  induction h with
  | done =>
    refine (or_iff_left ?_).symm
    rintro ⟨before, line, after, r₁, m, heq, -⟩
    exact List.append_ne_nil_of_right_ne_nil _ (List.cons_ne_nil _ _) heq.symm
  | blank hline _ ih => rw [ih, recordedIn_blank hline]
  | applied hcarries happly _ ih =>
    rw [ih, recordedIn_applied hcarries happly, Receiver.mem_ids_of_apply happly, or_assoc]

theorem Passes.intact (h : Passes lines r r') (hr : r.Intact [] []) : r'.Intact [] [] := by
  induction h with
  | done => exact hr
  | blank _ _ ih => exact ih hr
  | @applied line rest r r₁ r' m value _ happly _ ih =>
    have hend := Receiver.intact_apply m r hr
    rw [happly] at hend
    exact ih (Receiver.Intact.mono hend (List.nil_subset _))

/-! ## Rows -/

/-- The line is the row of the number by itself: the number, the name of its node, and what an
expression of the node gives in the store as it is, the text or what is wrong. -/
def IsRow (r : Receiver) (id : NodeId) (line : String) : Prop :=
  ∃ ref node, r.replica.get? id = some ref ∧ r.store.get? ref.id = some node ∧
    line = Nat.repr id ++ "\t" ++ node.name ++ "\t" ++
      match ((Store.compile Store.defaultDepth ref.id).exec r.store).1 with
      | .ok text => text
      | .error fault => "<" ++ fault.message ++ ">"

theorem row_eq (id : NodeId) (ref : NodeRef) (s : Store) :
    row id ref s =
      (Nat.repr id ++ "\t" ++ ((s.get? ref.id).map Node.name).getD "" ++ "\t" ++
        (match ((Store.compile Store.defaultDepth ref.id).exec s).1 with
          | .ok text => text
          | .error fault => "<" ++ fault.message ++ ">"),
        ((Store.compile Store.defaultDepth ref.id).exec s).2) := rfl

/-- The rows of entries of the table are what each is by itself, whatever texts are kept. -/
theorem rows_of_alike (hr : r.Intact [] []) {entries : List (NodeId × NodeRef)}
    (hentries : entries ⊆ r.replica.table) {s : Store} (hs : Store.Alike r.store s) :
    List.Forall₂ (IsRow r) (entries.map Prod.fst) (rows entries s) := by
  induction entries generalizing s with
  | nil => exact .nil
  | cons entry entries ih =>
    obtain ⟨id, ref⟩ := entry
    obtain ⟨hentry, hrest⟩ := List.cons_subset.1 hentries
    have href := Replica.get?_of_mem hr.replica.ascending hentry
    obtain ⟨node, hnode, -⟩ := hr.replica.table id ref href
    obtain ⟨node', hnode', hkind, -⟩ := hs.get? hnode
    have hname : node'.name = node.name := by rw [Node.name_eq, hkind, ← Node.name_eq]
    rw [List.map_cons, rows, row_eq, hnode', Option.map_some, Option.getD_some, hname,
      Store.exec_compile_of_alike hs]
    exact .cons ⟨ref, node, href, hnode, rfl⟩ (ih hrest (hs.trans (Store.alike_compile _ ref.id s)))

/-! ## The outcome -/

/-- **What a replay does with a file.** Whatever the text of the file, there are two cases. Either
some lines pass and the line after them fails: then the replay fails, tells the number of that line
and why, and prints nothing, whatever lines follow. Or all lines pass: then it prints one row for
each number that a message has recorded, in ascending order, and each row is what it is by itself in
the store that the messages have left. -/
theorem replay_outcome (files : Files) (path text : String) (hfile : files path = .ok text) :
    (∀ before line after r what fault, Text.lines text.toList = before ++ line :: after →
      Passes before .start r → Fails line r what fault →
      replay files path =
        ⟨1, "", (Failure.of ("Line " ++ Nat.repr (before.length + 1) ++ what) fault).report⟩) ∧
    (∀ r, Passes (Text.lines text.toList) .start r →
      r.replica.ids.Pairwise (· < ·) ∧
      (∀ id, id ∈ r.replica.ids ↔ RecordedIn (Text.lines text.toList) .start id) ∧
      ∃ printed, List.Forall₂ (IsRow r) r.replica.ids printed ∧
        replay files path = ⟨0, asLines printed, ""⟩) ∧
    PassesOrFails (Text.lines text.toList) .start := by
  have hnumbered : numberedLines text = numberedFrom 1 (Text.lines text.toList) := rfl
  refine ⟨fun before line after r what fault hlines hpasses hfails => ?_, fun r hpasses => ?_,
    passes_or_fails _ _⟩
  · have hstop := (replayLines_passes hpasses 1 (line :: after)).trans
      (replayLines_fails hfails _ after)
    rw [replay_of_text hfile, hnumbered, hlines, hstop, Nat.add_comm 1]
    rfl
  · have hintact := hpasses.intact Receiver.intact_start
    refine ⟨hintact.replica.ascending, fun id => ?_, rows r.replica.table r.store,
      rows_of_alike hintact (List.Subset.refl _) (.refl _), ?_⟩
    · rw [hpasses.mem_ids]
      exact or_iff_right List.not_mem_nil
    · have hend := replayLines_passes hpasses 1 []
      rw [List.append_nil] at hend
      rw [replay_of_text hfile, hnumbered, hend]
      rfl

/-- A line on which a message stands between blanks. -/
theorem carries_of_writable {line : List Char} {m : Message}
    (htrim : Text.trim line = m.print.toList)
    (h : m.Writable Json.maxLevels) (hnumbers : m.NumbersReadBack .scaled) : Carries line m := by
  rw [Carries, htrim, String.ofList_toList]
  exact ⟨fun heq => m.print_ne_empty (String.toList_eq_nil_iff.1 heq),
    Message.readBy_of_writable h hnumbers⟩

/-- A node. -/
def inner : Message := .create ⟨["Abs"], [("0", .bool true)], 7⟩

/-- A node that takes it, and lacks its other property. -/
def outer : Message := .create ⟨["Merge"], [("0", .reference 7), ("1", .unset)], 2⟩

/-- A call of a node that is missing. -/
def stray : Message := .call ⟨3, "get", []⟩

/-- The two nodes, with blank lines before them and between. -/
def spaced : List String := ["", inner.print, " \t", outer.print]

/-- The call after them, and then a line that is no message. -/
def strayed : List String := spaced ++ [stray.print, "\x7b"]

/-- The nodes are printed, and with the call after them nothing is. -/
theorem replay_outcome_spaced :
    (∃ r, Passes (Text.lines (asLines spaced).toList) .start r ∧ r.replica.ids = [2, 7] ∧
      ∃ printed, List.Forall₂ (IsRow r) r.replica.ids printed ∧
        replay (fun _ => .ok (asLines spaced)) "" = ⟨0, asLines printed, ""⟩) ∧
    replay (fun _ => .ok (asLines strayed)) "" =
      ⟨1, "", (Failure.of "Line 5: failed to apply message" (.unknownReference 3)).report⟩ := by
  have hended : ∀ line ∈ strayed, '\n' ∉ line.toList ∧ '\r' ∉ line.toList := by
    simp only [strayed, spaced, List.cons_append, List.nil_append, List.forall_mem_cons]
    exact ⟨by decide, inner.ended_print, by decide, outer.ended_print, stray.ended_print,
      by decide, nofun⟩
  have hspaced := lines_asLines_of_ended fun line hline =>
    hended line (List.mem_append_left [stray.print, "\x7b"] hline)
  have hstrayed : Text.lines (asLines strayed).toList =
      spaced.map String.toList ++ stray.print.toList :: [['\x7b']] :=
    (lines_asLines_of_ended hended).trans List.map_append
  have hinner : Carries inner.print.toList inner :=
    carries_of_writable inner.trim_print ⟨by decide +kernel, by decide +kernel⟩
      (by decide +kernel)
  have houter : Carries outer.print.toList outer :=
    carries_of_writable outer.trim_print ⟨by decide +kernel, by decide +kernel⟩
      (by decide +kernel)
  have hstray : Carries stray.print.toList stray :=
    carries_of_writable stray.trim_print ⟨by decide +kernel, by decide +kernel⟩
      (by decide +kernel)
  have hpasses : Passes (spaced.map String.toList) .start
      ((Receiver.apply outer).exec ((Receiver.apply inner).exec .start).2).2 :=
    .blank rfl (.applied hinner (Prod.ext rfl rfl)
      (.blank rfl (.applied houter (Prod.ext rfl rfl) .done)))
  refine ⟨⟨_, hspaced ▸ hpasses, rfl, ?_⟩, ?_⟩
  · exact ((replay_outcome (fun _ => .ok (asLines spaced)) "" _ rfl).2.1 _
      (hspaced ▸ hpasses)).2.2
  · have hplace : "Line " ++ Nat.repr ((spaced.map String.toList).length + 1) ++
        ": failed to apply message" = "Line 5: failed to apply message" := rfl
    rw [← hplace]
    exact (replay_outcome (fun _ => .ok (asLines strayed)) "" _ rfl).1 _ _ _ _ _ _ hstrayed hpasses
      (.refused hstray (Prod.ext rfl rfl))

end Command

end Patchbay
