import Patchbay.Command.Run
import Patchbay.Proofs.Reread

/-!
# Messages as lines of a text

A message is one line of the text that an outlet writes, whatever characters stand in its names,
texts and keys: a line break inside a text is written as an escape, and so are all characters below
the space. All other blanks, those of other scripts among them, stand inside the braces around the
message, where trimming the line does not reach them.

* `Json.visible_chars`: JSON text has no character below the space;
* `Text.lines_of_ended`: lines that have none are what the text is split into;
* `Command.posted_asLines`, `Command.numberedLines_asLines`: messages that are posted one after
  another are the lines of the text, in order and with no line between them;
* `Command.replay_of_posts`: to replay the text is to apply the messages, if their numbers are read
  back;
* `Command.replay_of_drifting`: one that is not read back makes a difference.
-/

namespace Patchbay

/-! ## The characters of JSON text -/

namespace Json

/-- No character is below the space, as line ends are. -/
def Visible (cs : List Char) : Prop := ∀ c ∈ cs, 0x20 ≤ c.toNat

instance (cs : List Char) : Decidable (Visible cs) :=
  List.decidableBAll (fun c : Char => 0x20 ≤ c.toNat) cs

theorem visible_append {cs ds : List Char} : Visible (cs ++ ds) ↔ Visible cs ∧ Visible ds :=
  List.forall_mem_append

theorem visible_cons {c : Char} {cs : List Char} :
    Visible (c :: cs) ↔ 0x20 ≤ c.toNat ∧ Visible cs := List.forall_mem_cons

theorem Visible.notMem {cs : List Char} (h : Visible cs) {c : Char} (hc : c.toNat < 0x20) :
    c ∉ cs := fun hmem => Nat.not_lt.2 (h c hmem) hc

theorem visible_of_isDigit {cs : List Char} (h : ∀ c ∈ cs, c.isDigit = true) : Visible cs := by
  intro c hc
  have hdigit := h c hc
  simp only [Char.isDigit, Bool.and_eq_true, decide_eq_true_eq] at hdigit
  have hzero : 48 ≤ c.toNat := hdigit.1
  omega

theorem visible_natDigits (n : Nat) : Visible (Double.natDigits n) :=
  visible_of_isDigit fun _ => Double.isDigit_of_mem_natDigits

/-- A control character is written by its number. -/
theorem visible_control {n : Nat} (h : n < 0x20) :
    Visible (['\\', 'u', '0', '0', if n < 0x10 then '0' else '1'] ++ Text.hexDigits (n % 16)) := by
  interval_cases n <;> decide

theorem visible_escapeChar (c : Char) : Visible (escapeChar c) := by
  unfold escapeChar
  split
  · decide
  · decide
  · decide
  · decide
  · decide
  · decide
  · decide
  · split
    · rename_i hcontrol
      exact visible_control hcontrol
    · rename_i hspace
      exact visible_cons.2 ⟨Nat.le_of_not_lt hspace, nofun⟩

theorem visible_stringChars (s : String) : Visible (stringChars s) := by
  refine visible_append.2 ⟨visible_cons.2 ⟨by decide, fun d hd => ?_⟩, by decide⟩
  obtain ⟨c, -, hd⟩ := List.mem_flatMap.1 hd
  exact visible_escapeChar c d hd

theorem visible_intChars (i : Int) : Visible (intChars i) := by
  cases i with
  | ofNat n => exact visible_natDigits n
  | negSucc n => exact visible_cons.2 ⟨by decide, visible_natDigits (n + 1)⟩

theorem visible_parts {p : Double.Parts} (hp : p.WellFormed) {plus : List Char}
    (hplus : plus = [] ∨ plus = ['+']) : Visible (p.chars plus) := by
  refine visible_append.2 ⟨visible_of_isDigit hp.whole_digits, visible_append.2 ⟨?_, ?_⟩⟩
  · cases hfraction : p.fraction with
    | none => exact nofun
    | some ds =>
      exact visible_cons.2 ⟨by decide, visible_of_isDigit (hp.fraction_digits ds hfraction)⟩
  · rcases p.exponent with _ | n | n
    · exact nofun
    · refine visible_cons.2 ⟨by decide, visible_append.2 ⟨?_, visible_natDigits n⟩⟩
      rcases hplus with rfl | rfl <;> decide
    · exact visible_cons.2 ⟨by decide, visible_cons.2 ⟨by decide, visible_natDigits (n + 1)⟩⟩

theorem visible_floatChars (x : Float) : Visible (floatChars x) := by
  unfold floatChars
  split
  · rename_i hx
    obtain ⟨negative, p, hwell, -, hchars, -⟩ := Double.chars_eq_parts regular_json hx
    have hparts := visible_parts hwell regular_json.plus
    rw [hchars, Double.signed]
    split
    · exact visible_cons.2 ⟨by decide, hparts⟩
    · exact hparts
  · decide

mutual

/-- **JSON text has no control characters.** -/
theorem visible_chars : ∀ j : Json, Visible j.chars
  | .null | .bool true | .bool false => by
    rw [chars]
    decide
  | .int i => by
    rw [chars]
    exact visible_intChars i
  | .float x => by
    rw [chars]
    exact visible_floatChars x
  | .string s => by
    rw [chars]
    exact visible_stringChars s
  | .array items => by
    rw [chars]
    exact visible_cons.2 ⟨by decide, visible_append.2 ⟨visible_itemChars items, by decide⟩⟩
  | .object members => by
    rw [chars]
    exact visible_cons.2 ⟨by decide, visible_append.2 ⟨visible_memberChars members, by decide⟩⟩

theorem visible_itemChars : ∀ items : List Json, Visible (itemChars items)
  | [] => nofun
  | [item] => visible_chars item
  | item :: next :: rest => by
    rw [itemChars]
    · exact visible_append.2 ⟨visible_chars item,
        visible_cons.2 ⟨by decide, visible_itemChars (next :: rest)⟩⟩
    · exact List.cons_ne_nil next rest

theorem visible_memberChars : ∀ members : List (String × Json), Visible (memberChars members)
  | [] => nofun
  | [(key, value)] => by
    rw [memberChars]
    exact visible_append.2 ⟨visible_stringChars key,
      visible_cons.2 ⟨by decide, visible_chars value⟩⟩
  | (key, value) :: next :: rest => by
    rw [memberChars]
    · exact visible_append.2 ⟨visible_stringChars key, visible_cons.2 ⟨by decide,
        visible_append.2 ⟨visible_chars value,
          visible_cons.2 ⟨by decide, visible_memberChars (next :: rest)⟩⟩⟩⟩
    · exact List.cons_ne_nil next rest

end

end Json

/-! ## Lines -/

namespace Text

theorem lines_go_append {line : List Char} (h : '\n' ∉ line) (rest : List Char) :
    lines.go (line ++ '\n' :: rest) = (line :: (lines.go rest).1, (lines.go rest).2) := by
  induction line with
  | nil => rw [List.nil_append, lines.go]
  | cons c line ih =>
    obtain ⟨hc, hline⟩ := not_or.1 (mt List.mem_cons.2 h)
    rw [List.cons_append, lines.go, ih hline]
    exact fun heq => hc heq.symm

theorem dropReturn_eq_self {line : List Char} (h : '\r' ∉ line) : dropReturn line = line := by
  unfold dropReturn
  split
  · rename_i rest heq
    exact absurd (List.mem_reverse.1 (heq ▸ List.mem_cons_self)) h
  · rfl

/-- A text is split into the lines that it has been put together from, if none of them has a line
end inside. -/
theorem lines_of_ended {ls : List (List Char)} (h : ∀ line ∈ ls, '\n' ∉ line ∧ '\r' ∉ line) :
    lines (ls.flatMap (· ++ ['\n'])) = ls := by
  have hgo : lines.go (ls.flatMap (· ++ ['\n'])) = (ls, []) := by
    induction ls with
    | nil => rfl
    | cons line ls ih =>
      rw [List.forall_mem_cons] at h
      rw [List.flatMap_cons, List.append_assoc, List.singleton_append, lines_go_append h.1.1,
        ih h.2]
  have hreturns : ls.map dropReturn = ls.map id :=
    List.map_congr_left fun line hline => dropReturn_eq_self (h line hline).2
  rw [lines, hgo]
  exact hreturns.trans (List.map_id ls)

/-- Blanks between characters that are none are not trimmed. -/
theorem trim_eq_self {c d : Char} (hc : isBlank c = false) (hd : isBlank d = false)
    (cs : List Char) : trim (c :: (cs ++ [d])) = c :: (cs ++ [d]) := by
  have hreverse : (c :: (cs ++ [d])).reverse = d :: (c :: cs).reverse := by
    rw [← List.cons_append, List.reverse_append, List.reverse_singleton, List.singleton_append]
  rw [trim, List.dropWhile_cons_of_neg (by rw [hc]; exact Bool.false_ne_true), hreverse,
    List.dropWhile_cons_of_neg (by rw [hd]; exact Bool.false_ne_true), ← hreverse,
    List.reverse_reverse]

end Text

namespace Message

/-- The text of a message stands in braces. -/
theorem toList_print (m : Message) : ∃ cs, m.print.toList = '\x7b' :: (cs ++ ['\x7d']) := by
  obtain ⟨members, hmembers⟩ : ∃ members, m.json = .object members := by
    cases m with
    | create c => exact ⟨_, rfl⟩
    | call c => exact ⟨_, rfl⟩
  refine ⟨Json.memberChars members, ?_⟩
  rw [print, Json.print, String.toList_ofList, hmembers, Json.chars]

theorem visible_print (m : Message) : Json.Visible m.print.toList := by
  rw [print, Json.print, String.toList_ofList]
  exact Json.visible_chars m.json

/-- It has no line end inside. -/
theorem ended_print (m : Message) : '\n' ∉ m.print.toList ∧ '\r' ∉ m.print.toList :=
  ⟨m.visible_print.notMem (by decide), m.visible_print.notMem (by decide)⟩

theorem trim_print (m : Message) : Text.trim m.print.toList = m.print.toList := by
  obtain ⟨cs, hcs⟩ := m.toList_print
  rw [hcs, Text.trim_eq_self (by decide) (by decide)]

theorem print_ne_empty (m : Message) : m.print ≠ "" := by
  obtain ⟨cs, hcs⟩ := m.toList_print
  intro heq
  rw [heq] at hcs
  cases hcs

end Message

namespace Receiver

/-- Applies messages in order up to the first that fails. That one is told by its number, counted
from `number` on. -/
def applyInOrder : Nat → List Message → Receiver → Except (Nat × Fault) Receiver
  | _, [], r => return r
  | number, message :: rest, r =>
    match (apply message).exec r with
    | (.ok _, r') => applyInOrder (number + 1) rest r'
    | (.error fault, _) => throw (number, fault)

end Receiver

/-! ## Posting and replaying -/

namespace Command

/-- The messages with their numbers, from `number` on, each as its text. -/
def numberedTexts (number : Nat) (messages : List Message) : List (Nat × String) :=
  (messages.zipIdx number).map fun (m, n) => (n, m.print)

theorem numberedTexts_cons (number : Nat) (m : Message) (messages : List Message) :
    numberedTexts number (m :: messages) =
      (number, m.print) :: numberedTexts (number + 1) messages := rfl

theorem take_numberedTexts (k number : Nat) (messages : List Message) :
    (numberedTexts number messages).take k = numberedTexts number (messages.take k) := by
  induction messages generalizing k number with
  | nil => rw [List.take_nil]; exact List.take_nil
  | cons m messages ih =>
    cases k with
    | zero => rfl
    | succ k =>
      rw [numberedTexts_cons, List.take_succ_cons, ih, List.take_succ_cons, numberedTexts_cons]

theorem posted_after (messages : List Message) (written : String) :
    messages.foldlM (fun outlet m => Outlet.post m outlet) (.lines true (some written)) =
      .ok (.lines true (some (written ++ asLines (messages.map Message.print)))) := by
  induction messages generalizing written with
  | nil =>
    rw [List.map_nil, asLines, List.map_nil, String.join_nil, String.append_empty]
    rfl
  | cons m messages ih =>
    rw [List.foldlM_cons]
    show messages.foldlM _ (Outlet.lines true (some (written ++ m.print ++ "\n"))) = _
    rw [ih, List.map_cons, asLines, asLines, List.map_cons, String.join_cons, String.append_assoc,
      String.append_assoc, String.append_assoc]

theorem posted_asLines (messages : List Message) :
    messages.foldlM (fun outlet m => Outlet.post m outlet) (.lines true (some "")) =
      .ok (.lines true (some (asLines (messages.map Message.print)))) := by
  rw [posted_after, String.empty_append]

theorem toList_asLines (lines : List String) :
    (asLines lines).toList = (lines.map String.toList).flatMap (· ++ ['\n']) := by
  rw [asLines, String.toList_join, List.flatMap_map, List.flatMap_map]
  refine List.flatMap_congr fun line _ => ?_
  rw [String.toList_append]
  rfl

theorem lines_asLines_of_ended {ls : List String}
    (h : ∀ line ∈ ls, '\n' ∉ line.toList ∧ '\r' ∉ line.toList) :
    Text.lines (asLines ls).toList = ls.map String.toList := by
  rw [toList_asLines, Text.lines_of_ended]
  intro line hline
  obtain ⟨text, htext, rfl⟩ := List.mem_map.1 hline
  exact h text htext

/-- The lines of the text are the messages. -/
theorem lines_asLines (messages : List Message) :
    Text.lines (asLines (messages.map Message.print)).toList =
      messages.map fun m => m.print.toList := by
  rw [lines_asLines_of_ended, List.map_map]
  · rfl
  · intro line hline
    obtain ⟨m, -, rfl⟩ := List.mem_map.1 hline
    exact m.ended_print

/-- Trimmed and numbered they are the messages still. -/
theorem numberedLines_asLines (messages : List Message) :
    numberedLines (asLines (messages.map Message.print)) = numberedTexts 1 messages := by
  rw [numberedLines, lines_asLines]
  generalize 1 = number
  induction messages generalizing number with
  | nil => rfl
  | cons m messages ih =>
    obtain ⟨cs, hcs⟩ := m.toList_print
    have hnonempty : m.print.toList.isEmpty = false := by
      rw [hcs]
      rfl
    rw [List.map_cons, List.zipIdx_cons, List.filterMap_cons, numberedTexts_cons]
    simp only [m.trim_print, hnonempty, Bool.false_eq_true, if_false, String.ofList_toList, ih]

/-- How a replay reports the message that failed. -/
def stoppedAt (stop : Nat × Fault) : Failure :=
  .of ("Line " ++ Nat.repr stop.1 ++ ": failed to apply message") stop.2

/-- A line that is read as a message applies the message. -/
theorem replayLine_of_read {line : String} {m : Message} (h : Message.read line = .ok m)
    (number : Nat) (r : Receiver) :
    replayLine number line r =
      match (Receiver.apply m).exec r with
      | (.ok _, r') => .ok r'
      | (.error fault, _) => .error (stoppedAt (number, fault)) := by
  rw [replayLine, h]
  show (match (Receiver.apply m).exec r with
    | (.ok _, r) => pure r
    | (.error fault, _) => throw _ : Except Failure Receiver) = _
  rcases (Receiver.apply m).exec r with ⟨e | v, r'⟩
  · rfl
  · rfl

theorem replayLines_numberedTexts {messages : List Message}
    (h : ∀ m ∈ messages, Message.read m.print = .ok m) (number : Nat) (r : Receiver) :
    replayLines (numberedTexts number messages) r =
      (Receiver.applyInOrder number messages r).mapError stoppedAt := by
  induction messages generalizing number r with
  | nil => rfl
  | cons m messages ih =>
    rw [List.forall_mem_cons] at h
    rw [numberedTexts_cons, replayLines, replayLine_of_read h.1, Receiver.applyInOrder]
    rcases (Receiver.apply m).exec r with ⟨e | v, r'⟩
    · rfl
    · exact ih h.2 (number + 1) r'

/-- What the replay of a file comes to that can be read. -/
theorem replay_of_text {files : Files} {path text : String} (hfile : files path = .ok text) :
    replay files path = match replayLines (numberedLines text) .start with
      | .ok r => outcome (rows r.replica.table r.store) (.ok ())
      | .error failure => outcome [] (.error failure) := by
  have hrun : (readFile files path >>= fun text => replayLines (numberedLines text) .start) =
      replayLines (numberedLines text) .start := by
    rw [readFile, hfile]
    rfl
  rw [replay, hrun]
  rcases replayLines (numberedLines text) .start with failure | r
  · rfl
  · rfl

/-- **A replay of posted messages applies them.** Messages that are posted one after another to an
outlet of lines, whatever characters they hold, make a text of which each line is the text of one of
them, in order; nothing is trimmed from it, and no line is empty. If their numbers can be written
and are read back, and their texts nest 127 deep at most, then replaying the text line by line, as
far as one likes, is applying the messages in order, up to the first that fails, whose number is
that of its line. So a replay prints what the messages leave in a replica without nodes, or tells
which of them failed. -/
theorem replay_of_posts (messages : List Message) :
    ∃ text, messages.foldlM (fun outlet m => Outlet.post m outlet) (.lines true (some "")) =
        .ok (.lines true (some text)) ∧
      Text.lines text.toList = messages.map (fun m => m.print.toList) ∧
      numberedLines text = numberedTexts 1 messages ∧ (∀ m ∈ messages, m.print ≠ "") ∧
      ((∀ m ∈ messages, m.Sendable ∧ m.NumbersReadBack .scaled ∧
          m.json.fits Json.maxLevels = true) →
        (∀ k, replayLines ((numberedLines text).take k) .start =
          (Receiver.applyInOrder 1 (messages.take k) .start).mapError stoppedAt) ∧
        ∀ (files : Files) (path : String), files path = .ok text →
          replay files path = match Receiver.applyInOrder 1 messages .start with
            | .ok r => outcome (rows r.replica.table r.store) (.ok ())
            | .error stop => outcome [] (.error (stoppedAt stop))) := by
  have hnumbered := numberedLines_asLines messages
  refine ⟨asLines (messages.map Message.print), posted_asLines messages, lines_asLines messages,
    hnumbered, fun m _ => m.print_ne_empty, fun h => ?_⟩
  have hread (m : Message) (hm : m ∈ messages) : Message.read m.print = .ok m := by
    obtain ⟨hsendable, hnumbers, hfits⟩ := h m hm
    exact Message.readBy_of_writable ⟨hsendable, hfits⟩ hnumbers
  refine ⟨fun k => ?_, fun files path hfile => ?_⟩
  · rw [hnumbered, take_numberedTexts]
    exact replayLines_numberedTexts (fun m hm => hread m (List.mem_of_mem_take hm)) 1 .start
  · rw [replay_of_text hfile, hnumbered, replayLines_numberedTexts hread]
    rcases Receiver.applyInOrder 1 messages .start with stop | r
    · rfl
    · rfl

/-- Messages with line ends and blanks in a name, a text, a key and a method, and with a number. The
second one has no node to be called on. -/
def broken : List Message :=
  [.create ⟨["a\n", "Merge"], [("0", .text " \r\n"), ("1\n", .scalar (-0.1))], 1⟩,
    .call ⟨2, "\u2028set\n", []⟩]

/-- Each stays on its line, and the replay stops at the second. -/
theorem replay_of_broken :
    (∀ m ∈ broken, m.Sendable ∧ m.NumbersReadBack .scaled ∧
      m.json.fits Json.maxLevels = true) ∧
    ∃ text, broken.foldlM (fun outlet m => Outlet.post m outlet) (.lines true (some "")) =
        .ok (.lines true (some text)) ∧
      (Text.lines text.toList).length = 2 ∧
      ∀ (files : Files) (path : String), files path = .ok text →
        replay files path = outcome [] (.error (stoppedAt (2, .unknownReference 2))) := by
  have hsendable : ∀ m ∈ broken, m.Sendable ∧ m.NumbersReadBack .scaled ∧
      m.json.fits Json.maxLevels = true := by
    decide +kernel
  obtain ⟨text, hposted, hlines, -, -, hreplay⟩ := replay_of_posts broken
  have hstop : Receiver.applyInOrder 1 broken .start = .error (2, .unknownReference 2) := rfl
  refine ⟨hsendable, text, hposted, ?_, fun files path hfile => ?_⟩
  · rw [hlines]
    rfl
  · have houtcome := (hreplay hsendable).2 files path hfile
    rw [hstop] at houtcome
    exact houtcome

/-- An operator on a number that is read as a double next to it. -/
def drifting : Message := .create ⟨["Add"], [("0", .scalar 31.245270191439438)], 1⟩

/-- The replay does what the posted message does, but to another number. -/
theorem replay_of_drifting :
    drifting.Sendable ∧ drifting.json.fits Json.maxLevels = true ∧
    ∃ text, [drifting].foldlM (fun outlet m => Outlet.post m outlet) (.lines true (some "")) =
        .ok (.lines true (some text)) ∧
      ∃ r, Receiver.applyInOrder 1 [drifting] .start = .ok r ∧
        outcome (rows r.replica.table r.store) (.ok ()) =
          ⟨0, "1\tadd\t( 31.245270191439438 )\n", ""⟩ ∧
        ∀ (files : Files) (path : String), files path = .ok text →
          replay files path = ⟨0, "1\tadd\t( 31.24527019143944 )\n", ""⟩ := by
  refine ⟨by decide +kernel, by decide +kernel, asLines [drifting.print], posted_asLines _,
    ((Receiver.apply drifting).exec .start).2, rfl, by decide +kernel, fun files path hfile => ?_⟩
  rw [replay_of_text hfile]
  decide +kernel

end Command

end Patchbay
