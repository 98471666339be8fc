import Mathlib.Tactic.IntervalCases
import Patchbay.Json.Printer
import Patchbay.Proofs.Json.Scan

/-!
# Written texts read back

A character is escaped in one of three ways, by a letter, by its number or not at all, and each is
undone by the reader (`scan_textChar`), so that a text in quotes is read back (`scan_text`).
-/

namespace Patchbay.Json

/-- A control character by its number. -/
theorem scan_textChar_control {n : Nat} (h : n < 0x20) (rest : List Char) :
    scan (textChar false) (['\\', 'u', '0', '0', if n < 0x10 then '0' else '1'] ++
      Text.hexDigits (n % 16) ++ rest) = some (Char.ofNat n, rest) := by
  interval_cases n <;> rfl

theorem scan_textChar_plain {c : Char} (hslash : c ≠ '\\') (hquote : c ≠ '"')
    (hspace : ¬ c.toNat < 0x20) (rest : List Char) :
    scan (textChar false) (c :: rest) = some (c, rest) := by
  rw [scan, textChar, if_neg hslash, if_neg (not_or.2 ⟨hquote, hspace⟩)]
  rfl

/-- A character inside a text is read back. -/
theorem scan_textChar (c : Char) (rest : List Char) :
    scan (textChar false) (escapeChar c ++ rest) = some (c, rest) := by
  unfold escapeChar
  split
  · rfl
  · rfl
  · rfl
  · rfl
  · rfl
  · rfl
  · rfl
  · rename_i hquote hslash _ _ _ _ _
    split
    · rename_i hcontrol
      rw [scan_textChar_control hcontrol, Char.ofNat_toNat]
    · rename_i hspace
      exact scan_textChar_plain hslash hquote hspace rest

/-- No character inside a text ends it. -/
theorem escapeChar_cons (c : Char) : ∃ d cs, escapeChar c = d :: cs ∧ d ≠ '"' := by
  unfold escapeChar
  split
  · exact ⟨_, _, rfl, by decide⟩
  · exact ⟨_, _, rfl, by decide⟩
  · exact ⟨_, _, rfl, by decide⟩
  · exact ⟨_, _, rfl, by decide⟩
  · exact ⟨_, _, rfl, by decide⟩
  · exact ⟨_, _, rfl, by decide⟩
  · exact ⟨_, _, rfl, by decide⟩
  · rename_i hquote _ _ _ _ _ _
    split
    · exact ⟨_, _, rfl, by decide⟩
    · exact ⟨c, [], rfl, hquote⟩

/-- The rest of a text, without the bound on what is left. -/
theorem scan_textRest (lenient : Bool) (cs : List Char) :
    scan (textRest lenient) cs =
      match scan (char '"') cs with
      | some ((), rest) => some ([], rest)
      | none => (scan (textChar lenient) cs).bind fun (c, rest) =>
        (scan (textRest lenient) rest).map fun (text, rest') => (c :: text, rest') := by
  unfold scan
  rw [textRest]
  rcases char '"' cs with _ | ⟨⟨⟩, rest, h⟩
  · simp only [Option.map_none]
    rcases textChar lenient cs with _ | ⟨c, rest, h⟩
    · rfl
    · simp only [Option.map_some, Option.bind_some]
      rcases textRest lenient rest with _ | ⟨text, rest', h'⟩
      · rfl
      · rfl
  · rfl

theorem scan_textRest_written (cs rest : List Char) :
    scan (textRest false) (cs.flatMap escapeChar ++ '"' :: rest) = some (cs, rest) := by
  induction cs with
  | nil =>
    rw [scan_textRest, List.flatMap_nil, List.nil_append, scan_char_self]
  | cons c cs ih =>
    obtain ⟨d, ds, hd, hquote⟩ := escapeChar_cons c
    have hchar := scan_textChar c (cs.flatMap escapeChar ++ '"' :: rest)
    rw [List.flatMap_cons, List.append_assoc, scan_textRest, hchar, hd, List.cons_append,
      scan_char_of_ne hquote]
    simp only [Option.bind_some, ih, Option.map_some]

/-- A text in quotes is read back. -/
theorem scan_text (s : String) (rest : List Char) :
    scan (text false) (stringChars s ++ rest) = some (s, rest) := by
  rw [text, scan_map, stringChars, List.append_assoc, List.cons_append, scan_andThen_char_self,
    List.singleton_append, scan_textRest_written]
  simp only [Option.map_some, String.ofList_toList]

end Patchbay.Json
