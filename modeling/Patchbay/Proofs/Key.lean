import Patchbay.Graph.Node
import Patchbay.Proofs.Digits

/-!
# Keys and their texts

A position is read back from its text (`Key.parse_text_index`), and so is every name that a
constructor gives to a property. A name that looks like a position is not.
-/

namespace Patchbay.Key

theorem dropPlus_natDigits (n : Nat) : dropPlus (Double.natDigits n) = Double.natDigits n := by
  cases hds : Double.natDigits n with
  | nil => rfl
  | cons d ds =>
    have hd : d.isDigit = true := Double.isDigit_of_mem_natDigits (hds ▸ List.mem_cons_self)
    unfold dropPlus
    split
    · rename_i heq
      cases heq
      exact absurd hd (by decide)
    · rfl

theorem parse_text_index (n : UInt64) : parse (text (.index n)) = .index n := by
  have hposition : position? (Double.natDigits n.toNat) = some n := by
    unfold position?
    simp only [Double.digitsValue_natDigits, Double.all_natDigits]
    rw [if_pos, UInt64.ofNat_toNat]
    simp [n.toNat_lt]
  have hfound : position? (dropPlus (text (.index n)).toList) = some n := by
    rw [text, Nat.toList_repr]
    exact (congrArg position? (dropPlus_natDigits n.toNat)).trans hposition
  rw [parse, hfound]

/-- A key that is read back from its text. -/
def Readable (key : Key) : Prop := parse key.text = key

instance (key : Key) : Decidable key.Readable := inferInstanceAs (Decidable (parse key.text = key))

theorem readable_index (n : UInt64) : (index n).Readable := parse_text_index n

theorem readable_rate : (named "rate").Readable := by decide +kernel

theorem readable_mapNames : ∀ name ∈ Node.mapNames, (named name).Readable := by decide +kernel

end Patchbay.Key
