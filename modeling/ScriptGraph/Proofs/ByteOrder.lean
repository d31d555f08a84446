import Mathlib.Data.List.Lex
import Mathlib.Tactic.SplitIfs

/-!
# Names in the order of their bytes

Names are compared character by character, by code points. Encoded as bytes they come in the
same order. The encoding is made for this: the first byte of a character grows with the number
of bytes that follow it, and those that follow hold six bits each, the highest ones first.
-/
namespace ScriptGraph.Text

/-- The bytes of a text, in the encoding in which it is stored. -/
def bytes (s : String) : List UInt8 := s.toUTF8.data.toList

lemma bytes_eq (s : String) : bytes s = s.toList.flatMap String.utf8EncodeChar := by
  rw [bytes, String.toUTF8_eq_toByteArray, ← String.utf8Encode_toList, List.utf8Encode]
  simp

/-- The first bytes come before the second ones, whatever follows each. -/
def Sooner (xs ys : List UInt8) : Prop := ∀ more more', xs ++ more < ys ++ more'

section Sooner

variable {v w : ℕ}

lemma sooner_of_lt {xs ys : List UInt8} (hw : w < 256) (h : v < w) :
    Sooner (.ofNat v :: xs) (.ofNat w :: ys) := by
  intro more more'
  have hv : v < 256 := by omega
  exact .rel ((UInt8.ofNat_lt_iff_lt hv hw).2 h)

/-- The lowest six bits of a number, as a byte that is not the first one. -/
def continuation (v : ℕ) : UInt8 := .ofNat (v % 64 + 128)

/-- The bits of one byte more decide between numbers that were the same up to there. -/
lemma sooner_continuation (xs ys : List UInt8) (h : v < w)
    (hlt : v / 64 < w / 64 → Sooner xs ys) (heq : v / 64 = w / 64 → xs = ys) :
    Sooner (xs ++ [continuation v]) (ys ++ [continuation w]) := by
  intro more more'
  rw [List.append_assoc, List.append_assoc]
  rcases Nat.lt_or_eq_of_le (Nat.div_le_div_right h.le) with hquotient | hquotient
  · exact hlt hquotient _ _
  · rw [heq hquotient]
    have hbits : Sooner [continuation v] [continuation w] :=
      sooner_of_lt (by omega) (by omega)
    exact List.Lex.append_left _ (hbits more more') ys

end Sooner

lemma val_lt (c : Char) : c.val.toNat < 0x110000 := by
  rcases c.valid with h | h
  · exact h.trans (by decide)
  · exact h.2

/-- Of two characters the one with the lower code point has the lower bytes, and neither
encoding begins with the other. -/
theorem sooner_utf8EncodeChar {c d : Char} (h : c < d) :
    Sooner (String.utf8EncodeChar c) (String.utf8EncodeChar d) := by
  have hlt : c.val.toNat < d.val.toNat := h
  have hd := val_lt d
  have hsquare : ∀ n, n / 4096 = n / 64 / 64 := fun n => (Nat.div_div_eq_div_mul n 64 64).symm
  have hcube : ∀ n, n / 262144 = n / 4096 / 64 := fun n => (Nat.div_div_eq_div_mul n 4096 64).symm
  unfold String.utf8EncodeChar
  simp only [hcube, hsquare]
  generalize c.val.toNat = v at hlt
  generalize d.val.toNat = w at hlt hd
  -- The lower code point does not have more bytes. If it has fewer, the first byte decides.
  split_ifs <;> try omega
  · exact sooner_of_lt (by omega) hlt
  · exact sooner_of_lt (by omega) (by omega)
  · exact sooner_of_lt (by omega) (by omega)
  · exact sooner_of_lt (by omega) (by omega)
  · refine sooner_continuation [_] [_] hlt (fun h₁ => ?_) fun heq => by rw [heq]
    exact sooner_of_lt (by omega) (by omega)
  · exact sooner_of_lt (by omega) (by omega)
  · exact sooner_of_lt (by omega) (by omega)
  · refine sooner_continuation [_, _] [_, _] hlt (fun h₁ => ?_) fun heq => by rw [heq]
    refine sooner_continuation [_] [_] h₁ (fun h₂ => ?_) fun heq => by rw [heq]
    exact sooner_of_lt (by omega) (by omega)
  · exact sooner_of_lt (by omega) (by omega)
  · refine sooner_continuation [_, _, _] [_, _, _] hlt (fun h₁ => ?_) fun heq => by rw [heq]
    refine sooner_continuation [_, _] [_, _] h₁ (fun h₂ => ?_) fun heq => by rw [heq]
    refine sooner_continuation [_] [_] h₂ (fun h₃ => ?_) fun heq => by rw [heq]
    exact sooner_of_lt (by omega) (by omega)

/-- Texts in the order of their characters are in the order of their bytes. -/
theorem bytes_lt_of_lt {s t : String} (h : s < t) : bytes s < bytes t := by
  have hlex : List.Lex (· < ·) s.toList t.toList := h
  rw [bytes_eq, bytes_eq]
  generalize s.toList = xs at hlex
  generalize t.toList = ys at hlex
  induction hlex with
  | @nil d ys =>
    obtain ⟨b, bs, hbytes⟩ := List.exists_cons_of_ne_nil (String.utf8EncodeChar_ne_nil (c := d))
    rw [List.flatMap_nil, List.flatMap_cons, hbytes]
    exact .nil
  | @rel c xs d ys hcd => exact sooner_utf8EncodeChar hcd _ _
  | @cons c xs ys _ ih => exact List.Lex.append_left _ ih _

end ScriptGraph.Text
