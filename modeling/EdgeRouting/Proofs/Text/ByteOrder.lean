import Mathlib.Data.String.Basic

/-!
# The order of texts

Texts are ordered by their characters. That is the order of their bytes in UTF-8 as well
(`lt_iff_bytes_lt`): of two characters the one that comes first has the lesser bytes, whatever
follows each of them (`encoded_lt`), since longer forms have greater first bytes, and forms of one
length are the digits of the code point.
-/

namespace EdgeRouting.Text

/-- The bytes of a text in UTF-8. -/
def bytes (s : String) : List UInt8 := s.toUTF8.data.toList

theorem bytes_eq (s : String) : bytes s = s.toList.flatMap String.utf8EncodeChar := by
  have hbytes : s.toByteArray = (s.toList.flatMap String.utf8EncodeChar).toByteArray := by
    rw [← List.utf8Encode, ← String.toByteArray_ofList, String.ofList_toList]
  show s.toByteArray.data.toList = _
  rw [hbytes, List.data_toByteArray]

theorem cons_lt_cons_of {m n : Nat} {s t : List UInt8} (hn : n < 256) (hle : m ≤ n)
    (h : m = n → s < t) : UInt8.ofNat m :: s < UInt8.ofNat n :: t := by
  rcases Nat.lt_or_eq_of_le hle with hlt | rfl
  · have hbyte : UInt8.ofNat m < UInt8.ofNat n := by
      rw [UInt8.lt_iff_toNat_lt, UInt8.toNat_ofNat', UInt8.toNat_ofNat']
      omega
    exact List.cons_lt_cons_iff.2 (.inl hbyte)
  · exact List.cons_lt_cons_iff.2 (.inr ⟨rfl, h rfl⟩)

/-- Of two characters the one that comes first has the lesser bytes. -/
theorem encoded_lt {c d : Char} (h : c < d) (s t : List UInt8) :
    String.utf8EncodeChar c ++ s < String.utf8EncodeChar d ++ t := by
  have hcode : c.val.toNat < d.val.toNat := UInt32.lt_iff_toNat_lt.1 h
  have hlimit : d.val.toNat < 1114112 := by
    rcases d.valid with hd | ⟨-, hd⟩
    · exact Nat.lt_trans hd (by decide)
    · exact hd
  simp only [String.utf8EncodeChar]
  generalize c.val.toNat = m at hcode
  generalize d.val.toNat = n at hcode hlimit
  -- A first byte is below 128, from 192 to 223, from 224 to 239 or from 240 on, by the length.
  by_cases hd₁ : n ≤ 127
  · rw [if_pos (by omega), if_pos hd₁]
    exact cons_lt_cons_of (by omega) (by omega) fun _ => by omega
  rw [if_neg hd₁]
  by_cases hc₁ : m ≤ 127
  · rw [if_pos hc₁]
    split_ifs <;> exact cons_lt_cons_of (by omega) (by omega) fun _ => by omega
  rw [if_neg hc₁]
  by_cases hd₂ : n ≤ 2047
  · rw [if_pos (by omega), if_pos hd₂]
    exact cons_lt_cons_of (by omega) (by omega) fun _ =>
      cons_lt_cons_of (by omega) (by omega) fun _ => by omega
  rw [if_neg hd₂]
  by_cases hc₂ : m ≤ 2047
  · rw [if_pos hc₂]
    split_ifs <;> exact cons_lt_cons_of (by omega) (by omega) fun _ => by omega
  rw [if_neg hc₂]
  by_cases hd₃ : n ≤ 65535
  · rw [if_pos (by omega), if_pos hd₃]
    exact cons_lt_cons_of (by omega) (by omega) fun _ =>
      cons_lt_cons_of (by omega) (by omega) fun _ =>
        cons_lt_cons_of (by omega) (by omega) fun _ => by omega
  rw [if_neg hd₃]
  by_cases hc₃ : m ≤ 65535
  · rw [if_pos hc₃]
    exact cons_lt_cons_of (by omega) (by omega) fun _ => by omega
  rw [if_neg hc₃]
  exact cons_lt_cons_of (by omega) (by omega) fun _ =>
    cons_lt_cons_of (by omega) (by omega) fun _ =>
      cons_lt_cons_of (by omega) (by omega) fun _ =>
        cons_lt_cons_of (by omega) (by omega) fun _ => by omega

theorem encodedAll_lt {l m : List Char} (h : l < m) :
    l.flatMap String.utf8EncodeChar < m.flatMap String.utf8EncodeChar := by
  induction h with
  | @nil d m =>
      obtain ⟨b, r, hd⟩ := List.exists_cons_of_ne_nil (l := String.utf8EncodeChar d) (by simp)
      rw [List.flatMap_nil, List.flatMap_cons, hd]
      exact List.nil_lt_cons _ _
  | rel hlt => exact encoded_lt hlt _ _
  | cons _ ih => exact List.append_left_lt ih

theorem bytes_lt_of_lt {a b : String} (h : a < b) : bytes a < bytes b := by
  rw [bytes_eq, bytes_eq]
  exact encodedAll_lt (String.lt_iff_toList_lt.1 h)

/-- The order of texts is the order of their bytes. -/
theorem lt_iff_bytes_lt {a b : String} : a < b ↔ bytes a < bytes b := by
  refine ⟨bytes_lt_of_lt, fun h => ?_⟩
  rcases lt_trichotomy a b with hlt | rfl | hgt
  · exact hlt
  · exact absurd h (List.lt_irrefl _)
  · exact absurd h (List.lt_asymm (bytes_lt_of_lt hgt))

theorem le_iff_bytes_le {a b : String} : a ≤ b ↔ bytes a ≤ bytes b := by
  rw [← not_lt, lt_iff_bytes_lt, List.not_lt]

end EdgeRouting.Text
