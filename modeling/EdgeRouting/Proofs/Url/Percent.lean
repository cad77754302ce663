import EdgeRouting.Proofs.Url.Segments

/-!
# What was encoded is found again

Where a percent sign is encoded itself, decoding gives back the text that was encoded
(`percentDecode_percentEncode`): a percent sign then stands for the byte behind it and nothing else.
The characters of an encoding are the ones that need none, percent signs and digits
(`mem_percentChar`), so a separator that is encoded does not occur in it.
-/

namespace EdgeRouting.Url

open Text (hexValue?)

variable {set : Char → Bool} {c d : Char} {s r : List Char}

/-! ## Digits -/

theorem hexValue_hexUpper {n : Nat} (h : n < 16) : hexValue? (hexUpper n) = some n := by
  have hall : ∀ n < 16, hexValue? (hexUpper n) = some n := by decide
  exact hall n h

theorem isAlphanum_hexUpper {n : Nat} (h : n < 16) : (hexUpper n).isAlphanum = true := by
  have hall : ∀ n < 16, (hexUpper n).isAlphanum = true := by decide
  exact hall n h

/-! ## Decoding -/

theorem percentDecodeBytes_of_ne (h : c ≠ '%') :
    percentDecodeBytes (c :: r) = String.utf8EncodeChar c ++ percentDecodeBytes r := by
  rw [percentDecodeBytes]
  rintro _ _ _ rfl
  exact absurd rfl h

theorem percentDecodeBytes_percentByte (b : UInt8) :
    percentDecodeBytes (percentByte b ++ r) = b :: percentDecodeBytes r := by
  have hb : b.toNat < 256 := b.toNat_lt
  have hbyte : UInt8.ofNat (16 * (b.toNat / 16) + b.toNat % 16) = b := by
    rw [Nat.div_add_mod, UInt8.ofNat_toNat]
  simp only [percentByte, List.cons_append, List.nil_append, percentDecodeBytes,
    hexValue_hexUpper (show b.toNat / 16 < 16 by omega),
    hexValue_hexUpper (show b.toNat % 16 < 16 by omega), hbyte]

theorem percentDecodeBytes_flatMap_percentByte (bytes : List UInt8) :
    percentDecodeBytes (bytes.flatMap percentByte ++ r) = bytes ++ percentDecodeBytes r := by
  induction bytes with
  | nil => rfl
  | cons b bytes ih =>
      rw [List.flatMap_cons, List.append_assoc, percentDecodeBytes_percentByte, ih,
        List.cons_append]

theorem percentDecodeBytes_percentChar (h : set '%' = true) :
    percentDecodeBytes (percentChar set c ++ r)
      = String.utf8EncodeChar c ++ percentDecodeBytes r := by
  by_cases hplain : c.toNat < 0x80 ∧ set c = false
  · have hne : c ≠ '%' := by
      rintro rfl
      rw [hplain.2] at h
      cases h
    rw [percentChar_of_plain hplain.1 hplain.2, List.singleton_append, percentDecodeBytes_of_ne hne]
  · rw [percentChar_of_encoded hplain, percentDecodeBytes_flatMap_percentByte]

theorem percentDecodeBytes_percentEncode (h : set '%' = true) (s : List Char) :
    percentDecodeBytes (percentEncode set s) = s.flatMap String.utf8EncodeChar := by
  induction s with
  | nil => rfl
  | cons c s ih =>
      rw [percentEncode, List.flatMap_cons, percentDecodeBytes_percentChar h, List.flatMap_cons]
      exact congrArg _ ih

/-- The UTF-8 form of a text is read as the text. -/
theorem fromUTF8_utf8Encode (s : List Char) :
    String.fromUTF8? ⟨(s.flatMap String.utf8EncodeChar).toArray⟩ = some (String.ofList s) := by
  have hbytes : (⟨(s.flatMap String.utf8EncodeChar).toArray⟩ : ByteArray)
      = (String.ofList s).toByteArray := by
    rw [String.toByteArray_ofList, List.utf8Encode, ByteArray.ext_iff]
    exact List.data_toByteArray.symm
  rw [hbytes, String.fromUTF8?, dif_pos (String.ofList s).isValidUTF8]
  rfl

theorem percentDecode_percentEncode (h : set '%' = true) (s : List Char) :
    percentDecode? (percentEncode set s) = some s := by
  rw [percentDecode?, percentDecodeBytes_percentEncode h, fromUTF8_utf8Encode, Option.map_some,
    String.toList_ofList]

/-! ## Characters of an encoded text -/

theorem mem_percentByte {b : UInt8} (h : d ∈ percentByte b) :
    d = '%' ∨ d.isAlphanum = true := by
  have hb : b.toNat < 256 := b.toNat_lt
  simp only [percentByte, List.mem_cons, List.not_mem_nil, or_false] at h
  rcases h with rfl | rfl | rfl
  · exact .inl rfl
  · exact .inr (isAlphanum_hexUpper (by omega))
  · exact .inr (isAlphanum_hexUpper (by omega))

theorem mem_percentChar (h : d ∈ percentChar set c) :
    d = c ∧ set c = false ∨ d = '%' ∨ d.isAlphanum = true := by
  by_cases hplain : c.toNat < 0x80 ∧ set c = false
  · rw [percentChar_of_plain hplain.1 hplain.2] at h
    exact .inl ⟨List.mem_singleton.1 h, hplain.2⟩
  · rw [percentChar_of_encoded hplain] at h
    obtain ⟨b, -, hb⟩ := List.mem_flatMap.1 h
    exact .inr (mem_percentByte hb)

/-- A separator that is encoded does not occur in an encoding. -/
theorem not_mem_percentChar (hset : set d = true) (hpercent : d ≠ '%')
    (halphanum : d.isAlphanum = false) : d ∉ percentChar set c := by
  intro hmem
  rcases mem_percentChar hmem with ⟨rfl, hplain⟩ | hsign | hdigit
  · rw [hset] at hplain
    cases hplain
  · exact hpercent hsign
  · rw [halphanum] at hdigit
    cases hdigit

theorem not_mem_percentEncode (hset : set d = true) (hpercent : d ≠ '%')
    (halphanum : d.isAlphanum = false) : d ∉ percentEncode set s := by
  intro hmem
  obtain ⟨c, -, hc⟩ := List.mem_flatMap.1 hmem
  exact not_mem_percentChar hset hpercent halphanum hc

end EdgeRouting.Url
