import Mathlib.Data.List.Basic
import EdgeRouting.Proofs.Names
import EdgeRouting.Proofs.Text.Decimal
import EdgeRouting.Url.Basic

/-!
# Segments put on a path

A segment that is put on a path stays one segment. It is encoded, and its encoding is one or two
dots only if the segment is (`eq_of_isSingleDot`, `eq_of_isDoubleDot`): a dot is never encoded, and
what is encoded begins with a percent sign and the first byte of a character that is no dot. So
nothing steps out of the path, and the path that is built consists of the base and of the encoded
segments (`append?_cons`, `foldl_pushSegment`). A name is its own encoding.
-/

namespace EdgeRouting.Url

variable {set : Char → Bool} {special : Bool} {c : Char} {s : List Char}

/-! ## Encoding -/

theorem percentChar_of_plain (hascii : c.toNat < 0x80) (hplain : set c = false) :
    percentChar set c = [c] := by
  simp [percentChar, hascii, hplain]

theorem percentChar_of_encoded (h : ¬(c.toNat < 0x80 ∧ set c = false)) :
    percentChar set c = (String.utf8EncodeChar c).flatMap percentByte := by
  refine if_neg ?_
  simpa using h

theorem percentEncode_of_plain (h : ∀ c ∈ s, c.toNat < 0x80 ∧ set c = false) :
    percentEncode set s = s := by
  induction s with
  | nil => rfl
  | cons c r ih =>
      obtain ⟨⟨hascii, hplain⟩, hr⟩ := List.forall_mem_cons.1 h
      have hrest : r.flatMap (percentChar set) = r := ih hr
      rw [percentEncode, List.flatMap_cons, percentChar_of_plain hascii hplain, hrest]
      rfl

/-- The first byte of a character is below 128 only if it is the character. -/
theorem exists_utf8EncodeChar (c : Char) : ∃ b r, String.utf8EncodeChar c = b :: r
    ∧ (b.toNat < 0x80 → c.toNat = b.toNat) := by
  have hvalue : c.val.toNat = c.toNat := rfl
  unfold String.utf8EncodeChar
  simp only [hvalue]
  split
  · exact ⟨_, _, rfl, fun _ => by rw [UInt8.toNat_ofNat']; omega⟩
  · split
    · exact ⟨_, _, rfl, fun h => by rw [UInt8.toNat_ofNat'] at h; omega⟩
    · split
      · exact ⟨_, _, rfl, fun h => by rw [UInt8.toNat_ofNat'] at h; omega⟩
      · exact ⟨_, _, rfl, fun h => by rw [UInt8.toNat_ofNat'] at h; omega⟩

theorem eq_of_toLower_hexUpper {n m : Nat} (hn : n < 16) (hm : m < 16)
    (h : (hexUpper n).toLower = (hexUpper m).toLower) : n = m := by
  have hall : ∀ n < 16, ∀ m < 16, (hexUpper n).toLower = (hexUpper m).toLower → n = m := by decide
  exact hall n hn m hm h

/-- Only a letter becomes a letter in lower case. -/
theorem eq_of_toLower {d : Char} (hd : d.toNat < 97) (h : c.toLower = d) : c = d := by
  unfold Char.toLower at h
  split at h
  · next hupper =>
    have hvalue : (c.val + 32).toNat = d.toNat := congrArg Char.toNat h
    have hlower : 65 ≤ c.val.toNat := UInt32.le_iff_toNat_le.1 hupper.1
    have hle : c.val.toNat ≤ 90 := UInt32.le_iff_toNat_le.1 hupper.2
    rw [UInt32.toNat_add] at hvalue
    simp only [UInt32.reduceToNat] at hvalue
    omega
  · exact h

/-! ## Dots -/

/-- A text of dots, some of which may be encoded. -/
inductive IsDots : List Char → Prop where
  | nil : IsDots []
  | plain {r : List Char} : IsDots r → IsDots ('.' :: r)
  | encoded {r : List Char} : IsDots r → IsDots ('%' :: '2' :: 'e' :: r)

theorem IsDots.cons (h : IsDots (c :: s)) :
    c = '.' ∧ IsDots s ∨ c = '%' ∧ ∃ r, s = '2' :: 'e' :: r ∧ IsDots r := by
  cases h with
  | plain hr => exact .inl ⟨rfl, hr⟩
  | encoded hr => exact .inr ⟨rfl, _, rfl, hr⟩

/-- Where a dot is not encoded but a percent sign is, only dots become dots. -/
theorem eq_dot_of_isDots (hdot : set '.' = false) (hpercent : set '%' = true)
    (h : IsDots ((percentEncode set s).map Char.toLower)) : ∀ c ∈ s, c = '.' := by
  induction s with
  | nil => simp
  | cons c r ih =>
      rw [percentEncode, List.flatMap_cons, List.map_append] at h
      by_cases hplain : c.toNat < 0x80 ∧ set c = false
      · rw [percentChar_of_plain hplain.1 hplain.2] at h
        rcases h.cons with ⟨hlower, hr⟩ | ⟨hlower, -⟩
        · exact List.forall_mem_cons.2 ⟨eq_of_toLower (by decide) hlower, ih hr⟩
        · obtain rfl := eq_of_toLower (by decide) hlower
          rw [hplain.2] at hpercent
          cases hpercent
      · obtain ⟨b, bytes, hbytes, hfirst⟩ := exists_utf8EncodeChar c
        rw [percentChar_of_encoded hplain, hbytes, List.flatMap_cons, percentByte] at h
        have hb : b.toNat < 256 := b.toNat_lt
        -- The percent sign is that of an encoded dot, which the byte behind it would have to be.
        rcases h.cons with ⟨hnot, -⟩ | ⟨-, _, hrest, -⟩
        · cases hnot
        · obtain ⟨hhigh, htail⟩ := List.cons.inj hrest
          obtain ⟨hlow, -⟩ := List.cons.inj htail
          have htwo : b.toNat / 16 = 2 := eq_of_toLower_hexUpper (by omega) (by omega) hhigh
          have he : b.toNat % 16 = 14 := eq_of_toLower_hexUpper (by omega) (by omega) hlow
          have hc : c.toNat = '.'.toNat := (hfirst (by omega)).trans (by
            show b.toNat = 46
            omega)
          obtain rfl := Char.toNat_inj.1 hc
          exact absurd ⟨by decide, hdot⟩ hplain

theorem percentEncode_dots (hdot : set '.' = false) (h : ∀ c ∈ s, c = '.') :
    percentEncode set s = s := by
  refine percentEncode_of_plain fun c hc => ?_
  rw [h c hc]
  exact ⟨by decide, hdot⟩

theorem percent_not_mem_dots (h : ∀ c ∈ s, c = '.') : '%' ∉ s.map Char.toLower := by
  intro hmem
  obtain ⟨c, hc, hlower⟩ := List.mem_map.1 hmem
  rw [h c hc] at hlower
  cases hlower

theorem map_toLower_dots (h : ∀ c ∈ s, c = '.') : s.map Char.toLower = s := by
  have hlower : ∀ c ∈ s, c.toLower = id c := by
    intro c hc
    rw [h c hc]
    rfl
  rw [List.map_congr_left hlower, List.map_id]

/-- An encoded segment is a dot only if the segment is one. -/
theorem eq_of_isSingleDot (hdot : set '.' = false) (hpercent : set '%' = true)
    (h : isSingleDot (percentEncode set s) = true) : s = ['.'] := by
  have hdots : IsDots ((percentEncode set s).map Char.toLower) := by
    rcases Bool.or_eq_true_iff.1 h with h | h
    · rw [of_decide_eq_true h]
      exact .plain .nil
    · rw [of_decide_eq_true h]
      exact .encoded .nil
  have hall := eq_dot_of_isDots hdot hpercent hdots
  rw [percentEncode_dots hdot hall] at h
  have hnot := percent_not_mem_dots hall
  rcases Bool.or_eq_true_iff.1 h with h | h
  · exact of_decide_eq_true h
  · simp [of_decide_eq_true h] at hnot

theorem eq_of_isDoubleDot (hdot : set '.' = false) (hpercent : set '%' = true)
    (h : isDoubleDot (percentEncode set s) = true) : s = ['.', '.'] := by
  have hdots : IsDots ((percentEncode set s).map Char.toLower) := by
    simp only [isDoubleDot, Bool.or_eq_true, decide_eq_true_eq] at h
    rcases h with ((h | h) | h) | h
    · rw [h]
      exact .plain (.plain .nil)
    · rw [h]
      exact .plain (.encoded .nil)
    · rw [h]
      exact .encoded (.plain .nil)
    · rw [h]
      exact .encoded (.encoded .nil)
  have hall := eq_dot_of_isDots hdot hpercent hdots
  rw [percentEncode_dots hdot hall] at h
  have hnot := percent_not_mem_dots hall
  simp only [isDoubleDot, Bool.or_eq_true, decide_eq_true_eq] at h
  rcases h with ((h | h) | h) | h
  · rwa [map_toLower_dots hall] at h
  · simp [h] at hnot
  · simp [h] at hnot
  · simp [h] at hnot

/-! ## Paths -/

/-- A segment that is neither one nor two dots, when what vanishes has gone. -/
structure Undotted (segment : String) : Prop where
  single : segment.toList.filter (!isIgnored ·) ≠ ['.']
  double : segment.toList.filter (!isIgnored ·) ≠ ['.', '.']

/-- A segment as it stands in a path, as a text. -/
def segmentText (special : Bool) (segment : String) : String :=
  String.ofList (encodeSegment special segment.toList)

/-- The segments of a path that stand before those that are put on it. -/
def base (path : List String) : List String :=
  if popIfEmpty path = [""] then [] else popIfEmpty path

variable {scheme segment : String} {path segments : List String}

theorem segmentSet_dot (special : Bool) : segmentSet special '.' = false := by
  cases special <;> decide

theorem segmentSet_percent (special : Bool) : segmentSet special '%' = true := by
  cases special <;> decide

theorem Undotted.ne_dots (h : Undotted segment) : segment ≠ "." ∧ segment ≠ ".." := by
  constructor
  · rintro rfl
    exact h.single (by decide)
  · rintro rfl
    exact h.double (by decide)

theorem Undotted.pushSegment_of_not_drive (h : Undotted segment)
    (hdrive : (decide (scheme = "file") && (if path = [""] then [] else path).isEmpty
      && isDrive (encodeSegment (isSpecialScheme scheme) segment.toList)) ≠ true) :
    Url.pushSegment scheme path segment
      = (if path = [""] then [] else path) ++ [segmentText (isSpecialScheme scheme) segment] := by
  have hsingle : isSingleDot (encodeSegment (isSpecialScheme scheme) segment.toList) ≠ true :=
    mt (eq_of_isSingleDot (segmentSet_dot _) (segmentSet_percent _)) h.single
  have hdouble : isDoubleDot (encodeSegment (isSpecialScheme scheme) segment.toList) ≠ true :=
    mt (eq_of_isDoubleDot (segmentSet_dot _) (segmentSet_percent _)) h.double
  have hdots : (decide (segment = ".") || decide (segment = "..")) ≠ true := by
    simpa [not_or] using h.ne_dots
  rw [Url.pushSegment, if_neg hdots]
  simp only [walk]
  rw [if_neg hdouble, if_neg hsingle, if_neg hdrive]
  rfl

/-- Behind a segment there are no drives. -/
theorem Undotted.pushSegment (h : Undotted segment) (hpath : path ≠ []) (hslash : path ≠ [""]) :
    Url.pushSegment scheme path segment
      = path ++ [segmentText (isSpecialScheme scheme) segment] := by
  have hbehind : (if path = [""] then [] else path) = path := if_neg hslash
  rw [h.pushSegment_of_not_drive (by simp [hbehind, hpath]), hbehind]

/-- What a segment was put on is nothing but a slash only if there was nothing, and nothing put. -/
theorem concat_ne_slash (h : path ≠ [] ∨ segment ≠ "") : path ++ [segment] ≠ [""] := by
  intro heq
  rcases List.append_eq_singleton_iff.1 heq with ⟨hnil, hempty⟩ | ⟨-, hnone⟩
  · exact h.elim (· hnil) (· (List.singleton_inj.1 hempty))
  · cases hnone

/-- Segments that are put on a path that has a segment already all stay segments of their own. -/
theorem foldl_pushSegment (h : ∀ s ∈ segments, Undotted s) (hpath : path ≠ [])
    (hslash : path ≠ [""]) : segments.foldl (pushSegment scheme) path
      = path ++ segments.map (segmentText (isSpecialScheme scheme)) := by
  induction segments generalizing path with
  | nil => simp
  | cons s r ih =>
      obtain ⟨hs, hr⟩ := List.forall_mem_cons.1 h
      rw [List.foldl_cons, hs.pushSegment hpath hslash,
        ih hr (by simp) (concat_ne_slash (.inl hpath))]
      simp

/-- A first segment that is no drive is put behind the base of any path. -/
theorem append?_cons {u : Url} {first : String} (hpath : u.path = .segments path)
    (hfirst : Undotted first)
    (hdrive : isDrive (encodeSegment (isSpecialScheme u.scheme) first.toList) = false) :
    u.append? (first :: segments) = some { u with
      path := .segments (segments.foldl (pushSegment u.scheme)
        (base path ++ [segmentText (isSpecialScheme u.scheme) first])) } := by
  have hpush : Url.pushSegment u.scheme (popIfEmpty path) first
      = base path ++ [segmentText (isSpecialScheme u.scheme) first] :=
    hfirst.pushSegment_of_not_drive (by simp [hdrive])
  rw [append?, hpath]
  simp only [List.foldl_cons, hpush]

/-! ## Names -/

theorem plain_of_isNameChar (special : Bool) (h : isNameChar c = true) :
    c.toNat < 0x80 ∧ segmentSet special c = false ∧ isIgnored c = false ∧ c ≠ '.' := by
  have hascii : c.toNat < 0x80 := toNat_lt_of_isNameChar h
  have hplain : isNameChar c = true →
      segmentSet special c = false ∧ isIgnored c = false ∧ c ≠ '.' :=
    Text.ascii_induction hascii (by cases special <;> decide)
  exact ⟨hascii, hplain h⟩

theorem filter_of_name (h : ∀ c ∈ s, isNameChar c = true) : s.filter (!isIgnored ·) = s := by
  refine List.filter_eq_self.2 fun c hc => ?_
  rw [(plain_of_isNameChar false (h c hc)).2.2.1]
  rfl

theorem undotted_of_name (h : ∀ c ∈ segment.toList, isNameChar c = true) : Undotted segment := by
  have hdot : '.' ∉ segment.toList := fun hmem => (plain_of_isNameChar false (h _ hmem)).2.2.2 rfl
  constructor <;>
  · rw [filter_of_name h]
    intro heq
    rw [heq] at hdot
    exact hdot List.mem_cons_self

/-- A name is its own encoding. -/
theorem encodeSegment_of_name (h : ∀ c ∈ s, isNameChar c = true) : encodeSegment special s = s := by
  rw [encodeSegment, filter_of_name h, percentEncode_of_plain fun c hc =>
    ⟨(plain_of_isNameChar special (h c hc)).1, (plain_of_isNameChar special (h c hc)).2.1⟩]

theorem segmentText_of_name (h : ∀ c ∈ segment.toList, isNameChar c = true) :
    segmentText special segment = segment := by
  rw [segmentText, encodeSegment_of_name h, String.ofList_toList]

theorem isNameChar_of_mem_toString {n : Nat} (h : c ∈ (toString n).toList) :
    isNameChar c = true := by
  have hdigit : c.isDigit = true := Text.isDigit_of_mem_natText h
  simp [isNameChar, Char.isAlphanum, hdigit]

end EdgeRouting.Url
