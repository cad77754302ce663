import EdgeRouting.Http.Form
import EdgeRouting.Proofs.Lists
import EdgeRouting.Proofs.Url.Percent

/-!
# Forms are read as they were written

In an encoded text a blank is a plus sign and a plus sign is encoded, so the text is found again
when both are put back (`formDecode?_formText`). Neither separator occurs in an encoded text, so the
body of a form has the pieces that it was put together from (`formFields?_formBody`).
-/

namespace EdgeRouting.Http

/-- The characters that are encoded once blanks are put back. -/
def inPlusSet (c : Char) : Bool := c ≠ ' ' && inFormSet c

theorem map_plus_formChar (c : Char) : (formChar c).map (fun d => if d = '+' then ' ' else d)
    = Url.percentChar inPlusSet c := by
  unfold formChar
  by_cases hblank : c = ' '
  · subst hblank
    decide
  · have hsame : inPlusSet c = inFormSet c := by simp [inPlusSet, hblank]
    have hkept : ∀ d ∈ Url.percentChar inFormSet c, (if d = '+' then ' ' else d) = id d := by
      intro d hd
      refine if_neg ?_
      rintro rfl
      exact Url.not_mem_percentChar (by decide) (by decide) (by decide) hd
    rw [if_neg hblank, List.map_congr_left hkept, List.map_id, Url.percentChar, Url.percentChar,
      hsame]

theorem formDecode?_formText (s : String) : formDecode? (formText s).toList = some s := by
  have hplus : (formText s).toList.map (fun d => if d = '+' then ' ' else d)
      = Url.percentEncode inPlusSet s.toList := by
    rw [formText, String.toList_ofList, List.map_flatMap, Url.percentEncode]
    exact congrArg (s.toList.flatMap ·) (funext map_plus_formChar)
  rw [formDecode?, hplus, Url.percentDecode_percentEncode (by decide), Option.map_some,
    String.ofList_toList]

/-- A separator of forms does not occur in an encoded text. -/
theorem not_mem_formText {d : Char} (hset : inFormSet d = true) (hpercent : d ≠ '%')
    (hplus : d ≠ '+') (s : String) : d ∉ (formText s).toList := by
  have halphanum : d.isAlphanum = false := by
    simp only [inFormSet, Bool.not_eq_true', Bool.or_eq_false_iff] at hset
    exact hset.1.1.1.1
  rw [formText, String.toList_ofList, List.mem_flatMap]
  rintro ⟨c, -, hmem⟩
  unfold formChar at hmem
  split at hmem
  · exact hplus (List.mem_singleton.1 hmem)
  · exact Url.not_mem_percentChar hset hpercent halphanum hmem

theorem joinPieces_eq_intercalate (separator : List Char) (l : List (List Char)) :
    Text.joinPieces separator l = separator.intercalate l := by
  match l with
  | [] => rfl
  | [p] => rw [Text.joinPieces, List.intercalate_singleton]
  | p :: q :: r =>
      rw [Text.joinPieces, joinPieces_eq_intercalate separator (q :: r),
        List.intercalate_cons_cons]
      exact List.cons_ne_nil q r

/-- A field as it stands in a body. -/
def fieldText (f : String × String) : String := formText f.1 ++ "=" ++ formText f.2

theorem toList_fieldText (f : String × String) :
    (fieldText f).toList = (formText f.1).toList ++ '=' :: (formText f.2).toList := by
  simp [fieldText]

theorem separator_not_mem_fieldText (f : String × String) : '&' ∉ (fieldText f).toList := by
  have htext := not_mem_formText (d := '&') (by decide) (by decide) (by decide)
  rw [toList_fieldText, List.mem_append, List.mem_cons, not_or, not_or]
  exact ⟨htext f.1, by decide, htext f.2⟩

/-- The name of a field and its value, on both sides of the first separator. -/
theorem cut_fieldText (f : String × String) :
    (fieldText f).toList.takeWhile (· ≠ '=') = (formText f.1).toList
      ∧ (fieldText f).toList.dropWhile (· ≠ '=') = '=' :: (formText f.2).toList := by
  have hname : ∀ c ∈ (formText f.1).toList, decide (c ≠ '=') = true := by
    intro c hc
    refine decide_eq_true ?_
    rintro rfl
    exact not_mem_formText (by decide) (by decide) (by decide) f.1 hc
  rw [toList_fieldText]
  constructor
  · rw [List.takeWhile_append_of_pos hname, List.takeWhile_cons_of_neg (by decide), List.append_nil]
  · rw [List.dropWhile_append_of_pos hname, List.dropWhile_cons_of_neg (by decide)]

theorem formFields?_formBody (fields : List (String × String)) :
    formFields? (formBody fields) = some fields := by
  cases fields with
  | nil => rfl
  | cons f r =>
      have hbody : (formBody (f :: r)).toList
          = Text.joinPieces ['&'] ((f :: r).map fun g => (fieldText g).toList) := by
        rw [formBody, String.toList_intercalate, joinPieces_eq_intercalate, List.map_map]
        rfl
      have hpieces : Text.pieces '&' (formBody (f :: r)).toList
          = (f :: r).map fun g => (fieldText g).toList := by
        rw [hbody]
        refine Text.pieces_joinPieces '&' (by simp) ?_
        exact List.forall_mem_map.2 fun g _ => separator_not_mem_fieldText g
      have hne : (formBody (f :: r)).isEmpty ≠ true := by
        intro hempty
        rw [String.isEmpty_iff.1 hempty] at hpieces
        have hfirst : [] = (fieldText f).toList := (List.cons.inj hpieces).1
        simp [toList_fieldText] at hfirst
      rw [formFields?, if_neg hne, hpieces, mapM_eq_some_iff, List.forall₂_map_left_iff,
        List.forall₂_same]
      intro g _
      rw [(cut_fieldText g).1, (cut_fieldText g).2, formDecode?_formText, List.drop_one,
        List.tail_cons, formDecode?_formText]
      rfl

end EdgeRouting.Http
