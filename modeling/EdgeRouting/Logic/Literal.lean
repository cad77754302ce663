import EdgeRouting.Text.Occurrence

/-!
# String constants of edge logic

A plain string stands between quotation marks, cannot contain one, and has its percent signs
decoded. A long string stands between an opening brace with a run of letters `E` and a quotation
mark, and the same in reverse; it ends at the first such ending, and nothing in it is decoded. A
text with a quotation mark or a percent sign is therefore written as a long string, with the
shortest run for which its ending does not occur in the text.
-/

namespace EdgeRouting.Logic

open Text (occurs)

/-- The ending of a long string with a run of `n` letters. -/
def longEnding (n : Nat) : List Char := '"' :: List.replicate n 'E' ++ ['\x7d']

/-- The shortest run, of at least `n` letters, whose ending does not occur in `s`. -/
def shortestRun (s : List Char) (n : Nat) : Nat :=
  if h : occurs (longEnding n) s = true then
    have : n + 2 ≤ s.length := by
      have hle := (Text.occurs_iff.1 h).length_le
      simp only [longEnding, List.length_append, List.length_cons, List.length_replicate,
        List.length_nil] at hle
      omega
    shortestRun s (n + 1)
  else n
termination_by s.length - n

/-- Whether a text can be written as a plain string. -/
def isPlainText (s : List Char) : Bool := !s.contains '"' && !s.contains '%'

def longLiteral (s : List Char) : List Char :=
  let n := shortestRun s 0
  '\x7b' :: List.replicate n 'E' ++ '"' :: s ++ longEnding n

def literalChars (s : List Char) : List Char :=
  if isPlainText s then '"' :: s ++ ['"'] else longLiteral s

def literal (s : String) : String := String.ofList (literalChars s.toList)

theorem not_occurs_shortestRun (s : List Char) (n : Nat) :
    occurs (longEnding (shortestRun s n)) s = false := by
  fun_induction shortestRun s n with
  | case1 n h _ ih => exact ih
  | case2 n h => simpa using h

end EdgeRouting.Logic
