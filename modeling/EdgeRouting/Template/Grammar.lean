import EdgeRouting.Template.Basic

/-!
# The grammar of templates

A template is a row of tokens: characters that stand for themselves, doubled braces that stand for
one, and names of placeholders between braces. Nothing in a token depends on what stands around it.
A text that is no template is a row of tokens up to a brace with which no token begins.
-/

namespace EdgeRouting.Template

/-- What one token of a template stands for. -/
inductive Token where
  | char (c : Char)
  | field (f : Placeholder)
  deriving Repr, DecidableEq

/-- A text is a row of tokens. -/
inductive Spells : List Char → List Token → Prop where
  | nil : Spells [] []
  | openBrace {r : List Char} {tokens : List Token} :
    Spells r tokens → Spells ('\x7b' :: '\x7b' :: r) (.char '\x7b' :: tokens)
  | closeBrace {r : List Char} {tokens : List Token} :
    Spells r tokens → Spells ('\x7d' :: '\x7d' :: r) (.char '\x7d' :: tokens)
  | plain {c : Char} {r : List Char} {tokens : List Token} :
    c ≠ '\x7b' → c ≠ '\x7d' → Spells r tokens → Spells (c :: r) (.char c :: tokens)
  | field {name r : List Char} {f : Placeholder} {tokens : List Token} :
    name.head? ≠ some '\x7b' → '\x7d' ∉ name →
    Placeholder.ofName? (String.ofList (Text.trimChars name)) = some f →
    Spells r tokens → Spells ('\x7b' :: (name ++ '\x7d' :: r)) (.field f :: tokens)

/-- A text that begins at a byte begins with a brace that makes this fault: one that opens what is
no placeholder or is never closed, or one that closes nothing. -/
def Fault.IsAhead (fault : Fault) (byte : Nat) (ahead : List Char) : Prop :=
  match fault with
  | .unknownPlaceholder name => ∃ after, ahead = '\x7b' :: (name.toList ++ '\x7d' :: after)
      ∧ name.toList.head? ≠ some '\x7b' ∧ '\x7d' ∉ name.toList
      ∧ Placeholder.ofName? (String.ofList (Text.trimChars name.toList)) = none
  | .unclosed place => place = byte
      ∧ ∃ after, ahead = '\x7b' :: after ∧ after.head? ≠ some '\x7b' ∧ '\x7d' ∉ after
  | .strayBrace place => place = byte
      ∧ ∃ after, ahead = '\x7d' :: after ∧ after.head? ≠ some '\x7d'

/-- A fault whose place is that many bytes further on. -/
def Fault.movedBy (n : Nat) : Fault → Fault
  | .unknownPlaceholder name => .unknownPlaceholder name
  | .unclosed byte => .unclosed (n + byte)
  | .strayBrace byte => .strayBrace (n + byte)

end EdgeRouting.Template
