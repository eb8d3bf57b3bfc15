import ModelDirectives.Json.Numeral
import ModelDirectives.Json.Spelling

namespace ModelDirectives.Json

/-- What a text is cut into before it is read. A word, a numeral or a string that is not written
rightly is a token too, and the last one: what is wrong with it is told only when it is read, since
at many places another fault comes first. -/
inductive Token where
  | openBracket
  | closeBracket
  | openBrace
  | closeBrace
  | comma
  | colon
  | null (outcome : Except Cut Unit)
  | bool (flag : Bool) (outcome : Except Cut Unit)
  | number (outcome : Except Cut Numeral)
  | string (pieces : List Piece) (ending : Ending)
  | stray
  deriving Repr

namespace Token

/-- A character that may stand between tokens. -/
def isSpace (c : Char) : Bool :=
  c = ' ' || c = '\n' || c = '\t' || c = '\r'

/-- The text behind the rest of a word. -/
def behind : List Char → List Char → Except Cut (List Char)
  | [], cs => .ok cs
  | _ :: _, [] => .error .ended
  | w :: ws, c :: cs => if c = w then behind ws cs else .error .broken

/-- The token of a word, and the text behind it unless the word is cut. -/
def ofWord (make : Except Cut Unit → Token) (letters cs : List Char) :
    Token × Option (List Char) :=
  match behind letters cs with
  | .ok rest => (make (.ok ()), some rest)
  | .error cut => (make (.error cut), none)

/-- The token of a string from behind its opening quote, and the text behind it if it is closed. -/
def ofString (cs : List Char) : Token × Option (List Char) :=
  let (pieces, ending, rest) := Spelling.scan cs
  (.string pieces ending, if ending = .closed then some rest else none)

/-- The token of a number, and the text behind it if it is written rightly. -/
def ofNumeral (cs : List Char) : Token × Option (List Char) :=
  match Numeral.read cs with
  | .ok (n, rest) => (.number (.ok n), some rest)
  | .error cut => (.number (.error cut), none)

/-- The token that is a single character. -/
def punctuation? (c : Char) : Option Token :=
  if c = '[' then some .openBracket
  else if c = ']' then some .closeBracket
  else if c = '{' then some .openBrace
  else if c = '}' then some .closeBrace
  else if c = ',' then some .comma
  else if c = ':' then some .colon
  else none

/-- The token that starts with a character, and the text behind it. There is none when the token is
not written rightly. -/
def lexeme (c : Char) (cs : List Char) : Token × Option (List Char) :=
  match punctuation? c with
  | some t => (t, some cs)
  | none =>
    if c = '"' then ofString cs
    else if c = 'n' then ofWord .null ['u', 'l', 'l'] cs
    else if c = 't' then ofWord (.bool true) ['r', 'u', 'e'] cs
    else if c = 'f' then ofWord (.bool false) ['a', 'l', 's', 'e'] cs
    else if c = '-' || c.isDigit then ofNumeral (c :: cs)
    else (.stray, none)

theorem behind_length {ws cs rest : List Char} (h : behind ws cs = .ok rest) :
    rest.length ≤ cs.length := by
  induction ws generalizing cs with
  | nil =>
    cases h
    exact Nat.le_refl _
  | cons w ws ih =>
    cases cs with
    | nil => cases h
    | cons c cs =>
      unfold behind at h
      split at h
      · exact Nat.le_succ_of_le (ih h)
      · cases h

theorem ofWord_length {make : Except Cut Unit → Token} {letters cs rest : List Char} {t : Token}
    (h : ofWord make letters cs = (t, some rest)) : rest.length ≤ cs.length := by
  unfold ofWord at h
  split at h
  next hb =>
    cases h
    exact behind_length hb
  · cases h

theorem ofString_length {cs rest : List Char} {t : Token} (h : ofString cs = (t, some rest)) :
    rest.length ≤ cs.length := by
  simp only [ofString, Prod.mk.injEq] at h
  have hr := h.2
  split at hr
  · cases hr
    exact Spelling.scan_length cs
  · cases hr

theorem ofNumeral_length {cs rest : List Char} {t : Token} (h : ofNumeral cs = (t, some rest)) :
    rest.length < cs.length := by
  unfold ofNumeral at h
  split at h
  next hr =>
    cases h
    exact Numeral.read_length hr
  · cases h

/-- Behind a token there is no more text than behind its first character. -/
theorem lexeme_length {c : Char} {cs rest : List Char} {t : Token}
    (h : lexeme c cs = (t, some rest)) : rest.length ≤ cs.length := by
  unfold lexeme at h
  split at h
  · cases h
    exact Nat.le_refl _
  by_cases hq : c = '"'
  · rw [if_pos hq] at h
    exact ofString_length h
  by_cases hn : c = 'n'
  · rw [if_neg hq, if_pos hn] at h
    exact ofWord_length h
  by_cases ht : c = 't'
  · rw [if_neg hq, if_neg hn, if_pos ht] at h
    exact ofWord_length h
  by_cases hf : c = 'f'
  · rw [if_neg hq, if_neg hn, if_neg ht, if_pos hf] at h
    exact ofWord_length h
  rw [if_neg hq, if_neg hn, if_neg ht, if_neg hf] at h
  split at h
  · exact Nat.le_of_lt_succ (ofNumeral_length h)
  · cases h

end Token

/-- The tokens of a text, up to the first one that is not written rightly. -/
def tokens : List Char → List Token
  | [] => []
  | c :: cs =>
    if Token.isSpace c then tokens cs
    else
      match _h : Token.lexeme c cs with
      | (t, none) => [t]
      | (t, some rest) => t :: tokens rest
termination_by cs => cs.length
decreasing_by
  · simp
  · have := Token.lexeme_length _h
    simp only [List.length_cons]
    omega

end ModelDirectives.Json
