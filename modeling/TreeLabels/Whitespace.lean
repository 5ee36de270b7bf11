/-
Whitespace escapes.  A tab, a newline and a carriage return are written as a
backslash and a letter, and on request a space is written as a middle dot; every
other character stands for itself.  A text in which nothing is replaced is kept
as it is, and the result says so.  Escapes are read back from left to right,
with one character of look-ahead behind a backslash.
-/

namespace TreeLabels

/-- The outcome of escaping: the text itself, or one that takes its place. -/
inductive Escaped where
  | kept (text : String)
  | replaced (text : String)
deriving DecidableEq, Repr

namespace Escaped

def text : Escaped → String
  | kept text => text
  | replaced text => text

def isKept : Escaped → Bool
  | kept _ => true
  | replaced _ => false

@[simp] theorem text_kept (text : String) : (kept text).text = text := rfl

@[simp] theorem text_replaced (text : String) :
    (replaced text).text = text := rfl

@[simp] theorem isKept_kept (text : String) : (kept text).isKept = true := rfl

@[simp] theorem isKept_replaced (text : String) :
    (replaced text).isKept = false := rfl

end Escaped

/-- The characters that escaping replaces; spaces only on request. -/
def isEscapable (spaces : Bool) (c : Char) : Bool :=
  c == '\t' || c == '\n' || c == '\r' || (spaces && c == ' ')

/-- What is written for one character. -/
def escapeChar (spaces : Bool) : Char → List Char
  | '\t' => ['\\', 't']
  | '\n' => ['\\', 'n']
  | '\r' => ['\\', 'r']
  | ' ' => if spaces then ['·'] else [' ']
  | c => [c]

/-- Escape a text.  One without escapable characters is kept, not rebuilt. -/
def escapeWhitespace (spaces : Bool) (text : String) : Escaped :=
  if text.toList.any (isEscapable spaces) then
    .replaced (String.ofList (text.toList.flatMap (escapeChar spaces)))
  else
    .kept text

/-- The characters that are not escapable are the ones that stand for
themselves. -/
theorem escapeChar_eq_singleton_iff {spaces : Bool} {c : Char} :
    escapeChar spaces c = [c] ↔ isEscapable spaces c = false := by
  unfold escapeChar isEscapable
  split <;> simp_all

theorem flatMap_escapeChar_eq_self {spaces : Bool} {chars : List Char}
    (h : chars.any (isEscapable spaces) = false) :
    chars.flatMap (escapeChar spaces) = chars := by
  induction chars with
  | nil => rfl
  | cons c rest ih =>
      simp only [List.any_cons, Bool.or_eq_false_iff] at h
      rw [List.flatMap_cons, escapeChar_eq_singleton_iff.mpr h.1, ih h.2]
      rfl

/-- Both branches of `escapeWhitespace` write the text character by character. -/
theorem toList_text_escapeWhitespace (spaces : Bool) (text : String) :
    (escapeWhitespace spaces text).text.toList =
      text.toList.flatMap (escapeChar spaces) := by
  unfold escapeWhitespace
  split
  · exact String.toList_ofList
  · next h =>
      rw [flatMap_escapeChar_eq_self (by simpa using h)]
      rfl

theorem isEscapable_of_mem_escapeChar {spaces : Bool} {c d : Char}
    (hd : d ∈ escapeChar spaces c) : isEscapable spaces d = false := by
  unfold escapeChar at hd
  split at hd
  case h_4 => cases spaces <;> simp_all [isEscapable]
  case h_5 => simp_all [isEscapable]
  all_goals
    simp only [List.mem_cons, List.not_mem_nil, or_false] at hd
    rcases hd with rfl | rfl <;> simp [isEscapable]

/-- Nothing that escaping replaces is left in its result. -/
theorem isEscapable_of_mem_escapeWhitespace {spaces : Bool} {text : String}
    {c : Char} (hc : c ∈ (escapeWhitespace spaces text).text.toList) :
    isEscapable spaces c = false := by
  rw [toList_text_escapeWhitespace, List.mem_flatMap] at hc
  obtain ⟨source, _, hsource⟩ := hc
  exact isEscapable_of_mem_escapeChar hsource

/-- Turn a backslash before `t`, `n` or `r` into the character it names, and a
middle dot into a space when `spaces` is set; all else is kept. -/
def unescapeChars (spaces : Bool) : List Char → List Char
  | [] => []
  | '\\' :: 't' :: rest => '\t' :: unescapeChars spaces rest
  | '\\' :: 'n' :: rest => '\n' :: unescapeChars spaces rest
  | '\\' :: 'r' :: rest => '\r' :: unescapeChars spaces rest
  | '·' :: rest => (if spaces then ' ' else '·') :: unescapeChars spaces rest
  | c :: rest => c :: unescapeChars spaces rest

/-- Read the whitespace escapes of a text. -/
def unescapeWhitespace (spaces : Bool) (text : String) : String :=
  String.ofList (unescapeChars spaces text.toList)

@[simp] theorem toList_unescapeWhitespace (spaces : Bool) (text : String) :
    (unescapeWhitespace spaces text).toList =
      unescapeChars spaces text.toList :=
  String.toList_ofList

/-- Only a backslash and a middle dot start something that is read back. -/
theorem unescapeChars_cons_of_ne {spaces : Bool} {c : Char} {rest : List Char}
    (hslash : c ≠ '\\') (hdot : c ≠ '·') :
    unescapeChars spaces (c :: rest) = c :: unescapeChars spaces rest := by
  rw [unescapeChars] <;> simp_all

end TreeLabels
