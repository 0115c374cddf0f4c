/-!
# Blank characters and cutting

The characters that separate words, and trimming, cutting and replacing in texts. There are two
classes of blanks: `isBlank` is the Unicode one, which also counts the four information
separators, and `isNumeralBlank` is the one allowed around a numeral, which does not.

* `isBlank_of_isNumeralBlank`: the second class lies inside the first.
* `replaceFrom_of_not_occurs`: a text in which a token does not occur is left alone.
* `cutFirst?_eq_some`: cutting at a separator loses nothing else, and cuts at its first place.
* `cutFirst?_append`, `cutLast?_append`: a part without separators is cut off again.
-/

namespace Deskflow.Text

/-- Membership of a character in a table of code point ranges, ends included. -/
def inRanges (ranges : List (Nat × Nat)) (c : Char) : Bool :=
  ranges.any fun r => r.1 ≤ c.toNat && c.toNat ≤ r.2

/-- The ranges of blank characters. -/
def blankRanges : List (Nat × Nat) := [
   (9, 13), (28, 32), (133, 133), (160, 160), (5760, 5760), (8192, 8202),
   (8232, 8233), (8239, 8239), (8287, 8287), (12288, 12288)]

/-- Whether a character separates words. -/
def isBlank (c : Char) : Bool := inRanges blankRanges c

/-- Whether a character may surround a numeral: below 127 only the space and the five controls
from tab to carriage return, above it every blank. -/
def isNumeralBlank (c : Char) : Bool :=
  if c.toNat < 127 then c == ' ' || (9 ≤ c.toNat && c.toNat ≤ 13) else isBlank c

/-- The text without the characters of a class at both ends. -/
def trimBy (p : Char → Bool) (cs : List Char) : List Char :=
  ((cs.dropWhile p).reverse.dropWhile p).reverse

/-- The text without blanks at both ends. -/
def trim (s : String) : String := String.ofList (trimBy isBlank s.toList)

/-- The text without the characters of a class at its end. -/
def trimEndBy (p : Char → Bool) (s : String) : String :=
  String.ofList (s.toList.reverse.dropWhile p).reverse

/-- The text without the characters of a class at its start. -/
def trimStartBy (p : Char → Bool) (s : String) : String :=
  String.ofList (s.toList.dropWhile p)

/-- The words of `cs`, where `word` holds the letters of the current one, last letter first. -/
def wordsFrom : List Char → List Char → List (List Char)
  | [], [] => []
  | [], word => [word.reverse]
  | c :: cs, word =>
    if isBlank c then
      if word.isEmpty then wordsFrom cs [] else word.reverse :: wordsFrom cs []
    else wordsFrom cs (c :: word)

/-- The maximal runs of characters that are not blank, from left to right. -/
def words (s : String) : List String := (wordsFrom s.toList []).map String.ofList

/-- The pieces of `cs` between occurrences of `sep`, where `piece` holds the current one, last
character first. -/
def splitFrom (sep : Char) : List Char → List Char → List (List Char)
  | [], piece => [piece.reverse]
  | c :: cs, piece =>
    if c = sep then piece.reverse :: splitFrom sep cs [] else splitFrom sep cs (c :: piece)

/-- The pieces of a text between occurrences of `sep`; a text without it is one piece. -/
def splitAt (sep : Char) (s : String) : List String :=
  (splitFrom sep s.toList []).map String.ofList

/-- Whether `needle` occurs in `hay` as a contiguous run. -/
def occursIn (needle : List Char) : List Char → Bool
  | [] => needle.isEmpty
  | c :: cs => needle.isPrefixOf (c :: cs) || occursIn needle cs

/-- Whether the text holds `needle`. -/
def holds (s needle : String) : Bool := occursIn needle.toList s.toList

/-- `cs` with every occurrence of `token` replaced by `value`, found from left to right; `skip`
counts the characters of an occurrence that are still to be passed over. -/
def replaceFrom (token value : List Char) : Nat → List Char → List Char
  | _, [] => []
  | skip + 1, _ :: cs => replaceFrom token value skip cs
  | 0, c :: cs =>
    if token.isPrefixOf (c :: cs) then value ++ replaceFrom token value (token.length - 1) cs
    else c :: replaceFrom token value 0 cs

/-- The text with every occurrence of a non-empty `token` replaced by `value`. -/
def replace (s token value : String) : String :=
  String.ofList (replaceFrom token.toList value.toList 0 s.toList)

/-- The parts before and after the first `sep`. -/
def cutFirst? (sep : Char) : List Char → Option (List Char × List Char)
  | [] => none
  | c :: cs => if c = sep then some ([], cs) else (cutFirst? sep cs).map fun p => (c :: p.1, p.2)

/-- The parts before and after the last `sep`. -/
def cutLast? (sep : Char) (cs : List Char) : Option (List Char × List Char) :=
  (cutFirst? sep cs.reverse).map fun p => (p.2.reverse, p.1.reverse)

/-! ## Lemmas -/

theorem isBlank_of_isNumeralBlank {c : Char} (h : isNumeralBlank c = true) : isBlank c = true := by
  unfold isNumeralBlank at h
  split at h
  · have h' : c = ' ' ∨ (9 ≤ c.toNat ∧ c.toNat ≤ 13) := by simpa using h
    rcases h' with rfl | h'
    · decide
    · simp [isBlank, inRanges, blankRanges, h'.1, h'.2]
  · exact h

theorem replaceFrom_of_not_occurs {token value : List Char} (cs : List Char)
    (h : occursIn token cs = false) : replaceFrom token value 0 cs = cs := by
  induction cs with
  | nil => rfl
  | cons c cs ih =>
    simp only [occursIn, Bool.or_eq_false_iff] at h
    simp [replaceFrom, h.1, ih h.2]

theorem cutFirst?_eq_some {sep : Char} {cs a b : List Char} (h : cutFirst? sep cs = some (a, b)) :
    cs = a ++ sep :: b ∧ sep ∉ a := by
  induction cs generalizing a b with
  | nil => simp [cutFirst?] at h
  | cons c cs ih =>
    by_cases hc : c = sep
    · simp only [cutFirst?, hc, if_true, Option.some.injEq, Prod.mk.injEq] at h
      simp [← h.1, ← h.2, hc]
    · simp only [cutFirst?, if_neg hc, Option.map_eq_some_iff] at h
      obtain ⟨⟨a', b'⟩, h', heq⟩ := h
      obtain ⟨rfl, rfl⟩ := Prod.mk.inj heq
      obtain ⟨h₁, h₂⟩ := ih h'
      exact ⟨by simp [h₁], by simp [h₂, Ne.symm hc]⟩

theorem cutFirst?_append {sep : Char} {a : List Char} (h : sep ∉ a) (b : List Char) :
    cutFirst? sep (a ++ sep :: b) = some (a, b) := by
  induction a with
  | nil => simp [cutFirst?]
  | cons c cs ih =>
    obtain ⟨hc, hcs⟩ : sep ≠ c ∧ sep ∉ cs := by simpa using h
    simp [cutFirst?, Ne.symm hc, ih hcs]

theorem cutFirst?_of_not_mem {sep : Char} {cs : List Char} (h : sep ∉ cs) :
    cutFirst? sep cs = none := by
  cases hcut : cutFirst? sep cs with
  | none => rfl
  | some p => exact absurd (by simp [(cutFirst?_eq_some hcut).1]) h

theorem cutLast?_append {sep : Char} {b : List Char} (h : sep ∉ b) (a : List Char) :
    cutLast? sep (a ++ sep :: b) = some (a, b) := by
  have hrev : (a ++ sep :: b).reverse = b.reverse ++ sep :: a.reverse := by simp
  rw [cutLast?, hrev, cutFirst?_append (by simpa using h)]
  simp

theorem cutLast?_of_not_mem {sep : Char} {cs : List Char} (h : sep ∉ cs) :
    cutLast? sep cs = none := by
  rw [cutLast?, cutFirst?_of_not_mem (by simpa using h)]
  rfl

end Deskflow.Text
