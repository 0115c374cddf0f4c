import Mathlib.Data.List.Infix
import Mathlib.Data.List.Count
import Deskflow.Condition
import Deskflow.Trigger

/-!
# Words in a text, case aside

A keyword sets off a trigger, and a word fulfils a condition, if a text holds it, case aside. The
word and the text are each put into small letters, and then the one is looked for in the other. This
finds every word that a text holds as it is written, but for one letter: a capital sigma has another
small form at the end of a word than elsewhere, and a word may end where the text goes on. All other
letters have the same small form wherever they stand.

The word is a keyword of `keyword_matches`, or the value of a condition in `evaluate_condition`.

* `lowerBetween_congr`: where the capital sigmas come out as they do in the word alone, all of it
  does.
* `settled_iff`: the word alone tells whether there are surroundings that matter.
* `exists_disturbance`: where there are, some text holds the word and is not found to.
* `lower_mem_parseKeywords`: how settings list a keyword.
* `found_exactly`: the result.
* `sigma_loses_keyword`: a Greek preposition is not found at the start of a longer word.
-/

namespace Deskflow

namespace Text

/-! ## The neighbours of a sigma -/

/-- Whether the first character of `cs` that is not passed over has no case. -/
def meetsUncased : List Char → Bool
  | [] => false
  | c :: cs => if inRanges caseNeutralRanges c then meetsUncased cs else !inRanges casedRanges c

theorem meetsCased_of_meetsUncased {cs : List Char} (h : meetsUncased cs = true) :
    meetsCased cs = false := by
  induction cs with
  | nil => rfl
  | cons c cs ih =>
    unfold meetsUncased at h
    unfold meetsCased
    split at h
    · rename_i hneutral
      rw [if_pos hneutral]
      exact ih h
    · rename_i hneutral
      rw [if_neg hneutral]
      simpa using h

/-- What comes further on is looked at only where all before is passed over. -/
theorem meetsCased_append (cs ds : List Char) :
    meetsCased (cs ++ ds) = (meetsCased cs || (!meetsUncased cs && meetsCased ds)) := by
  induction cs with
  | nil => simp [meetsCased, meetsUncased]
  | cons c cs ih =>
    simp only [List.cons_append, meetsCased, meetsUncased]
    split
    · exact ih
    · cases inRanges casedRanges c <;> simp

/-- The small sigma at the end of a word. -/
def finalSigma : Char := Char.ofNat 0x3C2

/-- The small sigma anywhere else. -/
def innerSigma : Char := Char.ofNat 0x3C3

theorem smallSigma_eq_finalSigma_iff {before after : List Char} :
    smallSigma before after = finalSigma ↔ meetsCased before = true ∧ meetsCased after = false := by
  unfold smallSigma finalSigma
  cases meetsCased before <;> cases meetsCased after <;> decide

theorem smallSigma_eq_innerSigma_iff {before after : List Char} :
    smallSigma before after = innerSigma ↔
      ¬(meetsCased before = true ∧ meetsCased after = false) := by
  unfold smallSigma innerSigma
  cases meetsCased before <;> cases meetsCased after <;> decide

/-! ## Small forms in surroundings -/

/-- The small form of a stretch of text between what comes before it, last character first, and what
comes after it. -/
def lowerBetween : List Char → List Char → List Char → List Char
  | _, [], _ => []
  | before, c :: cs, after =>
    lowerChar before c (cs ++ after) ++ lowerBetween (c :: before) cs after

theorem lowerFrom_append (before cs ds : List Char) :
    lowerFrom before (cs ++ ds)
      = lowerBetween before cs ds ++ lowerFrom (cs.reverse ++ before) ds := by
  induction cs generalizing before with
  | nil => rfl
  | cons c cs ih =>
    rw [List.cons_append, lowerFrom, ih, lowerBetween, List.append_assoc]
    simp

theorem lowerFrom_eq_lowerBetween (before cs : List Char) :
    lowerFrom before cs = lowerBetween before cs [] := by
  have h := lowerFrom_append before cs []
  rwa [List.append_nil, lowerFrom, List.append_nil] at h

theorem lowerBetween_append (before cs ds after : List Char) :
    lowerBetween before (cs ++ ds) after
      = lowerBetween before cs (ds ++ after) ++ lowerBetween (cs.reverse ++ before) ds after := by
  induction cs generalizing before with
  | nil => rfl
  | cons c cs ih =>
    rw [List.cons_append, lowerBetween, ih, lowerBetween]
    simp

theorem lowerChar_capitalSigma (before after : List Char) :
    lowerChar before capitalSigma after = [smallSigma before after] := rfl

theorem lowerBetween_capitalSigma (before x y after : List Char) :
    lowerBetween before (x ++ capitalSigma :: y) after
      = lowerBetween before x (capitalSigma :: (y ++ after))
        ++ ([smallSigma (x.reverse ++ before) (y ++ after)]
          ++ lowerBetween (capitalSigma :: (x.reverse ++ before)) y after) := by
  rw [lowerBetween_append, lowerBetween, lowerChar_capitalSigma, List.cons_append]

/-- **Only a capital sigma has a small form that depends on its neighbours.** -/
theorem lowerChar_congr {c : Char} (h : c ≠ capitalSigma)
    (before after before' after' : List Char) :
    lowerChar before c after = lowerChar before' c after' := by
  unfold lowerChar
  rw [if_neg h, if_neg h]

/-- The capital sigmas of a word that follows `before`, last character first: each with what comes
before it, last character first, and what comes after it. -/
def sigmas : List Char → List Char → List (List Char × List Char)
  | _, [] => []
  | before, c :: cs =>
    (if c = capitalSigma then [(before, cs)] else []) ++ sigmas (c :: before) cs

theorem mem_sigmas {before word : List Char} {p : List Char × List Char}
    (h : p ∈ sigmas before word) :
    ∃ x y, word = x ++ capitalSigma :: y ∧ p = (x.reverse ++ before, y) := by
  induction word generalizing before with
  | nil => cases h
  | cons c cs ih =>
    rcases List.mem_append.mp h with h | h
    · split at h
      · rename_i hc
        exact ⟨[], cs, by rw [hc, List.nil_append], List.mem_singleton.mp h⟩
      · cases h
    · obtain ⟨x, y, rfl, hp⟩ := ih h
      exact ⟨c :: x, y, rfl, by simp [hp]⟩

/-- In these surroundings every capital sigma of a word comes out as it does in the word alone. -/
def Undisturbed (before word after : List Char) : Prop :=
  ∀ p ∈ sigmas [] word, smallSigma (p.1 ++ before) (p.2 ++ after) = smallSigma p.1 p.2

instance (before word after : List Char) : Decidable (Undisturbed before word after) :=
  inferInstanceAs (Decidable (∀ p ∈ _, _))

/-- Then all of the word does; `done` is what comes before in it, last character first. -/
theorem lowerBetween_congr {before after : List Char} (done word : List Char)
    (h : ∀ p ∈ sigmas done word,
      smallSigma (p.1 ++ before) (p.2 ++ after) = smallSigma p.1 p.2) :
    lowerBetween (done ++ before) word after = lowerBetween done word [] := by
  induction word generalizing done with
  | nil => rfl
  | cons c cs ih =>
    have hchar : lowerChar (done ++ before) c (cs ++ after) = lowerChar done c (cs ++ []) := by
      by_cases hc : c = capitalSigma
      · subst hc
        have hplace := h (done, cs) (List.mem_append_left _ (by simp))
        rw [lowerChar_capitalSigma, lowerChar_capitalSigma, hplace, List.append_nil]
      · exact lowerChar_congr hc ..
    have hrest := ih (c :: done) fun p hp => h p (List.mem_append_right _ hp)
    rw [lowerBetween, lowerBetween, hchar, ← hrest, List.cons_append]

theorem Undisturbed.infix_lower {before word after : List Char}
    (h : Undisturbed before.reverse word after) :
    lowerChars word <:+: lowerChars (before ++ word ++ after) := by
  have hword : lowerBetween before.reverse word after = lowerChars word := by
    rw [lowerChars, lowerFrom_eq_lowerBetween]
    exact lowerBetween_congr [] word h
  refine ⟨lowerBetween [] before (word ++ after), lowerFrom (word.reverse ++ before.reverse) after,
    ?_⟩
  have htext : lowerChars (before ++ word ++ after) = lowerBetween [] before (word ++ after)
      ++ (lowerBetween before.reverse word after
        ++ lowerFrom (word.reverse ++ before.reverse) after) := by
    rw [lowerChars, List.append_assoc, lowerFrom_append, List.append_nil, lowerFrom_append]
  rw [htext, hword, List.append_assoc]

/-! ## Settled words -/

/-- Whatever else comes before and after, a capital sigma between these comes out the same: there is
a letter further on in the word, there is something else than a letter before it, or there is a
letter before it and something else after it. -/
def SettledBetween (before after : List Char) : Prop :=
  meetsCased after = true ∨ meetsUncased before = true
    ∨ (meetsCased before = true ∧ meetsUncased after = true)

instance (before after : List Char) : Decidable (SettledBetween before after) :=
  inferInstanceAs (Decidable (_ ∨ _))

/-- Every capital sigma of a word is settled by the rest of the word. -/
def Settled (word : List Char) : Prop := ∀ p ∈ sigmas [] word, SettledBetween p.1 p.2

instance (word : List Char) : Decidable (Settled word) :=
  inferInstanceAs (Decidable (∀ p ∈ _, _))

theorem settled_of_not_mem {word : List Char} (h : capitalSigma ∉ word) : Settled word := by
  intro p hp
  obtain ⟨x, y, rfl, -⟩ := mem_sigmas hp
  simp at h

theorem SettledBetween.smallSigma_append {before after : List Char}
    (h : SettledBetween before after) (before' after' : List Char) :
    smallSigma (before ++ before') (after ++ after') = smallSigma before after := by
  unfold smallSigma
  rw [meetsCased_append, meetsCased_append]
  rcases h with h | h | ⟨hbefore, hafter⟩
  · simp [h]
  · simp [h, meetsCased_of_meetsUncased h]
  · rw [hbefore, hafter, meetsCased_of_meetsUncased hafter]
    rfl

/-- What is not settled is so because of a letter right before the word or right after it. -/
theorem exists_of_not_settledBetween {before after : List Char} (h : ¬SettledBetween before after) :
    (smallSigma before after = innerSigma ∧ smallSigma (before ++ ['a']) after = finalSigma) ∨
      (smallSigma before after = finalSigma ∧ smallSigma before (after ++ ['a']) = innerSigma) := by
  have hletter : meetsCased ['a'] = true := by decide +kernel
  simp only [SettledBetween, not_or, Bool.not_eq_true] at h
  obtain ⟨hafter, hbefore, hboth⟩ := h
  cases hcased : meetsCased before with
  | false =>
    refine .inl ⟨smallSigma_eq_innerSigma_iff.mpr (by simp [hcased]), ?_⟩
    exact smallSigma_eq_finalSigma_iff.mpr ⟨by simp [meetsCased_append, hbefore, hletter], hafter⟩
  | true =>
    have hopen : meetsUncased after = false := by simpa [hcased] using hboth
    refine .inr ⟨smallSigma_eq_finalSigma_iff.mpr ⟨hcased, hafter⟩, ?_⟩
    exact smallSigma_eq_innerSigma_iff.mpr (by simp [meetsCased_append, hopen, hletter])

/-- **The word alone tells whether there are surroundings that matter.** -/
theorem settled_iff {word : List Char} :
    Settled word ↔ ∀ before after, Undisturbed before word after := by
  constructor
  · intro h before after p hp
    exact (h p hp).smallSigma_append before after
  · intro h p hp
    by_contra hopen
    have hdistinct : innerSigma ≠ finalSigma := by decide
    rcases exists_of_not_settledBetween hopen with ⟨halone, hletter⟩ | ⟨halone, hletter⟩
    · have := h ['a'] [] p hp
      rw [List.append_nil, halone, hletter] at this
      exact hdistinct this.symm
    · have := h [] ['a'] p hp
      rw [List.append_nil, halone, hletter] at this
      exact hdistinct this

/-! ## Words that are lost -/

section

variable {g : Char} {before after : List Char}

/-- Where surroundings make no more sigmas of one form, there are no more of them in all; `done` and
`rest` are what comes before in the word, last character first, and after. -/
theorem count_lowerBetween_le
    (h : ∀ x y, smallSigma (x ++ before) (y ++ after) = g → smallSigma x y = g)
    (done word rest : List Char) :
    (lowerBetween (done ++ before) word (rest ++ after)).count g
      ≤ (lowerBetween done word rest).count g := by
  induction word generalizing done with
  | nil => exact Nat.le_refl _
  | cons c cs ih =>
    rw [lowerBetween, lowerBetween, List.count_append, List.count_append]
    refine Nat.add_le_add ?_ (ih (c :: done))
    by_cases hc : c = capitalSigma
    · subst hc
      rw [lowerChar_capitalSigma, lowerChar_capitalSigma, ← List.append_assoc]
      by_cases hg : smallSigma (done ++ before) (cs ++ rest ++ after) = g
      · rw [hg, h done (cs ++ rest) hg]
      · rw [List.count_singleton, if_neg (by simpa using hg)]
        exact Nat.zero_le _
    · rw [lowerChar_congr hc _ _ done (cs ++ rest)]

/-- Where they make one sigma less, there are fewer in all. -/
theorem count_lowerBetween_lt
    (h : ∀ x y, smallSigma (x ++ before) (y ++ after) = g → smallSigma x y = g) {x y : List Char}
    (halone : smallSigma x.reverse y = g)
    (hplaced : smallSigma (x.reverse ++ before) (y ++ after) ≠ g) :
    (lowerBetween before (x ++ capitalSigma :: y) after).count g
      < (lowerBetween [] (x ++ capitalSigma :: y) []).count g := by
  have hx := count_lowerBetween_le h [] x (capitalSigma :: y)
  have hy := count_lowerBetween_le h (capitalSigma :: x.reverse) y []
  have hone : List.count g [smallSigma (x.reverse ++ before) (y ++ after)] = 0 :=
    List.count_singleton.trans (if_neg (by simpa using hplaced))
  have hother : List.count g [smallSigma x.reverse y] = 1 := by
    rw [halone, List.count_singleton_self]
  simp only [List.nil_append, List.cons_append] at hx hy
  simp only [lowerBetween_capitalSigma, List.count_append, List.append_nil, hone, hother]
  omega

end

/-- **A word that is not settled is lost** in some text that holds it: between the small forms there
is one sigma too few. -/
theorem exists_disturbance {word : List Char} (h : ¬Settled word) :
    ∃ before after, ¬lowerChars word <:+: lowerChars (before ++ word ++ after) := by
  simp only [Settled, not_forall] at h
  obtain ⟨p, hp, hopen⟩ := h
  obtain ⟨x, y, rfl, rfl⟩ := mem_sigmas hp
  replace hopen : ¬SettledBetween x.reverse y := by simpa using hopen
  rcases exists_of_not_settledBetween hopen with ⟨halone, hletter⟩ | ⟨halone, hletter⟩
  · refine ⟨['a'], [], fun hinfix => ?_⟩
    have hkept : ∀ x y, smallSigma (x ++ ['a']) (y ++ []) = innerSigma →
        smallSigma x y = innerSigma := fun x y hxy => by
      rw [smallSigma_eq_innerSigma_iff, meetsCased_append, List.append_nil] at hxy
      rw [smallSigma_eq_innerSigma_iff]
      rintro ⟨hx, hy⟩
      exact hxy ⟨by simp [hx], hy⟩
    have hplaced : smallSigma (x.reverse ++ ['a']) (y ++ []) ≠ innerSigma := by
      rw [List.append_nil, hletter]
      decide
    have hfewer := count_lowerBetween_lt hkept halone hplaced
    have hmore := hinfix.sublist.count_le innerSigma
    have htext : lowerChars (['a'] ++ (x ++ capitalSigma :: y) ++ [])
        = 'a' :: lowerBetween ['a'] (x ++ capitalSigma :: y) [] := by
      rw [List.append_nil, lowerChars, lowerFrom_append, lowerFrom_eq_lowerBetween]
      rfl
    rw [htext, List.count_cons_of_ne (by decide), lowerChars, lowerFrom_eq_lowerBetween] at hmore
    omega
  · refine ⟨[], ['a'], fun hinfix => ?_⟩
    have hkept : ∀ x y, smallSigma (x ++ []) (y ++ ['a']) = finalSigma →
        smallSigma x y = finalSigma := fun x y hxy => by
      rw [List.append_nil, smallSigma_eq_finalSigma_iff, meetsCased_append] at hxy
      obtain ⟨hx, hy⟩ := hxy
      rw [smallSigma_eq_finalSigma_iff]
      exact ⟨hx, by simpa using (Bool.or_eq_false_iff.mp hy).1⟩
    have hplaced : smallSigma (x.reverse ++ []) (y ++ ['a']) ≠ finalSigma := by
      rw [List.append_nil, hletter]
      decide
    have hfewer := count_lowerBetween_lt hkept halone hplaced
    have hmore := hinfix.sublist.count_le finalSigma
    have htext : lowerChars ([] ++ (x ++ capitalSigma :: y) ++ ['a'])
        = lowerBetween [] (x ++ capitalSigma :: y) ['a'] ++ ['a'] := by
      rw [List.nil_append, lowerChars, lowerFrom_append]
      rfl
    have hsingle : List.count finalSigma ['a'] = 0 := by decide
    rw [htext, List.count_append, hsingle, lowerChars, lowerFrom_eq_lowerBetween] at hmore
    omega

/-! ## Looking for a word -/

theorem occursIn_iff {needle hay : List Char} : occursIn needle hay = true ↔ needle <:+: hay := by
  induction hay with
  | nil => simp [occursIn]
  | cons c cs ih =>
    rw [occursIn, Bool.or_eq_true, ih, List.isPrefixOf_iff_prefix, List.infix_cons_iff]

theorem holds_lower_iff {text word : String} :
    holds (lower text) (lower word) = true ↔
      lowerChars word.toList <:+: lowerChars text.toList := by
  simp [holds, lower, occursIn_iff]

/-! ## Parts and blanks -/

theorem splitFrom_append (sep : Char) (a b piece : List Char) :
    splitFrom sep (a ++ sep :: b) piece = splitFrom sep a piece ++ splitFrom sep b [] := by
  induction a generalizing piece with
  | nil => simp [splitFrom]
  | cons c a ih =>
    by_cases hc : c = sep
    · simp [splitFrom, hc, ih]
    · simp [splitFrom, hc, ih]

theorem splitFrom_of_not_mem {sep : Char} {cs : List Char} (h : sep ∉ cs) (piece : List Char) :
    splitFrom sep cs piece = [piece.reverse ++ cs] := by
  induction cs generalizing piece with
  | nil => simp [splitFrom]
  | cons c cs ih =>
    obtain ⟨hc, hcs⟩ : sep ≠ c ∧ sep ∉ cs := by simpa using h
    simp [splitFrom, Ne.symm hc, ih hcs]

/-- What stands between separators, or between one and an end, is one of the parts. -/
theorem mem_splitFrom {sep : Char} {before part after : List Char} (hpart : sep ∉ part)
    (hbefore : before = [] ∨ ∃ b, before = b ++ [sep])
    (hafter : after = [] ∨ ∃ b, after = sep :: b) :
    part ∈ splitFrom sep (before ++ part ++ after) [] := by
  have hfirst : part ∈ splitFrom sep (part ++ after) [] := by
    rcases hafter with rfl | ⟨b, rfl⟩
    · simp [splitFrom_of_not_mem hpart]
    · simp [splitFrom_append, splitFrom_of_not_mem hpart]
  rcases hbefore with rfl | ⟨b, rfl⟩
  · simpa using hfirst
  · have hsplit : b ++ [sep] ++ part ++ after = b ++ sep :: (part ++ after) := by simp
    rw [hsplit, splitFrom_append]
    exact List.mem_append_right _ hfirst

theorem trimBy_of_padded {p : Char → Bool} {left cs right : List Char}
    (hleft : ∀ c ∈ left, p c = true) (hright : ∀ c ∈ right, p c = true)
    (hhead : ∀ c, cs.head? = some c → p c = false)
    (hlast : ∀ c, cs.getLast? = some c → p c = false) (hcs : cs ≠ []) :
    trimBy p (left ++ cs ++ right) = cs := by
  have hstart : (left ++ cs ++ right).dropWhile p = cs ++ right := by
    obtain ⟨c, rest, rfl⟩ := List.exists_cons_of_ne_nil hcs
    rw [List.append_assoc, List.dropWhile_append_of_pos hleft, List.cons_append,
      List.dropWhile_cons_of_neg (by simp [hhead c rfl])]
  have hend : (right.reverse ++ cs.reverse).dropWhile p = cs.reverse := by
    obtain ⟨c, rest, hrev⟩ := List.exists_cons_of_ne_nil (List.reverse_ne_nil_iff.mpr hcs)
    have hc : cs.getLast? = some c := by rw [← List.head?_reverse, hrev]; rfl
    rw [List.dropWhile_append_of_pos (by simpa using hright), hrev,
      List.dropWhile_cons_of_neg (by simp [hlast c hc])]
  rw [trimBy, hstart, List.reverse_append, hend, List.reverse_reverse]

end Text

/-! ## Keywords in settings -/

/-- A word can be a keyword: it is not empty, has no comma in it and no blank at an end. -/
structure IsKeyword (word : String) : Prop where
  nonempty : word ≠ ""
  whole : ',' ∉ word.toList
  head : ∀ c, word.toList.head? = some c → Text.isBlank c = false
  last : ∀ c, word.toList.getLast? = some c → Text.isBlank c = false

instance (word : String) : Decidable (IsKeyword word) :=
  decidable_of_iff
    (word ≠ "" ∧ ',' ∉ word.toList ∧ word.toList.head?.all (!Text.isBlank ·)
      ∧ word.toList.getLast?.all (!Text.isBlank ·))
    ⟨fun h => ⟨h.1, h.2.1, by simpa [Option.all_eq_true] using h.2.2.1,
        by simpa [Option.all_eq_true] using h.2.2.2⟩,
      fun h => ⟨h.nonempty, h.whole, by simpa [Option.all_eq_true] using h.head,
        by simpa [Option.all_eq_true] using h.last⟩⟩

/-- A setting lists a word among its keywords, with blanks around it or without: between commas in a
text, or as an item of a list. -/
inductive Lists (word : String) : Value → Prop
  | text {s : String} (before left right after : List Char)
      (cut : s.toList = before ++ (left ++ word.toList ++ right) ++ after)
      (opens : before = [] ∨ ∃ b, before = b ++ [','])
      (closes : after = [] ∨ ∃ b, after = ',' :: b)
      (padded : ∀ c ∈ left ++ right, Text.isBlank c = true) : Lists word (.str s)
  | item {items : List Value} {v : Value} (mem : v ∈ items) (left right : List Char)
      (cut : v.text.toList = left ++ word.toList ++ right)
      (padded : ∀ c ∈ left ++ right, Text.isBlank c = true) : Lists word (.list items)

namespace IsKeyword

variable {word : String} (h : IsKeyword word)

include h

theorem trim_of_padded {s : String} {left right : List Char}
    (cut : s.toList = left ++ word.toList ++ right)
    (padded : ∀ c ∈ left ++ right, Text.isBlank c = true) : Text.trim s = word := by
  have hword : word.toList ≠ [] := by simpa using h.nonempty
  rw [Text.trim, cut, Text.trimBy_of_padded (fun c hc => padded c (List.mem_append_left _ hc))
    (fun c hc => padded c (List.mem_append_right _ hc)) h.head h.last hword, String.ofList_toList]

/-- **A keyword that settings list is looked for** in small letters. -/
theorem lower_mem_parseKeywords {raw : Value} (hraw : Lists word raw) :
    Text.lower word ∈ parseKeywords raw := by
  unfold parseKeywords
  have of_part : ∀ {parts : List String} {s : String}, s ∈ parts → Text.trim s = word →
      Text.lower word ∈
        ((parts.filter fun p => Text.trim p ≠ "").map fun p => Text.lower (Text.trim p)) := by
    intro parts s hs htrim
    refine List.mem_map.mpr ⟨s, List.mem_filter.mpr ⟨hs, ?_⟩, by rw [htrim]⟩
    simpa [htrim] using h.nonempty
  cases hraw with
  | text before left right after cut opens closes padded =>
    have hcomma : ',' ∉ left ++ word.toList ++ right := by
      intro hmem
      rcases List.mem_append.mp hmem with hmem | hmem
      · rcases List.mem_append.mp hmem with hmem | hmem
        · exact absurd (padded _ (List.mem_append_left _ hmem)) (by decide)
        · exact h.whole hmem
      · exact absurd (padded _ (List.mem_append_right _ hmem)) (by decide)
    refine of_part (s := String.ofList (left ++ word.toList ++ right)) ?_
      (h.trim_of_padded (String.toList_ofList) padded)
    refine List.mem_map_of_mem ?_
    rw [Value.givenText_str, cut]
    exact Text.mem_splitFrom hcomma opens closes
  | item mem left right cut padded =>
    exact of_part (List.mem_map_of_mem mem) (h.trim_of_padded cut padded)

/-- As the only keyword it is looked for alone. -/
theorem parseKeywords_str : parseKeywords (.str word) = [Text.lower word] := by
  have hcut : word.toList = [] ++ word.toList ++ [] := by simp
  have htrim : Text.trim word = word := h.trim_of_padded hcut (by simp)
  have hparts : Text.splitAt ',' word = [word] := by
    simp [Text.splitAt, Text.splitFrom_of_not_mem h.whole]
  simp [parseKeywords, hparts, htrim, h.nonempty]

end IsKeyword

/-! ## The result -/

/-- A text sets off every trigger that lists a word among its keywords. -/
def SetsOff (word text : String) : Prop :=
  ∀ config raw, config.field "keywords" = .ok raw → Lists word raw →
    keywordMatches config (some text) = .ok true

/-- A text fulfils every condition that asks for a word, if it came in last. -/
def Fulfils (word text : String) : Prop :=
  ∀ (facts : Facts) (value : Value), facts.latestText = some text → value.givenText = word →
    Condition.evaluate facts (.str "message_contains") value = .ok true

section

variable {word text : String}

theorem setsOff_of_holds (h : IsKeyword word)
    (hholds : Text.holds (Text.lower text) (Text.lower word) = true) : SetsOff word text :=
  fun _ _ hconfig hraw => keywordMatches_of_mem hconfig (h.lower_mem_parseKeywords hraw) hholds

theorem holds_of_setsOff (h : IsKeyword word) (hsets : SetsOff word text) :
    Text.holds (Text.lower text) (Text.lower word) = true := by
  have hlisted : Lists word (.str word) :=
    .text [] [] [] [] (by simp) (.inl rfl) (.inl rfl) (by simp)
  have hmatch := hsets (.object [("keywords", .str word)]) (.str word) (Value.field_object _ _)
    hlisted
  have hfield : (Value.object [("keywords", .str word)]).field "keywords" = .ok (.str word) :=
    Value.field_object _ _
  simpa [keywordMatches, hfield, h.parseKeywords_str, bind, Except.bind, pure, Except.pure]
    using hmatch

theorem lower_ne_empty (h : word ≠ "") : Text.lower word ≠ "" := by
  simpa [Text.lower, Text.lowerChars, Text.lowerFrom_eq_nil] using h

theorem fulfils_iff (h : word ≠ "") :
    Fulfils word text ↔ Text.holds (Text.lower text) (Text.lower word) = true := by
  constructor
  · intro hfulfils
    have := hfulfils { latestText := some text } (.str word) rfl (Value.givenText_str word)
    simpa [Condition.evaluate, lower_ne_empty h] using this
  · intro hholds facts value hlatest hvalue
    simp [Condition.evaluate, hlatest, hvalue, lower_ne_empty h, hholds]

theorem setsOff_iff (h : IsKeyword word) :
    SetsOff word text ↔ Text.holds (Text.lower text) (Text.lower word) = true :=
  ⟨holds_of_setsOff h, setsOff_of_holds h⟩

/-- A word is found wherever it comes out as it does alone, and in every text if it is settled. -/
theorem forall_holds_iff :
    (∀ text : String, word.toList <:+: text.toList →
        Text.holds (Text.lower text) (Text.lower word) = true) ↔ Text.Settled word.toList := by
  constructor
  · intro hall
    by_contra hopen
    obtain ⟨before, after, hlost⟩ := Text.exists_disturbance hopen
    have := hall (String.ofList (before ++ word.toList ++ after))
      ⟨before, after, by rw [String.toList_ofList]⟩
    rw [Text.holds_lower_iff, String.toList_ofList] at this
    exact hlost this
  · rintro hsettled text ⟨before, after, htext⟩
    rw [Text.holds_lower_iff, ← htext]
    exact (Text.settled_iff.mp hsettled before.reverse after).infix_lower

end

/-- Texts that hold a keyword are found to, as far as capital sigmas allow. -/
structure FoundExactly (word : String) : Prop where
  /-- In surroundings that leave its capital sigmas alone the word is found, -/
  placed : ∀ (text : String) (before after : List Char),
    text.toList = before ++ word.toList ++ after →
      Text.Undisturbed before.reverse word.toList after → SetsOff word text ∧ Fulfils word text
  /-- as a keyword in any text if it is settled, and only then, -/
  keyword : (∀ text, word.toList <:+: text.toList → SetsOff word text) ↔
    Text.Settled word.toList
  /-- and in a condition likewise. -/
  condition : (∀ text, word.toList <:+: text.toList → Fulfils word text) ↔
    Text.Settled word.toList
  /-- A word without capital sigmas is found in all of them. -/
  plain : Text.capitalSigma ∉ word.toList → ∀ text, word.toList <:+: text.toList →
    SetsOff word text ∧ Fulfils word text

/-- **A text that holds a keyword is found to** unless a capital sigma comes out differently. -/
theorem found_exactly {word : String} (h : IsKeyword word) : FoundExactly word where
  placed text before after htext hundisturbed := by
    have hholds : Text.holds (Text.lower text) (Text.lower word) = true := by
      rw [Text.holds_lower_iff, htext]
      exact hundisturbed.infix_lower
    exact ⟨(setsOff_iff h).mpr hholds, (fulfils_iff h.nonempty).mpr hholds⟩
  keyword := by
    rw [← forall_holds_iff]
    exact forall₂_congr fun text _ => setsOff_iff h
  condition := by
    rw [← forall_holds_iff]
    exact forall₂_congr fun text _ => fulfils_iff h.nonempty
  plain hplain text htext := by
    have hholds := forall_holds_iff.mpr (Text.settled_of_not_mem hplain) text htext
    exact ⟨(setsOff_iff h).mpr hholds, (fulfils_iff h.nonempty).mpr hholds⟩

/-- An offer in capital letters is found in any text, and the last word of a sentence is found there
in spite of its sigma. -/
theorem found_exactly_offer :
    (∀ text : String, "ΠΡΟΣΦΟΡΑ".toList <:+: text.toList →
        SetsOff "ΠΡΟΣΦΟΡΑ" text ∧ Fulfils "ΠΡΟΣΦΟΡΑ" text)
      ∧ SetsOff "ΟΔΟΣ" "ΠΟΙΑ ΟΔΟΣ;" ∧ Fulfils "ΟΔΟΣ" "ΠΟΙΑ ΟΔΟΣ;" := by
  have offer : FoundExactly "ΠΡΟΣΦΟΡΑ" := found_exactly (by decide +kernel)
  have street : FoundExactly "ΟΔΟΣ" := found_exactly (by decide +kernel)
  refine ⟨fun text htext => ?_, ?_⟩
  · have hsettled : Text.Settled "ΠΡΟΣΦΟΡΑ".toList := by decide +kernel
    exact ⟨offer.keyword.mpr hsettled text htext, offer.condition.mpr hsettled text htext⟩
  · exact street.placed _ "ΠΟΙΑ ".toList ";".toList (by decide +kernel) (by decide +kernel)

/-- A preposition in capital letters is not found at the start of a longer word. -/
theorem sigma_loses_keyword :
    ¬∀ word text : String, IsKeyword word → word.toList <:+: text.toList →
      SetsOff word text ∧ Fulfils word text := by
  intro h
  have hkeyword : IsKeyword "ΠΡΟΣ" := by decide +kernel
  obtain ⟨hsets, -⟩ := h "ΠΡΟΣ" "ΠΡΟΣΦΟΡΑ" hkeyword ⟨[], "ΦΟΡΑ".toList, by decide +kernel⟩
  have := (setsOff_iff hkeyword).mp hsets
  exact absurd this (by decide +kernel)

end Deskflow
