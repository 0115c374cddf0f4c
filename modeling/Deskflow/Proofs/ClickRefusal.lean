import Mathlib.Data.List.TakeWhile
import Deskflow.Proofs.FindButton

/-!
# Data that names no button

Any text may come back as callback data. What has neither form, or names no button that is stored,
is refused, and nothing is changed. Two things stop a click instead. The index in the data may be
written in characters that pass for digits and are none, such as a superscript two, or in too many
digits: such data is `Garbled`. And the search for the button may come to a stored step that cannot
be read, or to a place in a group that has too many digits: the search is `Stuck`.

The data is read by `parse_callback_data` and the click is handled by `handle_callback`.

* `read_ok_iff_of_isDigitLike`: which texts that pass for digits are read as a number.
* `read?_eq_error_iff`: only garbled data cannot be read.
* `stepOfRef?_eq_error_iff`: only where a search is stuck it fails.
* `named_of_buttonOf?`: what is found is named by the data.
* `answers_exactly`: the result.
* `not_always_answered`: a superscript stops a click.
-/

namespace Deskflow

/-! ## What passes for digits -/

namespace Text

theorem inRanges_iff {ranges : List (Nat × Nat)} {c : Char} :
    inRanges ranges c = true ↔ ∃ r ∈ ranges, r.1 ≤ c.toNat ∧ c.toNat ≤ r.2 := by
  simp [inRanges]

/-- What has a digit value lies in ranges that hold nothing else. -/
theorem exists_range_of_isDigitLike {c : Char} (h : isDigitLike c = true) :
    ∃ r ∈ zeroDigits.map (fun z => (z, z + 9)) ++ digitFormRanges,
      r.1 ≤ c.toNat ∧ c.toNat ≤ r.2 := by
  rcases Bool.or_eq_true_iff.mp h with h | h
  · obtain ⟨n, hn⟩ := Option.isSome_iff_exists.mp h
    obtain ⟨z, hz, hc⟩ := List.exists_of_findSome?_eq_some hn
    split at hc
    · rename_i hrange
      have hrange : z ≤ c.toNat ∧ c.toNat < z + 10 := by simpa using hrange
      exact ⟨(z, z + 9), List.mem_append_left _ (List.mem_map_of_mem hz), hrange.1, by
        dsimp only
        omega⟩
    · cases hc
  · obtain ⟨r, hr, hc⟩ := inRanges_iff.mp h
    exact ⟨r, List.mem_append_right _ hr, hc⟩

theorem isBlank_of_isDigitLike {c : Char} (h : isDigitLike c = true) : isBlank c = false := by
  obtain ⟨r, hr, hc⟩ := exists_range_of_isDigitLike h
  have apart : ∀ r ∈ zeroDigits.map (fun z => (z, z + 9)) ++ digitFormRanges,
      ∀ b ∈ blankRanges, r.2 < b.1 ∨ b.2 < r.1 := by decide
  by_contra hblank
  rw [Bool.not_eq_false] at hblank
  obtain ⟨b, hb, hcb⟩ := inRanges_iff.mp hblank
  have := apart r hr b hb
  omega

theorem isNumeralBlank_of_isDigitLike {c : Char} (h : isDigitLike c = true) :
    isNumeralBlank c = false := by
  by_contra hblank
  rw [Bool.not_eq_false] at hblank
  have := isBlank_of_isNumeralBlank hblank
  rw [isBlank_of_isDigitLike h] at this
  cases this

end Text

namespace Numeral

open Text

/-- Digits are read up to the first character that is no decimal one. -/
theorem scan_of_isDigitLike {cs : List Char} (h : ∀ c ∈ cs, isDigitLike c = true)
    (value count : Nat) : ∃ n, scan cs value count false
      = some ⟨n, count + (cs.takeWhile isDecimalDigit).length, cs.dropWhile isDecimalDigit⟩ := by
  induction cs generalizing value count with
  | nil => exact ⟨value, rfl⟩
  | cons c cs ih =>
    cases hc : digitValue? c with
    | some d =>
      have hdecimal : isDecimalDigit c = true := by simp [isDecimalDigit, hc]
      obtain ⟨n, hn⟩ := ih (fun x hx => h x (List.mem_cons_of_mem c hx)) (10 * value + d)
        (count + 1)
      refine ⟨n, ?_⟩
      simp only [scan, hc]
      rw [hn, List.takeWhile_cons_of_pos hdecimal, List.dropWhile_cons_of_pos hdecimal,
        List.length_cons]
      simp only [Option.some.injEq, Scan.mk.injEq, true_and, and_true]
      omega
    | none =>
      have hdecimal : ¬isDecimalDigit c = true := by simp [isDecimalDigit, hc]
      have hunderscore : c ≠ '_' := by
        rintro rfl
        exact absurd (h '_' List.mem_cons_self) (by decide)
      refine ⟨value, ?_⟩
      rw [List.takeWhile_cons_of_neg hdecimal, List.dropWhile_cons_of_neg hdecimal]
      simp [scan, hc, hunderscore]

theorem sign_dropWhile_of_isDigitLike {c : Char} {cs : List Char} (h : isDigitLike c = true) :
    sign ((c :: cs).dropWhile isNumeralBlank) = (false, c :: cs) := by
  rw [List.dropWhile_cons_of_neg (by simp [isNumeralBlank_of_isDigitLike h])]
  unfold sign
  split
  · rename_i heq
    cases heq
    exact absurd h (by decide)
  · rename_i heq
    cases heq
    exact absurd h (by decide)
  · rfl

/-- **What passes for digits is read as a number** if all of it are decimal digits, and not too
many. -/
theorem read_ok_iff_of_isDigitLike {cs : List Char} (hne : cs ≠ [])
    (h : ∀ c ∈ cs, isDigitLike c = true) :
    (∃ n, read (String.ofList cs) = .ok n) ↔
      (∀ c ∈ cs, isDecimalDigit c = true) ∧ cs.length ≤ maxDigits := by
  obtain ⟨c, rest, rfl⟩ := List.exists_cons_of_ne_nil hne
  obtain ⟨n, hscan⟩ := scan_of_isDigitLike h 0 0
  unfold read
  rw [String.toList_ofList, sign_dropWhile_of_isDigitLike (h c List.mem_cons_self)]
  simp only
  rw [hscan]
  by_cases hall : ∀ x ∈ c :: rest, isDecimalDigit x = true
  · rw [List.takeWhile_eq_self_iff.mpr hall, List.dropWhile_eq_nil_iff.mpr hall]
    simp only [Nat.zero_add, List.all_nil, Bool.not_true, Bool.or_false]
    by_cases hlen : (c :: rest).length ≤ maxDigits
    · rw [if_neg (Nat.not_lt.mpr hlen), if_neg (by simp)]
      exact iff_of_true ⟨_, rfl⟩ ⟨hall, hlen⟩
    · rw [if_pos (Nat.lt_of_not_le hlen)]
      exact iff_of_false (by simp) fun hboth => hlen hboth.2
  · obtain ⟨x, after, hafter⟩ := List.exists_cons_of_ne_nil fun hnil =>
      hall (List.dropWhile_eq_nil_iff.mp hnil)
    have hx : isNumeralBlank x = false := by
      refine isNumeralBlank_of_isDigitLike (h x ?_)
      have hsuffix := List.dropWhile_suffix isDecimalDigit (l := c :: rest)
      rw [hafter] at hsuffix
      exact hsuffix.mem List.mem_cons_self
    simp only [hafter, List.all_cons, hx, Bool.false_and, Bool.not_false, Bool.or_true, if_true,
      hall, false_and, iff_false]
    split <;> simp

end Numeral

/-! ## Garbled data -/

namespace Callback

open Text

/-- As far as its separators go callback data has one of the two forms, and ends in an index. -/
inductive EndsIn (data : String) (index : List Char) : Prop
  | plain (key : List Char) (named : key ≠ []) (cut : data.toList = key ++ ':' :: index)
      (last : ':' ∉ index) : EndsIn data index
  | hashed (digest : List Char) (named : digest ≠ [])
      (cut : data.toList = 'b' :: (digest ++ '_' :: index)) (first : '_' ∉ digest)
      (plainless : ':' ∉ data.toList) : EndsIn data index

/-- What passes for an index and is none: characters with a digit value, of which not all are
decimal digits, or too many. -/
def Misleads (index : List Char) : Prop :=
  index ≠ [] ∧ (∀ c ∈ index, isDigitLike c = true)
    ∧ ¬((∀ c ∈ index, isDecimalDigit c = true) ∧ index.length ≤ Numeral.maxDigits)

/-- Data with something in the place of the index that is none, but passes for one. -/
def Garbled (data : String) : Prop := ∃ index, EndsIn data index ∧ Misleads index

theorem readIndex?_eq_error_iff (cs : List Char) :
    (∃ fault, readIndex? cs = .error fault) ↔ Misleads cs := by
  unfold readIndex? Misleads
  by_cases hne : cs = []
  · simp [hne]
  by_cases hall : ∀ c ∈ cs, isDigitLike c = true
  · have hpass : (cs.isEmpty || !cs.all isDigitLike) = false := by
      simp [hne, List.all_eq_true.mpr hall]
    rw [hpass, ← Numeral.read_ok_iff_of_isDigitLike hne hall]
    cases Numeral.read (String.ofList cs) with
    | error fault => simpa [bind, Except.bind, hne] using hall
    | ok n => simp [bind, Except.bind, pure, Except.pure]
  · have hstop : (cs.isEmpty || !cs.all isDigitLike) = true := by
      simpa [hne] using hall
    rw [hstop]
    simp [hall]

/-- A last part after a separator is the one that is cut off. -/
theorem cutLast?_eq_some {sep : Char} {cs a b : List Char}
    (h : Text.cutLast? sep cs = some (a, b)) : cs = a ++ sep :: b ∧ sep ∉ b := by
  unfold Text.cutLast? at h
  obtain ⟨⟨x, y⟩, hcut, heq⟩ := Option.map_eq_some_iff.mp h
  obtain ⟨rfl, rfl⟩ := Prod.mk.inj heq
  obtain ⟨hrev, hnot⟩ := Text.cutFirst?_eq_some hcut
  refine ⟨?_, by simpa using hnot⟩
  rw [← List.reverse_reverse cs, hrev]
  simp

theorem not_mem_of_cutFirst?_eq_none {sep : Char} {cs : List Char}
    (h : Text.cutFirst? sep cs = none) : sep ∉ cs := by
  intro hmem
  obtain ⟨a, b, rfl, ha⟩ := List.eq_append_cons_of_mem hmem
  rw [Text.cutFirst?_append ha] at h
  cases h

theorem not_mem_of_cutLast?_eq_none {sep : Char} {cs : List Char}
    (h : Text.cutLast? sep cs = none) : sep ∉ cs := by
  have := not_mem_of_cutFirst?_eq_none (Option.map_eq_none_iff.mp h)
  simpa using this

theorem bind_pure_eq_error_iff {α β : Type} {x : Except Fault α} {f : α → β} :
    (∃ fault, (x >>= fun a => pure (f a)) = Except.error fault) ↔ ∃ fault, x = .error fault := by
  cases x <;> simp [bind, Except.bind, pure, Except.pure]

section

variable {data : String} {index : List Char}

/-- Data with a colon in it ends in what comes after the last one. -/
theorem endsIn_iff_of_cutLast? {key last : List Char}
    (h : Text.cutLast? ':' data.toList = some (key, last)) :
    EndsIn data index ↔ key ≠ [] ∧ index = last := by
  obtain ⟨hcut, hlast⟩ := cutLast?_eq_some h
  constructor
  · intro hends
    cases hends with
    | plain key' named cut last' =>
      have hsame := Text.cutLast?_append last' key'
      rw [← cut, h] at hsame
      obtain ⟨rfl, rfl⟩ := Prod.mk.inj (Option.some.inj hsame)
      exact ⟨named, rfl⟩
    | hashed digest named cut first plainless =>
      rw [hcut] at plainless
      simp at plainless
  · rintro ⟨named, rfl⟩
    exact .plain key named hcut hlast

/-- Data without one ends in what comes after the first underscore. -/
theorem endsIn_iff_of_not_mem (h : ':' ∉ data.toList) :
    EndsIn data index ↔ ∃ digest rest, data.toList = 'b' :: rest ∧ digest ≠ []
      ∧ Text.cutFirst? '_' rest = some (digest, index) := by
  constructor
  · intro hends
    cases hends with
    | plain key named cut last =>
      rw [cut] at h
      simp at h
    | hashed digest named cut first plainless =>
      exact ⟨digest, _, cut, named, Text.cutFirst?_append first index⟩
  · rintro ⟨digest, rest, hdata, named, hcut⟩
    obtain ⟨rfl, hfirst⟩ := Text.cutFirst?_eq_some hcut
    exact .hashed digest named hdata hfirst h

theorem endsIn_iff_of_cutFirst? {rest digest last : List Char} (h : ':' ∉ data.toList)
    (hdata : data.toList = 'b' :: rest) (hcut : Text.cutFirst? '_' rest = some (digest, last)) :
    EndsIn data index ↔ digest ≠ [] ∧ index = last := by
  rw [endsIn_iff_of_not_mem h]
  constructor
  · rintro ⟨digest', rest', hb, named, hsame⟩
    obtain rfl := (List.cons.inj (hdata.symm.trans hb)).2
    obtain ⟨rfl, rfl⟩ := Prod.mk.inj (Option.some.inj (hcut.symm.trans hsame))
    exact ⟨named, rfl⟩
  · rintro ⟨named, rfl⟩
    exact ⟨digest, rest, hdata, named, hcut⟩

end

/-- Where data is cut in two, what comes after the separator is read as the index, if anything comes
before it. -/
theorem readIndex?_after_eq_error_iff {data : String} {before after : List Char}
    (f : Option Nat → Option Ref)
    (hends : ∀ index, EndsIn data index ↔ before ≠ [] ∧ index = after) :
    (∃ fault, (if before.isEmpty then .ok none
      else (readIndex? after >>= fun n => pure (f n) : Except Fault _)) = .error fault) ↔
      Garbled data := by
  unfold Garbled
  simp only [hends]
  by_cases hbefore : before = []
  · simp [hbefore]
  · simp only [List.isEmpty_iff, hbefore, if_false]
    rw [bind_pure_eq_error_iff, readIndex?_eq_error_iff]
    simp [hbefore]

/-- **Only garbled data cannot be read.** -/
theorem read?_eq_error_iff (data : String) :
    (∃ fault, read? data = .error fault) ↔ Garbled data := by
  unfold read?
  cases hplain : Text.cutLast? ':' data.toList with
  | some p =>
    exact readIndex?_after_eq_error_iff (Option.map (Ref.plain (String.ofList p.1)))
      fun index => endsIn_iff_of_cutLast? hplain
  | none =>
    have hcolon := not_mem_of_cutLast?_eq_none hplain
    simp only
    split
    · rename_i rest hdata
      cases hhashed : Text.cutFirst? '_' rest with
      | some p =>
        exact readIndex?_after_eq_error_iff (Option.map (Ref.hashed (String.ofList p.1)))
          fun index => endsIn_iff_of_cutFirst? hcolon hdata hhashed
      | none => simp [Garbled, endsIn_iff_of_not_mem hcolon, hdata, hhashed]
    · rename_i hdata
      simp only [Garbled, endsIn_iff_of_not_mem hcolon, reduceCtorEq, exists_false, false_iff]
      rintro ⟨index, ⟨digest, rest, hb, -⟩, -⟩
      exact hdata rest hb

/-- The digits of a member's key are decimal digits, and there is one. -/
theorem digits_of_memberOf? {key group digits : String}
    (h : memberOf? key = some (group, digits)) :
    digits.toList ≠ [] ∧ ∀ c ∈ digits.toList, isDecimalDigit c = true := by
  unfold memberOf? at h
  simp only at h
  split at h
  · split at h
    · cases h
    · rename_i hdigits
      obtain ⟨rfl, rfl⟩ := Prod.mk.inj (Option.some.inj h)
      simp only [Bool.or_eq_true, not_or, List.isEmpty_iff] at hdigits
      refine ⟨by simpa using hdigits.1.1, fun c hc => ?_⟩
      rw [String.toList_ofList, List.mem_reverse] at hc
      exact List.mem_takeWhile_imp hc
  · cases h

/-- The place of a member is read unless it has too many digits. -/
theorem read_eq_error_iff_of_memberOf? {key group digits : String}
    (h : memberOf? key = some (group, digits)) :
    (∃ fault, Numeral.read digits = .error fault) ↔ Numeral.maxDigits < digits.toList.length := by
  obtain ⟨hne, hdigits⟩ := digits_of_memberOf? h
  have hok := Numeral.read_ok_iff_of_isDigitLike hne fun c hc => by
    simp [isDigitLike, hdigits c hc]
  rw [String.ofList_toList] at hok
  rw [← Nat.not_le, ← and_iff_right hdigits (b := digits.toList.length ≤ Numeral.maxDigits), ← hok]
  cases Numeral.read digits <;> simp

/-- A key that is read back is not empty. -/
theorem key_ne_empty_of_read? {data key : String} {index : Nat}
    (h : read? data = .ok (some (.plain key index))) : key ≠ "" := by
  unfold read? at h
  split at h
  · split at h
    · cases h
    · rename_i hkey
      obtain ⟨found, -, hfound⟩ := Fault.bind_eq_ok.mp h
      obtain ⟨n, -, href⟩ := Option.map_eq_some_iff.mp (Except.ok.inj hfound)
      cases href
      simpa using hkey
  · split at h
    · split at h
      · split at h
        · cases h
        · obtain ⟨found, -, hfound⟩ := Fault.bind_eq_ok.mp h
          obtain ⟨n, -, href⟩ := Option.map_eq_some_iff.mp (Except.ok.inj hfound)
          cases href
      · cases h
    · cases h

/-- Whether a reference names the step with a callback key. -/
def Ref.Names (key : String) : Ref → Prop
  | plain named _ => named = key
  | hashed digest index => Callback.digest key index = digest

end Callback

/-! ## Searches that are stopped -/

namespace Click

/-- A stored row from which no step can be read. -/
def Unreadable (r : StepRow) : Prop := ∃ fault, Step.parse r.draft = .error fault

theorem not_unreadable {r : StepRow} {step : Step} (h : Step.parse r.draft = .ok step) :
    ¬Unreadable r := by
  rintro ⟨fault, hfault⟩
  rw [h] at hfault
  cases hfault

/-- None of the steps that a row stands for has a button with a digest, and this can be told. -/
def PassedOver (digest : String) (index : Nat) (r : StepRow) : Prop :=
  ∃ step, Step.parse r.draft = .ok step ∧ ∀ t ∈ candidatesOf step, hasDigest digest index t = false

/-- The search for a digest comes to a row that cannot be read, past rows that are passed over. -/
inductive BlockedFor (digest : String) (index : Nat) : List StepRow → Prop
  | here {r : StepRow} {rest : List StepRow} (stop : Unreadable r) :
    BlockedFor digest index (r :: rest)
  | later {r : StepRow} {rest : List StepRow} (passed : PassedOver digest index r)
      (blocked : BlockedFor digest index rest) : BlockedFor digest index (r :: rest)

/-- The key is that of a member, and the first group of its id cannot be read, or its place there
cannot. -/
def Trapped (rows : List StepRow) (key : String) : Prop :=
  ∃ group digits row, Callback.memberOf? key = some (group, digits)
    ∧ rows.find? (isFor group groupKind) = some row
    ∧ (Unreadable row ∨ Numeral.maxDigits < digits.toList.length)

/-- What stops the search for the step of a reference. -/
def Stuck (rows : List StepRow) : Callback.Ref → Prop
  | .plain key _ => Trapped rows key
  | .hashed digest index => BlockedFor digest index (rows.filter mayBear)

theorem exists_stepOf? (rows : List StepRow) (stepId : String) :
    ∃ found, stepOf? rows stepId buttonsKind = .ok found := by
  cases hfind : rows.find? (isFor stepId buttonsKind) with
  | none => exact ⟨none, stepOf?_eq_none.mpr hfind⟩
  | some r =>
    obtain ⟨-, -, hkind⟩ := mem_of_find?_isFor hfind
    obtain ⟨step, hparse⟩ := Step.parse_of_buttonsKind (d := r.draft) hkind
    exact ⟨some step, stepOf?_eq_some.mpr ⟨r, hfind, hparse⟩⟩

section

variable {rows : List StepRow} {key group digits : String}

/-! The three ways in which a key is looked up -/

theorem stepOfKey?_of_not_member (h : Callback.memberOf? key = none) :
    stepOfKey? rows key = stepOf? rows key buttonsKind := by
  rw [stepOfKey?, h]

theorem stepOfKey?_of_no_group (h : Callback.memberOf? key = some (group, digits))
    (hfind : rows.find? (isFor group groupKind) = none) :
    stepOfKey? rows key = stepOf? rows key buttonsKind := by
  rw [stepOfKey?, h]
  simp only [stepOf?_eq_none.mpr hfind]
  rfl

theorem stepOfKey?_of_group {row : StepRow} {head : StepHead} {name : String} {members : List Step}
    (h : Callback.memberOf? key = some (group, digits))
    (hfind : rows.find? (isFor group groupKind) = some row)
    (hparse : Step.parse row.draft = .ok (.group head name members)) :
    stepOfKey? rows key = (Numeral.read digits >>= fun _ =>
      pure (members.find? fun m => m.head.callbackKey == key)) := by
  rw [stepOfKey?, h]
  simp only [stepOf?_eq_some.mpr ⟨row, hfind, hparse⟩]
  rfl

theorem stepOfKey?_of_unreadable {row : StepRow} {fault : Fault}
    (h : Callback.memberOf? key = some (group, digits))
    (hfind : rows.find? (isFor group groupKind) = some row)
    (hparse : Step.parse row.draft = .error fault) : stepOfKey? rows key = .error fault := by
  have hgroup : stepOf? rows group groupKind = .error fault := by
    simp [stepOf?, hfind, hparse, Functor.map, Except.map]
  rw [stepOfKey?, h]
  simp only [hgroup]
  rfl

theorem stepOfKey?_eq_error_iff :
    (∃ fault, stepOfKey? rows key = .error fault) ↔ Trapped rows key := by
  have hfound := exists_stepOf? rows key
  unfold Trapped
  cases hmember : Callback.memberOf? key with
  | none =>
    rw [stepOfKey?_of_not_member hmember]
    obtain ⟨found, hfound⟩ := hfound
    simp [hfound]
  | some p =>
    obtain ⟨group, digits⟩ := p
    simp only [Option.some.injEq, Prod.mk.injEq, and_assoc, exists_and_left, exists_eq_left']
    cases hfind : rows.find? (isFor group groupKind) with
    | none =>
      rw [stepOfKey?_of_no_group hmember hfind]
      obtain ⟨found, hfound⟩ := hfound
      simp [hfound]
    | some r =>
      simp only [Option.some.injEq, exists_eq_left']
      cases hparse : Step.parse r.draft with
      | error fault =>
        rw [stepOfKey?_of_unreadable hmember hfind hparse]
        exact iff_of_true ⟨fault, rfl⟩ (.inl ⟨fault, hparse⟩)
      | ok step =>
        obtain ⟨-, -, hkind⟩ := mem_of_find?_isFor hfind
        obtain ⟨head, name, members, rfl⟩ := Step.group_of_parse hparse hkind
        rw [stepOfKey?_of_group hmember hfind hparse, Callback.bind_pure_eq_error_iff,
          Callback.read_eq_error_iff_of_memberOf? hmember]
        simp [not_unreadable hparse]

theorem passedOver_iff {digest : String} {index : Nat} {r : StepRow} {step : Step}
    (h : Step.parse r.draft = .ok step) :
    PassedOver digest index r ↔ (candidatesOf step).find? (hasDigest digest index) = none := by
  unfold PassedOver
  simp [h]

theorem findDigest?_of_passedOver {digest : String} {index : Nat} {r : StepRow}
    (h : PassedOver digest index r) (rest : List StepRow) :
    findDigest? digest index (r :: rest) = findDigest? digest index rest := by
  obtain ⟨step, hparse, -⟩ := id h
  rw [findDigest?_cons hparse, (passedOver_iff hparse).mp h]

theorem blockedFor_cons {digest : String} {index : Nat} {r : StepRow} :
    BlockedFor digest index (r :: rows) ↔
      Unreadable r ∨ PassedOver digest index r ∧ BlockedFor digest index rows := by
  constructor
  · intro h
    cases h with
    | here stop => exact .inl stop
    | later passed blocked => exact .inr ⟨passed, blocked⟩
  · rintro (stop | ⟨passed, blocked⟩)
    · exact .here stop
    · exact .later passed blocked

theorem findDigest?_eq_error_iff {digest : String} {index : Nat} :
    (∃ fault, findDigest? digest index rows = .error fault) ↔ BlockedFor digest index rows := by
  induction rows with
  | nil => exact iff_of_false (by simp [findDigest?]) (by rintro ⟨⟩)
  | cons r rest ih =>
    rw [blockedFor_cons]
    cases hparse : Step.parse r.draft with
    | error fault =>
      have hstop : findDigest? digest index (r :: rest) = .error fault := by
        rw [findDigest?, hparse]
        rfl
      exact iff_of_true ⟨fault, hstop⟩ (.inl ⟨fault, hparse⟩)
    | ok step =>
      rw [findDigest?_cons hparse, passedOver_iff hparse, ← ih]
      cases (candidatesOf step).find? (hasDigest digest index) <;> simp [not_unreadable hparse]

/-- **Only where a search is stuck it fails.** -/
theorem stepOfRef?_eq_error_iff {ref : Callback.Ref} :
    (∃ fault, stepOfRef? rows ref = .error fault) ↔ Stuck rows ref := by
  cases ref with
  | plain key index => exact stepOfKey?_eq_error_iff
  | hashed digest index => exact findDigest?_eq_error_iff

/-! ## What a search can find -/

/-- A reference names a button that is stored, of a step that stands in a row or in the group of
one. -/
def Named (rows : List StepRow) (ref : Callback.Ref) (button : Button) : Prop :=
  ∃ r ∈ rows, ∃ step, Step.parse r.draft = .ok step ∧ ∃ t ∈ candidatesOf step,
    ref.Names t.head.callbackKey ∧ ∃ buttons, buttonsOf? t = some buttons
      ∧ buttons[ref.index]? = some button

/-- A step with buttons that is found by its id has it as its key. -/
theorem candidate_of_stepOf? {t : Step} (hkey : key ≠ "")
    (h : stepOf? rows key buttonsKind = .ok (some t)) :
    ∃ r ∈ rows, ∃ step, Step.parse r.draft = .ok step ∧ t ∈ candidatesOf step
      ∧ t.head.callbackKey = key := by
  obtain ⟨r, hfind, hparse⟩ := stepOf?_eq_some.mp h
  obtain ⟨hr, hid, hkind⟩ := mem_of_find?_isFor hfind
  have hsingle : r.draft.kind ≠ groupKind := by
    change r.kind ≠ groupKind
    rw [hkind]
    decide
  obtain ⟨head, action, rfl⟩ := Step.single_of_parse hparse hsingle
  refine ⟨r, hr, _, hparse, List.mem_singleton.mpr rfl, ?_⟩
  rw [Step.callbackKey_of_parse hparse, Step.idOf_of_ne_empty (hid ▸ hkey), hid]

/-- A step that is found by its key has it. -/
theorem candidate_of_stepOfKey? {t : Step} (hkey : key ≠ "")
    (h : stepOfKey? rows key = .ok (some t)) :
    ∃ r ∈ rows, ∃ step, Step.parse r.draft = .ok step ∧ t ∈ candidatesOf step
      ∧ t.head.callbackKey = key := by
  cases hmember : Callback.memberOf? key with
  | none =>
    rw [stepOfKey?_of_not_member hmember] at h
    exact candidate_of_stepOf? hkey h
  | some p =>
    obtain ⟨group, digits⟩ := p
    cases hfind : rows.find? (isFor group groupKind) with
    | none =>
      rw [stepOfKey?_of_no_group hmember hfind] at h
      exact candidate_of_stepOf? hkey h
    | some r =>
      obtain ⟨hr, -, hkind⟩ := mem_of_find?_isFor hfind
      cases hparse : Step.parse r.draft with
      | error fault =>
        rw [stepOfKey?_of_unreadable hmember hfind hparse] at h
        cases h
      | ok step =>
        obtain ⟨head, name, members, rfl⟩ := Step.group_of_parse hparse hkind
        rw [stepOfKey?_of_group hmember hfind hparse] at h
        obtain ⟨_, -, hfound⟩ := Fault.bind_eq_ok.mp h
        have ht := Except.ok.inj hfound
        exact ⟨r, hr, _, hparse, List.mem_of_find?_eq_some ht, by simpa using List.find?_some ht⟩

/-- **What is found is named**: a button comes from data only if the data names it. -/
theorem named_of_buttonOf? {data : String} {ref : Callback.Ref} {button : Button}
    (hread : Callback.read? data = .ok (some ref)) (h : buttonOf? rows ref = .ok (some button)) :
    Named rows ref button := by
  obtain ⟨found, hstep, hbutton⟩ := Fault.bind_eq_ok.mp h
  obtain ⟨buttons, hbuttons, hindex⟩ := Option.bind_eq_some_iff.mp (Except.ok.inj hbutton)
  obtain ⟨t, rfl, hof⟩ := Option.bind_eq_some_iff.mp hbuttons
  cases ref with
  | plain key index =>
    have hkey := Callback.key_ne_empty_of_read? hread
    obtain ⟨r, hr, step, hparse, ht, hsame⟩ := candidate_of_stepOfKey? hkey hstep
    exact ⟨r, hr, step, hparse, t, ht, hsame.symm, buttons, hof, hindex⟩
  | hashed digest index =>
    obtain ⟨r, hr, step, hparse, ht, hdigest⟩ := mem_of_findDigest? hstep
    exact ⟨r, (List.mem_filter.mp hr).1, step, hparse, t, ht, hasDigest_eq_true hdigest, buttons,
      hof, hindex⟩

end

/-! ## The result -/

/-- A click can be answered: the data is not garbled, and the search that it sets off comes to an
end. -/
def Answerable (s : Store) (conversationId : Option Int) (data : String) : Prop :=
  ¬Callback.Garbled data ∧ ∀ ref, Callback.read? data = .ok (some ref) →
    Searchable s conversationId ∧ ¬Stuck (sought s conversationId) ref

theorem searchable_of_run_rankedSteps {s s' : Store} {conversationId : Option Int}
    {rows : List StepRow} (h : (rankedSteps conversationId).run s = .ok (rows, s')) :
    Searchable s conversationId := by
  obtain ⟨_, m, hsteps, hrest⟩ := Transaction.run_bind_eq_ok.mp h
  obtain ⟨habsent, -, rfl⟩ := Transaction.run_rows_eq_ok.mp hsteps
  cases conversationId with
  | none => exact ⟨habsent, fun _ hid => by cases hid⟩
  | some c =>
    obtain ⟨_, m', hruns, hrest'⟩ := Transaction.run_bind_eq_ok.mp hrest
    obtain ⟨habsent', -, rfl⟩ := Transaction.run_rows_eq_ok.mp hruns
    obtain ⟨_, _, hfit, -⟩ := Transaction.run_bind_eq_ok.mp hrest'
    rw [Transaction.run_fit] at hfit
    refine ⟨habsent, fun id hid => ?_⟩
    obtain rfl := Option.some.inj hid
    refine ⟨habsent', ?_⟩
    split at hfit
    · assumption
    · cases hfit

/-- What comes of a search. -/
theorem run_findButton_eq_ok_iff {s s' : Store} {conversationId : Option Int} {data : String}
    {found : Option Button} :
    (findButton data conversationId).run s = .ok (found, s') ↔
      s' = s ∧ (Callback.read? data = .ok none ∧ found = none ∨
        ∃ ref, Callback.read? data = .ok (some ref) ∧ Searchable s conversationId
          ∧ buttonOf? (sought s conversationId) ref = .ok found) := by
  constructor
  · intro h
    obtain ⟨read, m, hlift, hrest⟩ := Transaction.run_bind_eq_ok.mp h
    obtain ⟨hread, rfl⟩ := Transaction.lift_eq_ok hlift
    cases read with
    | none =>
      cases hrest
      exact ⟨rfl, .inl ⟨hread, rfl⟩⟩
    | some ref =>
      obtain ⟨rows, m', hrows, hlift'⟩ := Transaction.run_bind_eq_ok.mp hrest
      have hsearch := searchable_of_run_rankedSteps hrows
      obtain ⟨rfl, rfl⟩ := Prod.mk.inj (Except.ok.inj ((run_rankedSteps hsearch).symm.trans hrows))
      obtain ⟨hbutton, rfl⟩ := Transaction.lift_eq_ok hlift'
      exact ⟨rfl, .inr ⟨ref, hread, hsearch, hbutton⟩⟩
  · rintro ⟨rfl, ⟨hread, rfl⟩ | ⟨ref, hread, hsearch, hbutton⟩⟩
    · exact run_findButton_of_foreign hread conversationId s'
    · exact (run_findButton hsearch hread).mpr hbutton

/-- **Where a click can be answered.** -/
theorem exists_run_findButton_iff {s : Store} {conversationId : Option Int} {data : String} :
    (∃ found, (findButton data conversationId).run s = .ok (found, s)) ↔
      Answerable s conversationId data := by
  unfold Answerable
  rw [← Callback.read?_eq_error_iff]
  simp only [run_findButton_eq_ok_iff, true_and]
  cases hread : Callback.read? data with
  | error fault => simp
  | ok read =>
    cases read with
    | none => simp
    | some ref =>
      simp only [← stepOfRef?_eq_error_iff, reduceCtorEq, Except.ok.injEq, Option.some.injEq,
        false_and, false_or, exists_eq_left', exists_false, not_false_iff, true_and, forall_eq',
        exists_and_left]
      refine and_congr_right fun _ => ?_
      unfold buttonOf?
      cases stepOfRef? (sought s conversationId) ref <;> simp [bind, Except.bind, pure, Except.pure]

/-- A click on data is answered as far as it can be. -/
structure Answers (settings : Settings) (data : String) : Prop where
  /-- The data is read unless it is garbled. -/
  reads : (∃ ref, Callback.read? data = .ok ref) ↔ ¬Callback.Garbled data
  /-- A button is found, or none, where the click can be answered. -/
  finds : ∀ (s : Store) (conversationId : Option Int),
    (∃ found, (findButton data conversationId).run s = .ok (found, s)) ↔
      Answerable s conversationId data
  /-- What is found is stored, under the name that the data gives, and nothing changes. -/
  stored : ∀ (s s' : Store) (conversationId : Option Int) (found : Option Button),
    (findButton data conversationId).run s = .ok (found, s') →
      s' = s ∧ ∀ button, found = some button →
        ∃ ref, Callback.read? data = .ok (some ref) ∧ Named s.steps ref button
  /-- Data that names no stored button is refused, and changes nothing. -/
  refuses : ∀ (w : World) (conversationId : Int), Answerable w.store (some conversationId) data →
    (∀ ref button, Callback.read? data = .ok (some ref) → ¬Named w.store.steps ref button) →
      (handle settings conversationId data).runOn w = (.ok ⟨false, false⟩, w)
  /-- A click that cannot be answered changes nothing either. -/
  stops : ∀ (w : World) (conversationId : Int), ¬Answerable w.store (some conversationId) data →
    ∃ fault, (handle settings conversationId data).runOn w = (.error fault, w)

theorem Named.of_perm {rows others : List StepRow} (hperm : others.Perm rows)
    {ref : Callback.Ref} {button : Button} (h : Named others ref button) :
    Named rows ref button := by
  obtain ⟨r, hr, hrest⟩ := h
  exact ⟨r, hperm.mem_iff.mp hr, hrest⟩

theorem named_of_run_findButton {s s' : Store} {conversationId : Option Int} {data : String}
    {button : Button} (h : (findButton data conversationId).run s = .ok (some button, s')) :
    ∃ ref, Callback.read? data = .ok (some ref) ∧ Named s.steps ref button := by
  obtain ⟨-, ⟨-, hfound⟩ | ⟨ref, hread, -, hbutton⟩⟩ := run_findButton_eq_ok_iff.mp h
  · cases hfound
  · exact ⟨ref, hread, (named_of_buttonOf? hread hbutton).of_perm (sought_perm s conversationId)⟩

/-- **Any data is answered as far as it can be**; a click without data is one with empty data. -/
theorem answers_exactly (settings : Settings) (given : Option String) :
    Answers settings (given.getD "") where
  reads := by
    rw [← Callback.read?_eq_error_iff]
    cases Callback.read? (given.getD "") <;> simp
  finds _ _ := exists_run_findButton_iff
  stored s s' conversationId found h := by
    refine ⟨(run_findButton_eq_ok_iff.mp h).1, ?_⟩
    rintro button rfl
    exact named_of_run_findButton h
  refuses w conversationId hanswerable hnone := by
    obtain ⟨found, hfound⟩ := exists_run_findButton_iff.mpr hanswerable
    cases found with
    | some button =>
      obtain ⟨ref, hread, hnamed⟩ := named_of_run_findButton hfound
      exact absurd hnamed (hnone ref button hread)
    | none =>
      unfold handle
      rw [Work.runOn_bind, Work.query, Work.run_transact, hfound]
      rfl
  stops w conversationId hunanswerable := by
    rw [← exists_run_findButton_iff] at hunanswerable
    cases hrun : (findButton (given.getD "") (some conversationId)).run w.store with
    | ok p =>
      obtain ⟨found, s'⟩ := p
      obtain rfl := (run_findButton_eq_ok_iff.mp hrun).1
      exact absurd ⟨found, hrun⟩ hunanswerable
    | error fault =>
      refine ⟨fault, ?_⟩
      unfold handle
      rw [Work.runOn_bind, Work.query, Work.run_transact, hrun]

/-- A superscript passes for the index of a button, and stops the click. -/
theorem not_always_answered :
    ¬∀ (data : String) (conversationId : Option Int) (s : Store),
      (∃ ref, Callback.read? data = .ok ref)
        ∧ ∃ found, (findButton data conversationId).run s = .ok (found, s) := by
  intro h
  obtain ⟨⟨ref, href⟩, -⟩ := h "s1:²" none {}
  have hfault : (Callback.read? "s1:²").toOption = none := by decide +kernel
  rw [href] at hfault
  cases hfault

end Click

end Deskflow
