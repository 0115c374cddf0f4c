import Mathlib.Algebra.BigOperators.Group.List.Basic
import Mathlib.Algebra.Order.BigOperators.Group.List
import Mathlib.Data.List.Infix
import Mathlib.Data.List.Nodup
import Mathlib.Tactic.IntervalCases
import Deskflow.Template

/-!
# Filling in a template at once and one after another

A template is to be filled in at once: each token in it gives way to its value, and all else, values
too, is left as it is (`fill`). It is filled in one variable after another instead, in the text as
the variables before have left it. The two come to the same until a token is met that the template
does not have: one that stands in a value, or that came together around one. So they come to the
same at every stage just where the variables filled in before leave the tokens of each variable as
many as they were (`Unmixed`).

The stages are those of `render`, with the variables of `build_variables`.

* `text_induction`: a text is read token by token.
* `exists_pieces`: what is filled in at once, with one variable more and without.
* `fillFrom_fillFrom_iff`: when a stage after others comes to filling in at once.
* `stages_iff`: the same for all of them.
* `unmixed_of_flat`: it is so where braces stand for tokens only.
* `occurrences_fillFrom`: values that belong to no token, as numbers do, make none and break none.
* `exists_pieces_of_channel`: the channel's name, which is filled in last, is never looked into.
* `filled_exactly`: the result.
* `name_taken_for_template`: a client whose name is a token gets a telephone number for it.
-/

namespace Deskflow

namespace Template

/-- The brace that opens a token. -/
def opening : Char := '\x7b'

/-- The brace that closes a token. -/
def closing : Char := '\x7d'

/-- The characters of the token of a variable. -/
def mark (v : String × String) : List Char := (token v.1).toList

/-- The first variable whose token a text starts with. -/
def tokenAt? (vars : Variables) (cs : List Char) : Option (String × String) :=
  vars.find? fun v => (mark v).isPrefixOf cs

/-- `cs` with the token of each variable replaced by its value, found from left to right; `skip`
counts the characters of a token that are still to be passed over. -/
def fillFrom (vars : Variables) : Nat → List Char → List Char
  | _, [] => []
  | skip + 1, _ :: cs => fillFrom vars skip cs
  | 0, c :: cs =>
    match tokenAt? vars (c :: cs) with
    | some v => v.2.toList ++ fillFrom vars ((mark v).length - 1) cs
    | none => c :: fillFrom vars 0 cs

/-- The template with every variable filled in at once. -/
def fill (vars : Variables) (text : String) : String :=
  String.ofList (fillFrom vars 0 text.toList)

/-- In how many places of `cs` a token stands. -/
def occurrences (token : List Char) : List Char → Nat
  | [] => 0
  | c :: cs => (if token.isPrefixOf (c :: cs) then 1 else 0) + occurrences token cs

/-- Whichever variable comes next, its token stands in the template, filled in at once with the
variables before, as often as in the template itself, or else stands for itself. -/
def Unmixed (vars : Variables) (text : String) : Prop :=
  ∀ i : Fin vars.length, vars[i].2 = token vars[i].1 ∨
    occurrences (mark vars[i]) (fill (vars.take i) text).toList
      = occurrences (mark vars[i]) text.toList

instance (vars : Variables) (text : String) : Decidable (Unmixed vars text) :=
  inferInstanceAs (Decidable (∀ _, _))

/-! ## Tokens -/

/-- A token is an opening brace, a name without braces, and a closing one. -/
def IsToken (t : List Char) : Prop :=
  ∃ name, t = opening :: (name ++ [closing]) ∧ opening ∉ name ∧ closing ∉ name

/-- Variables have distinct names, without braces. -/
structure WellNamed (vars : Variables) : Prop where
  distinct : (vars.map Prod.fst).Nodup
  tokens : ∀ v ∈ vars, IsToken (mark v)

theorem mark_eq (v : String × String) : mark v = opening :: (v.1.toList ++ [closing]) := by
  simp [mark, token, String.toList_append]
  exact ⟨rfl, rfl⟩

theorem isToken_mark {v : String × String} (hopening : opening ∉ v.1.toList)
    (hclosing : closing ∉ v.1.toList) : IsToken (mark v) :=
  ⟨v.1.toList, mark_eq v, hopening, hclosing⟩

theorem mark_inj {v w : String × String} (h : mark v = mark w) : v.1 = w.1 := by
  rw [mark_eq, mark_eq] at h
  exact String.toList_injective (List.append_cancel_right (List.cons.inj h).2)

section

variable {s t : List Char}

theorem IsToken.ne_nil (h : IsToken t) : t ≠ [] := by
  obtain ⟨name, rfl, -⟩ := h
  exact List.cons_ne_nil _ _

theorem IsToken.not_starts (h : IsToken t) {c : Char} (hc : c ≠ opening) (cs : List Char) :
    ¬t <+: c :: cs := by
  obtain ⟨name, rfl, -⟩ := h
  rintro hstarts
  exact hc (List.cons_prefix_cons.mp hstarts).1.symm

theorem prefix_of_closing {a b : List Char} (hb : closing ∉ b)
    (h : a ++ [closing] <+: b ++ [closing]) : a = b := by
  rcases List.prefix_concat_iff.mp h with h | h
  · exact List.append_cancel_right h
  · exact absurd (h.subset (by simp)) hb

/-- Of two tokens that a text starts with each is the other. -/
theorem IsToken.unique (hs : IsToken s) (ht : IsToken t) {cs : List Char} (hs' : s <+: cs)
    (ht' : t <+: cs) : s = t := by
  obtain ⟨a, rfl, -, ha⟩ := hs
  obtain ⟨b, rfl, -, hb⟩ := ht
  rcases List.prefix_or_prefix_of_prefix hs' ht' with h | h
  · rw [prefix_of_closing hb (List.cons_prefix_cons.mp h).2]
  · rw [prefix_of_closing ha (List.cons_prefix_cons.mp h).2]

/-- Tokens do not overlap: one that begins before another ends before it. -/
theorem IsToken.prefix_append_iff (hs : IsToken s) (ht : IsToken t) {x : List Char} (hx : x ≠ [])
    (y : List Char) : s <+: x ++ (t ++ y) ↔ s <+: x := by
  refine ⟨fun h => ?_, fun h => h.trans (List.prefix_append _ _)⟩
  rcases List.prefix_or_prefix_of_prefix h (List.prefix_append x (t ++ y)) with h' | ⟨rest, hrest⟩
  · exact h'
  obtain ⟨a, rfl, ha, -⟩ := hs
  obtain ⟨b, rfl, -⟩ := ht
  obtain ⟨c, x, rfl⟩ := List.exists_cons_of_ne_nil hx
  rw [← hrest, List.prefix_append_right_inj] at h
  have htail : x ++ rest = a ++ [closing] := (List.cons.inj hrest).2
  cases rest with
  | nil => rw [← hrest, List.append_nil]
  | cons d rest =>
    obtain rfl := (List.cons_prefix_cons.mp h).1
    have hmem : opening ∈ a ++ [closing] := htail ▸ List.mem_append_right x List.mem_cons_self
    rcases List.mem_append.mp hmem with hmem | hmem
    · exact absurd hmem ha
    · exact absurd (List.mem_singleton.mp hmem) (by decide)

end

/-! ## Reading a text -/

section

variable {vars : Variables}

theorem tokenAt?_eq_none {cs : List Char} :
    tokenAt? vars cs = none ↔ ∀ v ∈ vars, ¬mark v <+: cs := by
  simp [tokenAt?, List.find?_eq_none, List.isPrefixOf_iff_prefix]

theorem tokenAt?_eq_some {cs : List Char} {v : String × String} (h : tokenAt? vars cs = some v) :
    v ∈ vars ∧ mark v <+: cs := by
  unfold tokenAt? at h
  exact ⟨List.mem_of_find?_eq_some h, by simpa [List.isPrefixOf_iff_prefix] using List.find?_some h⟩

theorem tokenAt?_mark (h : WellNamed vars) {v : String × String} (hv : v ∈ vars)
    (rest : List Char) : tokenAt? vars (mark v ++ rest) = some v := by
  cases hfound : tokenAt? vars (mark v ++ rest) with
  | none => exact absurd (List.prefix_append _ _) (tokenAt?_eq_none.mp hfound v hv)
  | some w =>
    obtain ⟨hw, hstarts⟩ := tokenAt?_eq_some hfound
    have hname := mark_inj ((h.tokens w hw).unique (h.tokens v hv) hstarts
      (List.prefix_append _ _))
    rw [List.inj_on_of_nodup_map h.distinct hw hv hname]

/-- **A text is read token by token**, and character by character in between. -/
@[elab_as_elim]
theorem text_induction (vars : Variables) {P : List Char → Prop} (nil : P [])
    (tokens : ∀ v ∈ vars, ∀ rest, P rest → P (mark v ++ rest))
    (char : ∀ c rest, tokenAt? vars (c :: rest) = none → P rest → P (c :: rest)) (cs : List Char) :
    P cs := by
  induction hn : cs.length using Nat.strong_induction_on generalizing cs with
  | _ n ih =>
    subst hn
    cases cs with
    | nil => exact nil
    | cons c rest =>
      cases hfound : tokenAt? vars (c :: rest) with
      | none => exact char c rest hfound (ih rest.length (by simp) rest rfl)
      | some v =>
        obtain ⟨hv, after, hafter⟩ := tokenAt?_eq_some hfound
        rw [← hafter]
        refine tokens v hv after (ih after.length ?_ after rfl)
        rw [← hafter, mark_eq]
        simp
        omega

theorem fillFrom_skip (skip : Nat) (cs : List Char) :
    fillFrom vars skip cs = fillFrom vars 0 (cs.drop skip) := by
  induction cs generalizing skip with
  | nil => cases skip <;> rfl
  | cons c cs ih =>
    cases skip with
    | zero => rfl
    | succ skip => exact ih skip

@[simp] theorem fillFrom_nil : fillFrom vars 0 [] = [] := rfl

theorem fillFrom_cons {c : Char} {cs : List Char} (h : tokenAt? vars (c :: cs) = none) :
    fillFrom vars 0 (c :: cs) = c :: fillFrom vars 0 cs := by
  rw [fillFrom, h]

theorem fillFrom_mark (h : WellNamed vars) {v : String × String} (hv : v ∈ vars)
    (rest : List Char) :
    fillFrom vars 0 (mark v ++ rest) = v.2.toList ++ fillFrom vars 0 rest := by
  have hfound := tokenAt?_mark h hv rest
  rw [mark_eq, List.cons_append] at hfound ⊢
  rw [fillFrom, hfound]
  dsimp only
  rw [fillFrom_skip, mark_eq, List.drop_left' (by simp)]

/-- Without opening braces there are no tokens. -/
theorem fillFrom_append (h : WellNamed vars) {cs : List Char} (hcs : opening ∉ cs)
    (rest : List Char) : fillFrom vars 0 (cs ++ rest) = cs ++ fillFrom vars 0 rest := by
  induction cs with
  | nil => rfl
  | cons c cs ih =>
    obtain ⟨hc, hcs⟩ : opening ≠ c ∧ opening ∉ cs := by simpa using hcs
    rw [List.cons_append, fillFrom_cons, ih hcs, List.cons_append]
    exact tokenAt?_eq_none.mpr fun v hv => (h.tokens v hv).not_starts (Ne.symm hc) _

/-- Another token is left as it is. -/
theorem fillFrom_of_none (h : WellNamed vars) {t : List Char} (ht : IsToken t) {rest : List Char}
    (hnone : tokenAt? vars (t ++ rest) = none) :
    fillFrom vars 0 (t ++ rest) = t ++ fillFrom vars 0 rest := by
  obtain ⟨name, rfl, hname, -⟩ := ht
  have htail : opening ∉ name ++ [closing] := by simpa [hname] using by decide
  rw [List.cons_append] at hnone ⊢
  rw [fillFrom_cons hnone, fillFrom_append h htail, List.cons_append]

end

/-! ## Counting tokens -/

section

variable {t : List Char}

theorem occurrences_cons {c : Char} {cs : List Char} (h : ¬t <+: c :: cs) :
    occurrences t (c :: cs) = occurrences t cs := by
  rw [occurrences, if_neg (by simpa [List.isPrefixOf_iff_prefix] using h), Nat.zero_add]

theorem occurrences_append_of_not_mem (ht : IsToken t) {cs : List Char} (hcs : opening ∉ cs)
    (rest : List Char) : occurrences t (cs ++ rest) = occurrences t rest := by
  induction cs with
  | nil => rfl
  | cons c cs ih =>
    obtain ⟨hc, hcs⟩ : opening ≠ c ∧ opening ∉ cs := by simpa using hcs
    rw [List.cons_append, occurrences_cons (ht.not_starts (Ne.symm hc) _), ih hcs]

/-- A token at the start counts if it is the one that is counted. -/
theorem occurrences_token_append (ht : IsToken t) {s : List Char} (hs : IsToken s)
    (rest : List Char) :
    occurrences t (s ++ rest) = (if s = t then 1 else 0) + occurrences t rest := by
  have hstarts : t.isPrefixOf (s ++ rest) = true ↔ s = t := by
    rw [List.isPrefixOf_iff_prefix]
    constructor
    · exact fun h => hs.unique ht (List.prefix_append _ _) h
    · rintro rfl
      exact List.prefix_append _ _
  obtain ⟨name, hname, hfree, -⟩ := hs
  have htail : opening ∉ name ++ [closing] := by simpa [hfree] using by decide
  simp only [← hstarts]
  rw [hname, List.cons_append, occurrences, occurrences_append_of_not_mem ht htail]

theorem occurrences_append_token (ht : IsToken t) (x rest : List Char) :
    occurrences t (x ++ (t ++ rest)) = occurrences t x + 1 + occurrences t rest := by
  induction x with
  | nil =>
    rw [List.nil_append, occurrences_token_append ht ht, if_pos rfl, occurrences, Nat.zero_add]
  | cons c x ih =>
    have hiff : t.isPrefixOf (c :: (x ++ (t ++ rest))) = t.isPrefixOf (c :: x) := by
      rw [Bool.eq_iff_iff, List.isPrefixOf_iff_prefix, List.isPrefixOf_iff_prefix,
        ← List.cons_append]
      exact ht.prefix_append_iff ht (List.cons_ne_nil _ _) rest
    rw [List.cons_append, occurrences, occurrences, ih, hiff]
    omega

theorem occurrences_pos_iff {cs : List Char} (ht : t ≠ []) : 0 < occurrences t cs ↔ t <:+: cs := by
  induction cs with
  | nil => simpa [occurrences] using ht
  | cons c cs ih =>
    rw [occurrences, List.infix_cons_iff, ← ih, ← List.isPrefixOf_iff_prefix]
    split <;> simp_all

end

/-! ## One variable after others -/

/-- A text with `between` before each of these pieces. -/
def interleave (between : List Char) : List (List Char) → List Char
  | [] => []
  | piece :: pieces => between ++ (piece ++ interleave between pieces)

section

variable {vars : Variables} {v : String × String}

theorem WellNamed.left {ws : Variables} (h : WellNamed (vars ++ ws)) : WellNamed vars :=
  ⟨h.distinct.sublist ((List.sublist_append_left vars ws).map Prod.fst), fun w hw =>
    h.tokens w (List.mem_append_left _ hw)⟩

theorem WellNamed.right {ws : Variables} (h : WellNamed (vars ++ ws)) : WellNamed ws :=
  ⟨h.distinct.sublist ((List.sublist_append_right vars ws).map Prod.fst), fun w hw =>
    h.tokens w (List.mem_append_right _ hw)⟩

theorem WellNamed.mark_ne (h : WellNamed (vars ++ [v])) {w : String × String} (hw : w ∈ vars) :
    mark w ≠ mark v := by
  intro hsame
  have hdistinct := h.distinct
  rw [List.map_append, List.nodup_append] at hdistinct
  exact hdistinct.2.2 w.1 (List.mem_map_of_mem hw) v.1 (by simp) (mark_inj hsame)

/-- Only the names matter. -/
theorem WellNamed.of_names {us : Variables} (h : WellNamed vars)
    (hnames : us.map Prod.fst = vars.map Prod.fst) : WellNamed us := by
  refine ⟨hnames ▸ h.distinct, fun u hu => ?_⟩
  obtain ⟨w, hw, hname⟩ := List.mem_map.mp (hnames ▸ List.mem_map_of_mem hu)
  rw [mark, ← hname]
  exact h.tokens w hw

/-- **With one variable more the same pieces stand between other values**, whatever its value:
those that come between them otherwise are the tokens that the template has of it. -/
theorem exists_pieces (h : WellNamed (vars ++ [v])) (cs : List Char) :
    ∃ piece pieces, pieces.length = occurrences (mark v) cs
      ∧ fillFrom vars 0 cs = piece ++ interleave (mark v) pieces
      ∧ ∀ value, fillFrom (vars ++ [(v.1, value)]) 0 cs
          = piece ++ interleave value.toList pieces := by
  have ht := h.tokens v (by simp)
  have h' : ∀ value, WellNamed (vars ++ [(v.1, value)]) := fun value => h.of_names (by simp)
  induction cs using text_induction (vars ++ [v]) with
  | nil => exact ⟨[], [], rfl, rfl, fun _ => rfl⟩
  | tokens w hw rest ih =>
    obtain ⟨piece, pieces, hlength, hwithout, hwith⟩ := ih
    rcases List.mem_append.mp hw with hearlier | hlast
    · refine ⟨w.2.toList ++ piece, pieces, ?_, ?_, fun value => ?_⟩
      · rw [occurrences_token_append ht (h.tokens w hw), if_neg (h.mark_ne hearlier), Nat.zero_add,
          hlength]
      · rw [fillFrom_mark h.left hearlier, hwithout, List.append_assoc]
      · rw [fillFrom_mark (h' value) (List.mem_append_left _ hearlier), hwith, List.append_assoc]
    · obtain rfl := List.mem_singleton.mp hlast
      have hnone : tokenAt? vars (mark w ++ rest) = none := tokenAt?_eq_none.mpr fun u hu hstarts =>
        h.mark_ne hu ((h.left.tokens u hu).unique ht hstarts (List.prefix_append _ _))
      -- A token of the last variable: a new piece begins behind it.
      refine ⟨[], piece :: pieces, ?_, ?_, fun value => ?_⟩
      · rw [occurrences_token_append ht ht, if_pos rfl, List.length_cons, hlength, Nat.add_comm]
      · rw [fillFrom_of_none h.left ht hnone, hwithout]
        rfl
      · have hfilled := fillFrom_mark (h' value) (List.mem_append_right _ List.mem_cons_self) rest
        rw [hwith] at hfilled
        exact hfilled
  | char c rest hnone ih =>
    obtain ⟨piece, pieces, hlength, hwithout, hwith⟩ := ih
    have hall := tokenAt?_eq_none.mp hnone
    refine ⟨c :: piece, pieces, ?_, ?_, fun value => ?_⟩
    · rw [occurrences_cons (hall v (by simp)), hlength]
    · rw [fillFrom_cons (tokenAt?_eq_none.mpr fun u hu => hall u (List.mem_append_left _ hu)),
        hwithout, List.cons_append]
    · have hnone' : tokenAt? (vars ++ [(v.1, value)]) (c :: rest) = none := by
        refine tokenAt?_eq_none.mpr fun u hu => ?_
        rcases List.mem_append.mp hu with hearlier | hlast
        · exact hall u (List.mem_append_left _ hearlier)
        · obtain rfl := List.mem_singleton.mp hlast
          exact hall v (by simp)
      rw [fillFrom_cons hnone', hwith, List.cons_append]

/-! ### The stage of a variable -/

theorem replaceFrom_eq_fillFrom (v : String × String) (skip : Nat) (cs : List Char) :
    Text.replaceFrom (mark v) v.2.toList skip cs = fillFrom [v] skip cs := by
  induction cs generalizing skip with
  | nil => rfl
  | cons c cs ih =>
    cases skip with
    | succ skip => exact ih skip
    | zero =>
      rw [Text.replaceFrom, fillFrom, tokenAt?, List.find?_cons]
      cases (mark v).isPrefixOf (c :: cs) with
      | true => rw [if_pos rfl, ih]
      | false => simp [ih]

/-- The stage of a variable fills in that variable alone. -/
theorem replace_eq_fill (text : String) (v : String × String) :
    Text.replace text (token v.1) v.2 = fill [v] text := by
  rw [Text.replace, fill, ← replaceFrom_eq_fillFrom]
  rfl

/-- A text is read token by token of this one variable. -/
@[elab_as_elim]
theorem token_induction (v : String × String) {P : List Char → Prop} (nil : P [])
    (token : ∀ rest, P rest → P (mark v ++ rest))
    (char : ∀ c rest, ¬mark v <+: c :: rest → P rest → P (c :: rest)) (cs : List Char) : P cs := by
  induction cs using text_induction [v] with
  | nil => exact nil
  | tokens w hw rest ih =>
    obtain rfl := List.mem_singleton.mp hw
    exact token rest ih
  | char c rest hnone ih =>
    exact char c rest (tokenAt?_eq_none.mp hnone v List.mem_cons_self) ih

theorem fillFrom_char {c : Char} {rest : List Char} (hc : ¬mark v <+: c :: rest) :
    fillFrom [v] 0 (c :: rest) = c :: fillFrom [v] 0 rest :=
  fillFrom_cons (tokenAt?_eq_none.mpr fun _ hw => List.mem_singleton.mp hw ▸ hc)

variable (h : WellNamed [v])

include h

theorem fillFrom_token (rest : List Char) :
    fillFrom [v] 0 (mark v ++ rest) = v.2.toList ++ fillFrom [v] 0 rest :=
  fillFrom_mark h List.mem_cons_self rest

/-- What comes before a token and what comes after it is looked through apart. -/
theorem fillFrom_append_mark (x rest : List Char) :
    fillFrom [v] 0 (x ++ (mark v ++ rest))
      = fillFrom [v] 0 x ++ (v.2.toList ++ fillFrom [v] 0 rest) := by
  have ht := h.tokens v List.mem_cons_self
  induction x using token_induction v with
  | nil => exact fillFrom_token h rest
  | token x ih =>
    rw [List.append_assoc, fillFrom_token h, fillFrom_token h, ih, List.append_assoc]
  | char c x hc ih =>
    have hc' : ¬mark v <+: c :: (x ++ (mark v ++ rest)) := by
      rwa [← List.cons_append, ht.prefix_append_iff ht (List.cons_ne_nil _ _)]
    rw [List.cons_append, fillFrom_char hc', ih, fillFrom_char hc, List.cons_append]

theorem fillFrom_interleave (piece : List Char) (pieces : List (List Char)) :
    fillFrom [v] 0 (piece ++ interleave (mark v) pieces)
      = fillFrom [v] 0 piece ++ interleave v.2.toList (pieces.map (fillFrom [v] 0)) := by
  induction pieces generalizing piece with
  | nil => simp [interleave]
  | cons next pieces ih =>
    rw [interleave, fillFrom_append_mark h, ih, List.map_cons, interleave]

theorem occurrences_interleave (piece : List Char) (pieces : List (List Char)) :
    occurrences (mark v) (piece ++ interleave (mark v) pieces)
      = pieces.length + (occurrences (mark v) piece
        + (pieces.map (occurrences (mark v))).sum) := by
  have ht := h.tokens v List.mem_cons_self
  induction pieces generalizing piece with
  | nil => simp [interleave]
  | cons next pieces ih =>
    rw [interleave, occurrences_append_token ht, ih, List.length_cons, List.map_cons, List.sum_cons]
    omega

/-- Each token gives the length of its value for its own. -/
theorem length_fillFrom (cs : List Char) :
    (fillFrom [v] 0 cs).length + occurrences (mark v) cs * (mark v).length
      = cs.length + occurrences (mark v) cs * v.2.toList.length := by
  have ht := h.tokens v List.mem_cons_self
  induction cs using token_induction v with
  | nil => simp [occurrences]
  | token rest ih =>
    rw [fillFrom_token h, occurrences_token_append ht ht, if_pos rfl, List.length_append,
      List.length_append, Nat.add_mul, Nat.add_mul]
    omega
  | char c rest hc ih =>
    rw [fillFrom_char hc, occurrences_cons hc, List.length_cons, List.length_cons]
    omega

theorem fillFrom_of_occurrences_eq_zero {cs : List Char} (hcs : occurrences (mark v) cs = 0) :
    fillFrom [v] 0 cs = cs := by
  have ht := h.tokens v List.mem_cons_self
  induction cs using token_induction v with
  | nil => rfl
  | token rest ih =>
    rw [occurrences_token_append ht ht, if_pos rfl] at hcs
    omega
  | char c rest hc ih =>
    rw [occurrences_cons hc] at hcs
    rw [fillFrom_char hc, ih hcs]

theorem fillFrom_of_self (hv : v.2.toList = mark v) (cs : List Char) : fillFrom [v] 0 cs = cs := by
  induction cs using token_induction v with
  | nil => rfl
  | token rest ih => rw [fillFrom_token h, ih, hv]
  | char c rest hc ih => rw [fillFrom_char hc, ih]

/-- A text that a value of the length of its token leaves as it is has no such token in it. -/
theorem occurrences_eq_zero_of_fillFrom (hlength : v.2.toList.length = (mark v).length)
    (hv : v.2.toList ≠ mark v) {cs : List Char} (hcs : fillFrom [v] 0 cs = cs) :
    occurrences (mark v) cs = 0 := by
  induction cs using token_induction v with
  | nil => rfl
  | token rest ih =>
    rw [fillFrom_token h] at hcs
    exact absurd (List.append_inj hcs hlength).1 hv
  | char c rest hc ih =>
    rw [fillFrom_char hc] at hcs
    rw [occurrences_cons hc]
    exact ih (List.cons.inj hcs).2

omit h in
theorem length_interleave (between : List Char) (pieces : List (List Char)) :
    (interleave between pieces).length
      = pieces.length * between.length + (pieces.map List.length).sum := by
  induction pieces with
  | nil => simp [interleave]
  | cons piece pieces ih =>
    simp only [interleave, List.length_append, ih, List.length_cons, List.map_cons, List.sum_cons]
    rw [Nat.add_mul]
    omega

omit h in
/-- Pieces of the same lengths are told apart. -/
theorem forall_fixed_of_interleave {f : List Char → List Char}
    (hf : ∀ piece, (f piece).length = piece.length) {between : List Char}
    {pieces : List (List Char)}
    (hsame : interleave between (pieces.map f) = interleave between pieces) :
    ∀ piece ∈ pieces, f piece = piece := by
  induction pieces with
  | nil => simp
  | cons next pieces ih =>
    rw [List.map_cons, interleave, interleave] at hsame
    obtain ⟨hnext, hsame⟩ := List.append_inj (List.append_cancel_left hsame) (hf next)
    exact List.forall_mem_cons.mpr ⟨hnext, ih hsame⟩

/-- **A stage meets no other tokens**, where its variable does not stand for its own token, just if
it comes to the pieces with other values between them. -/
theorem fillFrom_interleave_iff (piece : List Char) (pieces : List (List Char)) :
    fillFrom [v] 0 (piece ++ interleave (mark v) pieces) = piece ++ interleave v.2.toList pieces ↔
      v.2.toList = mark v
        ∨ occurrences (mark v) (piece ++ interleave (mark v) pieces) = pieces.length := by
  constructor
  · intro hsame
    by_contra! hother
    obtain ⟨hself, hmore⟩ := hother
    by_cases hlength : v.2.toList.length = (mark v).length
    · have hkept : ∀ cs, (fillFrom [v] 0 cs).length = cs.length := fun cs => by
        have := length_fillFrom h cs
        rw [hlength] at this
        omega
      rw [fillFrom_interleave h] at hsame
      obtain ⟨hpiece, hsame⟩ := List.append_inj hsame (hkept piece)
      have hpieces := forall_fixed_of_interleave hkept hsame
      have hzero : (pieces.map (occurrences (mark v))).sum = 0 := by
        refine List.sum_eq_zero fun n hn => ?_
        obtain ⟨p, hp, rfl⟩ := List.mem_map.mp hn
        exact occurrences_eq_zero_of_fillFrom h hlength hself (hpieces p hp)
      rw [occurrences_interleave h, hzero,
        occurrences_eq_zero_of_fillFrom h hlength hself hpiece] at hmore
      exact hmore rfl
    · -- Each token too many makes the text longer, or each makes it shorter.
      have htotal := length_fillFrom h (piece ++ interleave (mark v) pieces)
      rw [hsame] at htotal
      rw [occurrences_interleave h] at htotal hmore
      generalize occurrences (mark v) piece + (pieces.map (occurrences (mark v))).sum = extra
        at htotal hmore
      simp only [List.length_append, length_interleave, Nat.add_mul] at htotal
      have hextra : extra * (mark v).length = extra * v.2.toList.length := by omega
      exact hlength (Nat.eq_of_mul_eq_mul_left (by omega) hextra.symm)
  · rintro (hself | hcount)
    · rw [fillFrom_of_self h hself, hself]
    · rw [occurrences_interleave h] at hcount
      have hpiece : occurrences (mark v) piece = 0 := by omega
      have hsum : (pieces.map (occurrences (mark v))).sum = 0 := by omega
      have hpieces : pieces.map (fillFrom [v] 0) = pieces := by
        refine (List.map_congr_left fun p hp => ?_).trans (List.map_id pieces)
        exact fillFrom_of_occurrences_eq_zero h
          (List.sum_eq_zero_iff.mp hsum _ (List.mem_map_of_mem hp))
      rw [fillFrom_interleave h, fillFrom_of_occurrences_eq_zero h hpiece, hpieces]

end

/-! ## All variables -/

section

variable {vars us ws : Variables}

/-- **A stage after others**: it comes to filling in at once, with its variable, just where the
values before it leave its tokens as many as the template has. -/
theorem fillFrom_fillFrom_iff {v : String × String} (h : WellNamed (vars ++ [v]))
    (cs : List Char) :
    fillFrom [v] 0 (fillFrom vars 0 cs) = fillFrom (vars ++ [v]) 0 cs ↔
      v.2.toList = mark v
        ∨ occurrences (mark v) (fillFrom vars 0 cs) = occurrences (mark v) cs := by
  obtain ⟨piece, pieces, hlength, hwithout, hwith⟩ := exists_pieces h cs
  rw [hwithout, hwith v.2, ← hlength]
  exact fillFrom_interleave_iff h.right piece pieces

theorem WellNamed.take (h : WellNamed vars) (n : Nat) : WellNamed (vars.take n) :=
  ⟨h.distinct.sublist ((List.take_sublist n vars).map Prod.fst), fun v hv =>
    h.tokens v (List.mem_of_mem_take hv)⟩

theorem fillFrom_no_variables (cs : List Char) : fillFrom [] 0 cs = cs := by
  induction cs with
  | nil => rfl
  | cons c cs ih => rw [fillFrom_cons rfl, ih]

theorem render_take_succ (text : String) {i : Nat} (hi : i < vars.length) :
    render text (vars.take (i + 1)) = fill [vars[i]] (render text (vars.take i)) := by
  rw [← List.take_append_getElem hi, ← replace_eq_fill, render, List.foldl_append]
  rfl

/-- **Every stage comes to filling in at once** just where no value brings or breaks a token of a
later variable. -/
theorem stages_iff (h : WellNamed vars) (text : String) :
    (∀ n, render text (vars.take n) = fill (vars.take n) text) ↔ Unmixed vars text := by
  have hstage : ∀ i : Fin vars.length,
      fill [vars[i]] (fill (vars.take i) text) = fill (vars.take (i + 1)) text ↔
        vars[i].2 = token vars[i].1 ∨
          occurrences (mark vars[i]) (fill (vars.take i) text).toList
            = occurrences (mark vars[i]) text.toList := fun i => by
    have hsnoc : WellNamed (vars.take i ++ [vars[i]]) := by
      rw [Fin.getElem_fin, List.take_append_getElem i.isLt]
      exact h.take _
    have hself : vars[i].2 = token vars[i].1 ↔ vars[i].2.toList = mark vars[i] :=
      String.toList_inj.symm
    have hsplit : vars.take (i + 1) = vars.take i ++ [vars[i]] :=
      (List.take_append_getElem i.isLt).symm
    rw [hself, hsplit]
    simp only [fill, String.toList_ofList, String.ofList_inj]
    exact fillFrom_fillFrom_iff hsnoc text.toList
  constructor
  · intro hrender i
    rw [← hstage, ← hrender, ← hrender, render_take_succ text i.isLt]
    rfl
  · intro hunmixed n
    induction n with
    | zero => simp [fill, fillFrom_no_variables]
    | succ n ih =>
      by_cases hn : n < vars.length
      · rw [render_take_succ text hn, ih]
        exact (hstage ⟨n, hn⟩).mpr (hunmixed ⟨n, hn⟩)
      · rw [List.take_of_length_le (by omega)] at ih ⊢
        exact ih

/-- All stages together. -/
theorem render_eq_fill (h : WellNamed vars) {text : String} (hunmixed : Unmixed vars text) :
    render text vars = fill vars text := by
  simpa using (stages_iff h text).mpr hunmixed vars.length

/-! ### Braces for tokens only -/

/-- Braces are opened in `cs` for tokens only. -/
def Flat (vars : Variables) (cs : List Char) : Prop :=
  ∀ rest, opening :: rest <:+ cs → ∃ v ∈ vars, mark v <+: opening :: rest

theorem Flat.of_suffix {cs ds : List Char} (h : Flat vars cs) (hds : ds <:+ cs) : Flat vars ds :=
  fun rest hrest => h rest (hrest.trans hds)

theorem occurrences_fillFrom_of_flat (h : WellNamed vars) (hus : WellNamed us) {t : List Char}
    (ht : IsToken t) (hother : ∀ v ∈ us, mark v ≠ t) (hvalues : ∀ v ∈ us, opening ∉ v.2.toList)
    {cs : List Char} (hflat : Flat vars cs) :
    occurrences t (fillFrom us 0 cs) = occurrences t cs := by
  induction cs using text_induction vars with
  | nil => rfl
  | tokens w hw rest ih =>
    have ih := ih (hflat.of_suffix (List.suffix_append _ _))
    cases hfound : tokenAt? us (mark w ++ rest) with
    | none =>
      rw [fillFrom_of_none hus (h.tokens w hw) hfound, occurrences_token_append ht (h.tokens w hw),
        occurrences_token_append ht (h.tokens w hw), ih]
    | some u =>
      obtain ⟨hu, hstarts⟩ := tokenAt?_eq_some hfound
      have hsame := (hus.tokens u hu).unique (h.tokens w hw) hstarts (List.prefix_append _ _)
      rw [← hsame, fillFrom_mark hus hu, occurrences_append_of_not_mem ht (hvalues u hu),
        occurrences_token_append ht (hus.tokens u hu), if_neg (hother u hu), Nat.zero_add, ih]
  | char c rest hnone ih =>
    have ih := ih (hflat.of_suffix (List.suffix_cons _ _))
    have hc : c ≠ opening := by
      rintro rfl
      obtain ⟨v, hv, hstarts⟩ := hflat rest (List.suffix_refl _)
      exact tokenAt?_eq_none.mp hnone v hv hstarts
    rw [fillFrom_cons (tokenAt?_eq_none.mpr fun v hv => (hus.tokens v hv).not_starts hc _),
      occurrences_cons (ht.not_starts hc _), occurrences_cons (ht.not_starts hc _), ih]

/-- **Where braces stand for tokens only**, and values open none, no stage meets another token. -/
theorem unmixed_of_flat (h : WellNamed vars) {text : String} (hflat : Flat vars text.toList)
    (hvalues : ∀ v ∈ vars, opening ∉ v.2.toList) : Unmixed vars text := by
  intro i
  right
  have hsnoc : WellNamed (vars.take i ++ [vars[i]]) := by
    rw [Fin.getElem_fin, List.take_append_getElem i.isLt]
    exact h.take _
  rw [fill, String.toList_ofList]
  exact occurrences_fillFrom_of_flat h hsnoc.left (h.tokens _ (List.getElem_mem i.isLt))
    (fun v hv => hsnoc.mark_ne hv) (fun v hv => hvalues v (List.mem_of_mem_take hv)) hflat

/-! ### Values that belong to no token -/

/-- A value that is there and has no character in common with a token. -/
structure Inert (t : List Char) (value : String) : Prop where
  ne_nil : value.toList ≠ []
  not_mem : ∀ c ∈ value.toList, c ∉ t

theorem prefix_fillFrom_iff (h : WellNamed vars) {t : List Char}
    (hinert : ∀ v ∈ vars, Inert t v.2) (cs : List Char) :
    ∀ u ⊆ t, opening ∉ u → (u <+: fillFrom vars 0 cs ↔ u <+: cs) := by
  induction cs using text_induction vars with
  | nil => exact fun _ _ _ => Iff.rfl
  | tokens w hw rest ih =>
    intro u hu hopening
    rw [fillFrom_mark h hw, mark_eq]
    obtain ⟨c, value, hvalue⟩ := List.exists_cons_of_ne_nil (hinert w hw).ne_nil
    have hc : c ∉ t := (hinert w hw).not_mem c (hvalue ▸ List.mem_cons_self)
    rw [hvalue]
    cases u with
    | nil => simp
    | cons a u =>
      obtain ⟨ha, -⟩ := List.cons_subset.mp hu
      have hac : a ≠ c := fun hac => hc (hac ▸ ha)
      have hao : a ≠ opening := fun hao => hopening (hao ▸ List.mem_cons_self)
      simp [List.cons_prefix_cons, hac, hao]
  | char c rest hnone ih =>
    intro u hu hopening
    rw [fillFrom_cons hnone]
    cases u with
    | nil => simp
    | cons a u =>
      rw [List.cons_prefix_cons, List.cons_prefix_cons, ih u (List.cons_subset.mp hu).2
        (fun hmem => hopening (List.mem_cons_of_mem _ hmem))]

/-- **Values that belong to no token** make none and break none. -/
theorem occurrences_fillFrom (h : WellNamed vars) {t : List Char} (ht : IsToken t)
    (hinert : ∀ v ∈ vars, Inert t v.2) (cs : List Char) :
    occurrences t (fillFrom vars 0 cs) = if t ∈ vars.map mark then 0 else occurrences t cs := by
  have hopening : opening ∈ t := by
    obtain ⟨name, rfl, -⟩ := ht
    exact List.mem_cons_self
  induction cs using text_induction vars with
  | nil => simp [occurrences]
  | tokens w hw rest ih =>
    have hvalue : opening ∉ w.2.toList := fun hmem => (hinert w hw).not_mem _ hmem hopening
    rw [fillFrom_mark h hw, occurrences_append_of_not_mem ht hvalue, ih,
      occurrences_token_append ht (h.tokens w hw)]
    split
    · rfl
    · rename_i hother
      rw [if_neg fun hsame => hother (List.mem_map.mpr ⟨w, hw, hsame⟩), Nat.zero_add]
  | char c rest hnone ih =>
    -- After its brace a token has none, so what is filled in behind it must be the template itself.
    have hiff : t <+: c :: fillFrom vars 0 rest ↔ t <+: c :: rest := by
      obtain ⟨name, rfl, hfree, -⟩ := id ht
      rw [List.cons_prefix_cons, List.cons_prefix_cons,
        prefix_fillFrom_iff h hinert _ _ (List.subset_cons_self _ _)
          (by simpa [hfree] using by decide)]
    rw [fillFrom_cons hnone, occurrences, occurrences, ih]
    simp only [List.isPrefixOf_iff_prefix, hiff]
    by_cases hmem : t ∈ vars.map mark
    · obtain ⟨v, hv, rfl⟩ := List.mem_map.mp hmem
      rw [if_pos hmem, if_pos hmem, if_neg (tokenAt?_eq_none.mp hnone v hv)]
    · rw [if_neg hmem, if_neg hmem]

/-- Variables that a template has no token of might as well not be there. -/
theorem fillFrom_of_absent (h : WellNamed (us ++ ws)) {cs : List Char}
    (habsent : ∀ u ∈ us, occurrences (mark u) cs = 0) :
    fillFrom (us ++ ws) 0 cs = fillFrom ws 0 cs := by
  have hws := h.right
  induction cs using text_induction (us ++ ws) with
  | nil => rfl
  | tokens w hw rest ih =>
    rcases List.mem_append.mp hw with hus | hmem
    · have hzero := habsent w hus
      rw [occurrences_token_append (h.tokens w hw) (h.tokens w hw), if_pos rfl] at hzero
      omega
    · rw [fillFrom_mark h hw, fillFrom_mark hws hmem, ih fun u hu => ?_]
      have hzero := habsent u hu
      have hu' := h.tokens u (List.mem_append_left _ hu)
      rw [occurrences_token_append hu' (h.tokens w hw)] at hzero
      omega
  | char c rest hnone ih =>
    have hall := tokenAt?_eq_none.mp hnone
    rw [fillFrom_cons hnone, fillFrom_cons (tokenAt?_eq_none.mpr fun w hw =>
      hall w (List.mem_append_right _ hw)), ih fun u hu => ?_]
    rw [← habsent u hu, occurrences_cons (hall u (List.mem_append_left _ hu))]

/-- No stage meets another token where the values of the variables that a template can have belong
to no token of a later one. -/
theorem unmixed_of_inert (h : WellNamed (us ++ ws)) {text : String}
    (habsent : ∀ u ∈ us, occurrences (mark u) text.toList = 0)
    (hinert : ws.Pairwise fun w later => Inert (mark later) w.2) : Unmixed (us ++ ws) text := by
  rintro ⟨i, hi⟩
  right
  simp only [Fin.getElem_fin]
  have hsnoc : WellNamed ((us ++ ws).take i ++ [(us ++ ws)[i]]) := by
    rw [List.take_append_getElem hi]
    exact h.take _
  have hvalues : ∀ w ∈ ws.take (i - us.length), Inert (mark (us ++ ws)[i]) w.2 := by
    intro w hw
    rcases Nat.lt_or_ge i us.length with hleft | hright
    · rw [Nat.sub_eq_zero_of_le hleft.le] at hw
      exact absurd hw List.not_mem_nil
    · rw [List.length_append] at hi
      have hpairs := hinert.sublist (List.take_sublist (i - us.length + 1) ws)
      rw [← List.take_append_getElem (by omega), List.pairwise_append] at hpairs
      rw [List.getElem_append_right hright]
      exact hpairs.2.2 w hw _ List.mem_cons_self
  rw [List.take_append] at hsnoc
  have hother : mark (us ++ ws)[i] ∉ (ws.take (i - us.length)).map mark := fun hmem => by
    obtain ⟨w, hw, hsame⟩ := List.mem_map.mp hmem
    exact hsnoc.mark_ne (List.mem_append_right _ hw) hsame
  rw [fill, String.toList_ofList, List.take_append, fillFrom_of_absent hsnoc.left fun u hu =>
      habsent u (List.mem_of_mem_take hu),
    occurrences_fillFrom hsnoc.left.right (h.tokens _ (List.getElem_mem hi)) hvalues, if_neg hother]

/-- The value of a variable that a template has a token of is in what it is filled in to. -/
theorem value_infix_fillFrom (h : WellNamed vars) {v : String × String} (hv : v ∈ vars)
    {cs : List Char} (hcs : mark v <:+: cs) : v.2.toList <:+: fillFrom vars 0 cs := by
  rw [← occurrences_pos_iff (h.tokens v hv).ne_nil] at hcs
  induction cs using text_induction vars with
  | nil => simp [occurrences] at hcs
  | tokens w hw rest ih =>
    rw [fillFrom_mark h hw]
    rw [occurrences_token_append (h.tokens v hv) (h.tokens w hw)] at hcs
    by_cases hsame : mark w = mark v
    · rw [List.inj_on_of_nodup_map h.distinct hw hv (mark_inj hsame)]
      exact (List.prefix_append _ _).isInfix
    · rw [if_neg hsame, Nat.zero_add] at hcs
      exact (ih hcs).trans (List.suffix_append _ _).isInfix
  | char c rest hnone ih =>
    rw [occurrences_cons (tokenAt?_eq_none.mp hnone v hv)] at hcs
    rw [fillFrom_cons hnone]
    exact (ih hcs).trans (List.suffix_cons _ _).isInfix

end

/-! ## The variables of a conversation -/

section

variable (id : Int) (client : Option Client) (channelName : Option String)

/-- The names that a client fills in. -/
def clientNames : List String :=
  ["client_name", "client_first_name", "client_phone", "client_email"]

theorem wellNamed_bindings : WellNamed (bindings (.int id) client channelName) where
  distinct := by
    rw [bindings_names]
    decide
  tokens v hv := by
    have hnames : ∀ name ∈ (bindings (.int id) client channelName).map Prod.fst,
        opening ∉ name.toList ∧ closing ∉ name.toList := by
      rw [bindings_names]
      decide
    obtain ⟨hopening, hclosing⟩ := hnames v.1 (List.mem_map_of_mem hv)
    exact isToken_mark hopening hclosing

/-- The number of a conversation belongs to no token without digits. -/
theorem inert_integerText {t : List Char} (ht : t.all fun c => c != '-' && !c.isDigit) (n : Int) :
    Inert t (integerText n) where
  ne_nil := by simp [integerText]
  not_mem c hc hmem := by
    obtain ⟨hsign, hdigit⟩ : c ≠ '-' ∧ c.isDigit = false := by
      simpa using List.all_eq_true.mp ht c hmem
    rw [integerText, String.toList_append, List.mem_append] at hc
    rcases hc with hc | hc
    · split at hc
      · exact hsign (by simpa using hc)
      · simp at hc
    · rw [Decimal.isDigit_of_mem_digitText hc] at hdigit
      exact Bool.noConfusion hdigit

/-- **A template without the names that a client fills in** is never disturbed: what comes before
the channel's name are numbers, and nothing comes after it. -/
theorem unmixed_of_clientNames {text : String}
    (habsent : ∀ name ∈ clientNames, ¬(token name).toList <:+: text.toList) :
    Unmixed (bindings (.int id) client channelName) text := by
  have h := wellNamed_bindings id client channelName
  rw [← List.take_append_drop 4 (bindings (.int id) client channelName)] at h ⊢
  refine unmixed_of_inert h (fun v hv => ?_) ?_
  · have hname : v.1 ∈ clientNames := List.mem_map_of_mem (f := Prod.fst) hv
    have hnone := habsent v.1 hname
    rwa [← occurrences_pos_iff (by simp [token]), Nat.not_lt, Nat.le_zero] at hnone
  · have hchat : Inert (token "chat_id").toList (Value.int id).text :=
      inert_integerText (by decide +kernel) id
    have hchannel : Inert (token "channel_name").toList (Value.int id).text :=
      inert_integerText (by decide +kernel) id
    simp [bindings, mark, hchat, hchannel]

/-- The channel's name is filled in last, whatever it is. -/
theorem render_bindings (text : String) :
    ∃ before, ∀ channelName, render text (bindings (.int id) client channelName)
      = fill [("channel_name", channelName.getD "")] before :=
  ⟨render text ((bindings (.int id) client none).take 6), fun channelName => by
    rw [← replace_eq_fill]
    rfl⟩

theorem wellNamed_channelName (value : String) : WellNamed [("channel_name", value)] :=
  @WellNamed.right ((bindings (.int 0) none (some value)).take 6) _
    (wellNamed_bindings 0 none (some value))

/-- **The channel's name is never looked into**: it stands between pieces that are the same for
every channel. -/
theorem exists_pieces_of_channel (text : String) :
    ∃ piece pieces, ∀ channelName, render text (bindings (.int id) client channelName)
      = String.ofList (piece ++ interleave (channelName.getD "").toList pieces) := by
  obtain ⟨before, hbefore⟩ := render_bindings id client text
  have halone : WellNamed ([] ++ [("channel_name", "")]) := wellNamed_channelName ""
  obtain ⟨piece, pieces, -, -, hpieces⟩ := exists_pieces halone before.toList
  refine ⟨piece, pieces, fun channelName => ?_⟩
  rw [hbefore, fill, ← hpieces]
  rfl

/-- A client whose name, telephone number and address are all the token of the channel's name. -/
def impostor : Client :=
  ⟨0, none, some (token "channel_name"), some (token "channel_name"), some (token "channel_name"),
    .null⟩

/-- Of the channel's name there are no tokens left, but filled in at once there would be. -/
theorem render_impostor_ne_fill {text name : String} (hname : name ∈ clientNames)
    (htext : (token name).toList <:+: text.toList) :
    render text (bindings (.int 0) (some impostor) (some "?"))
      ≠ fill (bindings (.int 0) (some impostor) (some "?")) text := by
  have hvalue : ∀ name ∈ clientNames,
      (name, token "channel_name") ∈ bindings (.int 0) (some impostor) (some "?") := by
    decide +kernel
  have hfilled := value_infix_fillFrom (wellNamed_bindings 0 (some impostor) (some "?"))
    (hvalue name hname) htext
  have htoken : IsToken (token "channel_name").toList :=
    (wellNamed_channelName "?").tokens ("channel_name", "?") List.mem_cons_self
  have hinert : ∀ v ∈ [("channel_name", "?")], Inert (token "channel_name").toList v.2 := by
    intro v hv
    obtain rfl := List.mem_singleton.mp hv
    have hvalue : "?".toList = ['?'] := rfl
    refine ⟨by decide, fun c hc => ?_⟩
    rw [hvalue, List.mem_singleton] at hc
    subst hc
    decide +kernel
  obtain ⟨before, hbefore⟩ := render_bindings 0 (some impostor) text
  have hnone := occurrences_fillFrom (wellNamed_channelName "?") htoken hinert before.toList
  rw [if_pos (by simp [mark])] at hnone
  intro hsame
  rw [hbefore, fill, fill, String.ofList_inj] at hsame
  rw [← hsame, ← occurrences_pos_iff htoken.ne_nil] at hfilled
  exact hfilled.ne' hnone

end

/-! ## The result -/

/-- **Filling in one after another**, against filling in at once. -/
structure FilledExactly (text : String) : Prop where
  /-- Every stage comes to it just where no value brings or breaks a token of a later variable. -/
  stages : ∀ id client channelName,
    (∀ n, render text ((bindings (.int id) client channelName).take n)
        = fill ((bindings (.int id) client channelName).take n) text) ↔
      Unmixed (bindings (.int id) client channelName) text
  /-- And then the whole does. -/
  whole : ∀ id client channelName, Unmixed (bindings (.int id) client channelName) text →
    render text (bindings (.int id) client channelName)
      = fill (bindings (.int id) client channelName) text
  /-- So it is where braces stand for tokens only, and values open none. -/
  plain : ∀ id client channelName, Flat (bindings (.int id) client channelName) text.toList →
    (∀ v ∈ bindings (.int id) client channelName, opening ∉ v.2.toList) →
      Unmixed (bindings (.int id) client channelName) text
  /-- Whatever the client and the channel are, it is so just for the templates without a name that
  a client fills in. -/
  always : (∀ id client channelName, render text (bindings (.int id) client channelName)
        = fill (bindings (.int id) client channelName) text) ↔
      ∀ name ∈ clientNames, ¬(token name).toList <:+: text.toList
  /-- The name of the channel is never looked into. -/
  channel : ∀ id client, ∃ piece pieces, ∀ channelName,
    render text (bindings (.int id) client channelName)
      = String.ofList (piece ++ interleave (channelName.getD "").toList pieces)

theorem filled_exactly (text : String) : FilledExactly text where
  stages id client channelName := stages_iff (wellNamed_bindings id client channelName) text
  whole id client channelName := render_eq_fill (wellNamed_bindings id client channelName)
  plain id client channelName := unmixed_of_flat (wellNamed_bindings id client channelName)
  always := by
    constructor
    · intro hall name hname htext
      exact render_impostor_ne_fill hname htext (hall 0 (some impostor) (some "?"))
    · intro habsent id client channelName
      exact render_eq_fill (wellNamed_bindings id client channelName)
        (unmixed_of_clientNames id client channelName habsent)
  channel id client := exists_pieces_of_channel id client text

/-- Braces in a name do no harm where they are not those of a token. -/
example :
    Unmixed (bindings (.int 42) (some ⟨7, none, some "Ann \x7bA.\x7d", none, none, .null⟩) none)
      "Hi \x7bclient_name\x7d, this is \x7bchat_id\x7d." := by
  decide +kernel

/-- **A name that is taken for a template**: a greeting gives the client's telephone number for the
client's name, filled in at once it would give the name. -/
theorem name_taken_for_template :
    let client : Client := ⟨7, none, some (token "client_phone"), some "555", none, .null⟩
    let vars := bindings (.int 42) (some client) (some "Support")
    render "Hi \x7bclient_name\x7d!" vars = "Hi 555!"
      ∧ fill vars "Hi \x7bclient_name\x7d!" = "Hi \x7bclient_phone\x7d!" := by
  decide +kernel

end Template

end Deskflow
