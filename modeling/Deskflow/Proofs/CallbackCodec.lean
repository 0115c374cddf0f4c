import Mathlib.Algebra.Group.Nat.Defs
import Deskflow.Proofs.CallbackRoundTrip

/-!
# What callback data stands for

Callback data is made from the key of a step and the index of a button, and read back as a
reference. Two keys with their indices share data only where both are too long for the plain form:
plain data gives back what it was made from, and hashed data the index and a digest. The only thing
asked of a key is that there is one, and of an index that it has forty-six digits at most, which is
what room the digest leaves.

The two directions are `build_callback_data` and `parse_callback_data`.

* `utf8ByteSize_hashed`: all of the hashed form is ASCII.
* `encode_eq_form`: nothing is cut off at the end.
* `read?_encode`: what is read back.
* `encode_eq_hashed_iff`: when it is the index and a digest.
* `hashedText_injective`: what is hashed tells the key and the index.
* `codec`: the result.
-/

namespace Deskflow

namespace Callback

/-- A key and an index get the plain form. -/
def IsShort (key : String) (index : Nat) : Prop :=
  (plain key index).utf8ByteSize ≤ plainLimit

instance (key : String) (index : Nat) : Decidable (IsShort key index) :=
  inferInstanceAs (Decidable (_ ≤ _))

/-- The form that a key and an index get. -/
def form (key : String) (index : Nat) : String :=
  if IsShort key index then plain key index else hashed key index

/-- What is read back from it. -/
def refOf (key : String) (index : Nat) : Ref :=
  if IsShort key index then .plain key index else .hashed (digest key index) index

theorem index_refOf (key : String) (index : Nat) : (refOf key index).index = index := by
  unfold refOf
  split <;> rfl

/-! ## The room that there is -/

theorem utf8ByteSize_of_ascii {cs : List Char} (h : ∀ c ∈ cs, c.utf8Size = 1) :
    (String.ofList cs).utf8ByteSize = cs.length := by
  induction cs with
  | nil => simp
  | cons c cs ih =>
    have hc := h c List.mem_cons_self
    have hcs := ih fun x hx => h x (List.mem_cons_of_mem c hx)
    rw [← List.singleton_append, String.ofList_append, String.utf8ByteSize_append,
      ← String.singleton_eq_ofList, String.utf8ByteSize_singleton, List.length_append,
      List.length_singleton, hc, hcs]

theorem utf8Size_of_isDigit {c : Char} (h : c.isDigit = true) : c.utf8Size = 1 := by
  have hc : 48 ≤ c.toNat ∧ c.toNat ≤ 57 := by simpa [Char.isDigit, UInt32.le_iff_toNat_le] using h
  refine Char.utf8Size_eq_one_iff.mpr (UInt32.le_iff_toNat_le.mpr ?_)
  exact Nat.le_trans hc.2 (by decide)

theorem utf8Size_of_mem_hexDigits {c : Char} (h : c ∈ Md5.hexDigits) : c.utf8Size = 1 := by
  have hall : (Md5.hexDigits.all fun c => c.utf8Size = 1) = true := by decide
  simpa using List.all_eq_true.mp hall c h

/-- All of the hashed form is ASCII. -/
theorem utf8ByteSize_hashed (key : String) (index : Nat) :
    (hashed key index).utf8ByteSize = 18 + (Decimal.digitText index).toList.length := by
  have hascii : ∀ c ∈ (hashed key index).toList, c.utf8Size = 1 := by
    rw [hashed_toList]
    intro c hc
    rcases List.mem_cons.mp hc with rfl | hc
    · rfl
    rcases List.mem_append.mp hc with hc | hc
    · rw [digest, String.toList_ofList] at hc
      exact utf8Size_of_mem_hexDigits (Md5.mem_hexDigits_of_mem_hex (List.mem_of_mem_take hc))
    rcases List.mem_cons.mp hc with rfl | hc
    · rfl
    · exact utf8Size_of_isDigit (Decimal.isDigit_of_mem_digitText hc)
  have hsize := utf8ByteSize_of_ascii hascii
  rw [String.ofList_toList] at hsize
  rw [hsize, hashed_toList, List.length_cons, List.length_append, List.length_cons,
    digest_toList_length]
  omega

theorem digits_le_of_lt {index : Nat} (h : index < 10 ^ 46) :
    (Decimal.digitText index).toList.length ≤ 46 :=
  (Decimal.digitText_length_le (by omega)).mpr h

section

variable {key : String} {index : Nat}

/-- **Nothing is cut off.** -/
theorem encode_eq_form (h : index < 10 ^ 46) : encode key index = form key index := by
  unfold form
  split
  · exact encode_eq_plain ‹_›
  · exact encode_eq_hashed (Nat.lt_of_not_le ‹_›) (digits_le_of_lt h)

theorem utf8ByteSize_form_le (h : index < 10 ^ 46) : (form key index).utf8ByteSize ≤ limit := by
  unfold form
  split
  · exact Nat.le_trans ‹_› (by decide)
  · have := digits_le_of_lt h
    rw [utf8ByteSize_hashed, limit]
    omega

/-- **What is read back.** -/
theorem read?_encode (hkey : key ≠ "") (h : index < 10 ^ 46) :
    read? (encode key index) = .ok (some (refOf key index)) := by
  unfold refOf
  split
  · exact read?_encode_short hkey ‹_›
  · exact read?_encode_long (Nat.lt_of_not_le ‹_›) (digits_le_of_lt h)

/-- Callback data is of the hashed form, and all there, where the plain form is too long and there
is room for the index. -/
theorem encode_eq_hashed_iff (hkey : key ≠ "") :
    encode key index = hashed key index ↔ ¬IsShort key index ∧ index < 10 ^ 46 := by
  constructor
  · intro h
    have hlength : (encode key index).toList.length ≤ limit := by
      rw [encode, String.toList_ofList]
      exact List.length_take_le _ _
    have hindex : (Decimal.digitText index).toList.length ≤ 46 := by
      rw [h, hashed_toList, List.length_cons, List.length_append, List.length_cons,
        digest_toList_length, limit] at hlength
      omega
    refine ⟨fun hshort => ?_, (Decimal.digitText_length_le (by omega)).mp hindex⟩
    have hplain := read?_encode_short hkey hshort
    rw [h, read?_hashed (Nat.le_trans hindex (by decide))] at hplain
    cases hplain
  · rintro ⟨hlong, hindex⟩
    exact encode_eq_hashed (Nat.lt_of_not_le hlong) (digits_le_of_lt hindex)

end

/-! ## What is hashed -/

/-- The text that is hashed for a key and an index. -/
def hashedText (key : String) (index : Nat) : String := key ++ "_" ++ integerText index

/-- The digest of a text, as far as callback data has room for it. -/
def shortDigest (text : String) : String := String.ofList ((Md5.hex text).toList.take 16)

theorem digest_eq_shortDigest (key : String) (index : Nat) :
    digest key index = shortDigest (hashedText key index) := rfl

/-- **What is hashed tells the key and the index**: the index is what comes after the last
underscore. -/
theorem hashedText_injective {key key' : String} {index index' : Nat}
    (h : hashedText key index = hashedText key' index') : key = key' ∧ index = index' := by
  have hlist (key : String) (index : Nat) : (hashedText key index).toList
      = key.toList ++ '_' :: (Decimal.digitText index).toList := by
    simp [hashedText, String.toList_append]
  have hcut (key : String) (index : Nat) : Text.cutLast? '_' (hashedText key index).toList
      = some (key.toList, (Decimal.digitText index).toList) := by
    rw [hlist]
    exact Text.cutLast?_append (not_mem_digitText (by decide) index) key.toList
  have hparts := (hcut key index).symm.trans (h ▸ hcut key' index')
  obtain ⟨hkey, hindex⟩ := Prod.mk.inj (Option.some.inj hparts)
  exact ⟨String.toList_injective hkey, Decimal.digitText_injective (String.toList_injective hindex)⟩

/-! ## The result -/

/-- Callback data does for a key and an index what it is there for. -/
structure Carries (key : String) (index : Nat) (data : String) : Prop where
  /-- It can be sent, -/
  fits : data.utf8ByteSize ≤ 64
  /-- is all of the form that the key and the index get, -/
  whole : data = form key index
  /-- and is read back as what that form says. -/
  readBack : read? data = .ok (some (refOf key index))
  /-- Another key or index has the same data only in the hashed form, and no other index has. -/
  apart : ∀ {key' : String} {index' : Nat}, key' ≠ "" → index' < 10 ^ 46 →
    encode key' index' = data → index' = index ∧ (IsShort key' index' ↔ IsShort key index)
      ∧ (IsShort key index → key' = key)

/-- **Callback data carries a key and an index**: in the plain form it gives back both, in the
hashed form the index and the digest of both, and neither form is taken for the other. -/
theorem codec {key : String} {index : Nat} (hkey : key ≠ "") (hindex : index < 10 ^ 46) :
    Carries key index (encode key index) where
  fits := encode_eq_form hindex ▸ utf8ByteSize_form_le hindex
  whole := encode_eq_form hindex
  readBack := read?_encode hkey hindex
  apart {key' index'} hkey' hindex' hsame := by
    have href : refOf key' index' = refOf key index := by
      have hread := read?_encode hkey' hindex'
      rw [hsame, read?_encode hkey hindex] at hread
      exact (Option.some.inj (Except.ok.inj hread)).symm
    have hsameIndex : index' = index := by
      rw [← index_refOf key' index', href, index_refOf]
    refine ⟨hsameIndex, ?_⟩
    unfold refOf at href
    by_cases hshort : IsShort key index <;> by_cases hshort' : IsShort key' index' <;>
      simp only [hshort, hshort', if_true, if_false, reduceCtorEq] at href
    · exact ⟨iff_of_true hshort' hshort, fun _ => (Ref.plain.inj href).1⟩
    · exact ⟨iff_of_false hshort' hshort, fun h => absurd h hshort⟩

/-- A key with every separator in it comes back from the plain form. One of thirty letters of two
bytes each gets the hashed form, though its data would have thirty-two characters only. -/
theorem codec_separators :
    read? (encode "b:_é:1" 7) = .ok (some (.plain "b:_é:1" 7))
      ∧ ∃ digest, read? (encode "жжжжжжжжжжжжжжжжжжжжжжжжжжжжжж" 0)
        = .ok (some (.hashed digest 0)) := by
  have hplain := (@codec "b:_é:1" 7 (by decide) (by decide)).readBack
  have hhashed := (@codec "жжжжжжжжжжжжжжжжжжжжжжжжжжжжжж" 0 (by decide) (by decide)).readBack
  rw [refOf, if_pos (by decide +kernel)] at hplain
  rw [refOf, if_neg (by decide +kernel)] at hhashed
  exact ⟨hplain, _, hhashed⟩

end Callback

end Deskflow
