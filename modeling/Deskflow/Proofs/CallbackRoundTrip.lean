import Deskflow.Callback
import Deskflow.Step.Parse

/-!
# Reading callback data back

What a key of a keyboard carries is read back as what it was made from: `read?_encode_short` in the
plain form, where the key itself comes back, and `read?_encode_long` in the hashed form, where its
digest does. Neither form can be taken for the other, as the plain form alone has a colon.

The key of a member of a group is in turn split into the group and the place it was made from,
unless the group's id is empty or holds a line feed: `memberOf?_memberKey`.
-/

namespace Deskflow

namespace Callback

theorem plain_toList (key : String) (index : Nat) :
    (plain key index).toList = key.toList ++ ':' :: (Decimal.digitText index).toList := by
  simp [plain, String.toList_append]

theorem hashed_toList (key : String) (index : Nat) :
    (hashed key index).toList
      = 'b' :: ((digest key index).toList ++ '_' :: (Decimal.digitText index).toList) := by
  simp [hashed, String.toList_append]

/-! ## Numerals -/

theorem not_mem_digitText {c : Char} (h : c.isDigit = false) (n : Nat) :
    c ∉ (Decimal.digitText n).toList := by
  intro hc
  have := Decimal.isDigit_of_mem_digitText hc
  simp [h] at this

theorem readIndex?_digitText {n : Nat}
    (h : (Decimal.digitText n).toList.length ≤ Numeral.maxDigits) :
    readIndex? (Decimal.digitText n).toList = .ok (some n) := by
  have hall : (Decimal.digitText n).toList.all Text.isDigitLike = true := by
    refine List.all_eq_true.mpr fun c hc => ?_
    exact Text.isDigitLike_of_digitValue?
      (Text.digitValue?_of_isDigit (Decimal.isDigit_of_mem_digitText hc))
  unfold readIndex?
  rw [hall, String.ofList_toList, Numeral.read_digitText h]
  simp [bind, Except.bind, pure, Except.pure]

/-! ## Digests -/

theorem digest_toList_length (key : String) (index : Int) :
    (digest key index).toList.length = 16 := by
  rw [digest, String.toList_ofList, List.length_take, Md5.hex_length]
  rfl

theorem not_mem_digest {c : Char} (h : c ∉ Md5.hexDigits) (key : String) (index : Int) :
    c ∉ (digest key index).toList := by
  intro hc
  rw [digest, String.toList_ofList] at hc
  exact h (Md5.mem_hexDigits_of_mem_hex (List.mem_of_mem_take hc))

/-! ## The two forms -/

theorem read?_plain {key : String} {index : Nat} (hkey : key ≠ "")
    (hindex : (Decimal.digitText index).toList.length ≤ Numeral.maxDigits) :
    read? (plain key index) = .ok (some (.plain key index)) := by
  have hcut := Text.cutLast?_append (not_mem_digitText (c := ':') (by decide) index) key.toList
  have hne : key.toList ≠ [] := by simpa using hkey
  unfold read?
  rw [plain_toList, hcut]
  simp [hne, readIndex?_digitText hindex, bind, Except.bind, pure, Except.pure]

theorem read?_hashed {key : String} {index : Nat}
    (hindex : (Decimal.digitText index).toList.length ≤ Numeral.maxDigits) :
    read? (hashed key index) = .ok (some (.hashed (digest key index) index)) := by
  have hcolon : ':' ∉ (hashed key index).toList := by
    rw [hashed_toList]
    simp only [List.mem_cons, List.mem_append, not_or]
    exact ⟨by decide, not_mem_digest (by decide) key index, by decide,
      not_mem_digitText (by decide) index⟩
  have hcut := Text.cutFirst?_append (not_mem_digest (c := '_') (by decide) key index)
    (Decimal.digitText index).toList
  have hne : (digest key index).toList ≠ [] := by
    intro h
    have := digest_toList_length key index
    simp [h] at this
  unfold read?
  rw [Text.cutLast?_of_not_mem hcolon, hashed_toList]
  simp only [hcut]
  simp [hne, readIndex?_digitText hindex, bind, Except.bind, pure, Except.pure]

/-! ## What a key of a keyboard carries -/

theorem length_le_utf8ByteSize (cs : List Char) : cs.length ≤ (String.ofList cs).utf8ByteSize := by
  induction cs with
  | nil => simp
  | cons c cs ih =>
    have hc := Char.utf8Size_pos c
    rw [← List.singleton_append, String.ofList_append, String.utf8ByteSize_append,
      ← String.singleton_eq_ofList, String.utf8ByteSize_singleton, List.length_append,
      List.length_singleton]
    omega

/-- A text of at most as many characters as are sent is not cut. -/
theorem take_limit {s : String} (h : s.toList.length ≤ limit) :
    String.ofList (s.toList.take limit) = s := by
  rw [List.take_of_length_le h, String.ofList_toList]

theorem plain_length_le {key : String} {index : Nat}
    (h : (plain key index).utf8ByteSize ≤ plainLimit) :
    (plain key index).toList.length ≤ plainLimit := by
  have := length_le_utf8ByteSize (plain key index).toList
  rw [String.ofList_toList] at this
  omega

theorem encode_eq_plain {key : String} {index : Nat}
    (h : (plain key index).utf8ByteSize ≤ plainLimit) : encode key index = plain key index := by
  rw [encode_plain h]
  exact take_limit (Nat.le_trans (plain_length_le h) (by decide))

/-- The hashed form of an index of at most forty-six digits is not cut. -/
theorem encode_eq_hashed {key : String} {index : Nat}
    (h : plainLimit < (plain key index).utf8ByteSize)
    (hindex : (Decimal.digitText index).toList.length ≤ 46) :
    encode key index = hashed key index := by
  rw [encode_hashed h]
  refine take_limit ?_
  rw [hashed_toList, List.length_cons, List.length_append, List.length_cons, digest_toList_length,
    limit]
  omega

theorem read?_encode_short {key : String} {index : Nat} (hkey : key ≠ "")
    (h : (plain key index).utf8ByteSize ≤ plainLimit) :
    read? (encode key index) = .ok (some (.plain key index)) := by
  rw [encode_eq_plain h]
  refine read?_plain hkey ?_
  have hlen := plain_length_le h
  rw [plain_toList, List.length_append, List.length_cons, plainLimit] at hlen
  rw [Numeral.maxDigits]
  omega

theorem read?_encode_long {key : String} {index : Nat}
    (h : plainLimit < (plain key index).utf8ByteSize)
    (hindex : (Decimal.digitText index).toList.length ≤ 46) :
    read? (encode key index) = .ok (some (.hashed (digest key index) index)) := by
  rw [encode_eq_hashed h hindex]
  exact read?_hashed (Nat.le_trans hindex (by decide))

/-! ## Members of groups -/

theorem memberKey_toList (group : String) (index : Nat) :
    (memberKey group index).toList
      = group.toList ++ '-' :: 's' :: (Decimal.digitText index).toList := by
  simp [memberKey, String.toList_append]

theorem memberKey_ne_empty (group : String) (index : Nat) : memberKey group index ≠ "" := by
  intro h
  have := congrArg String.toList h
  simp [memberKey_toList] at this

/-- The digits at the end of a member's key are those of its place. -/
theorem memberOf?_memberKey (group : String) (index : Nat) :
    memberOf? (memberKey group index) =
      if group.toList.isEmpty || group.toList.contains '\n' then none
      else some (group, Decimal.digitText index) := by
  have hdigits : ∀ c ∈ (Decimal.digitText index).toList.reverse, Text.isDecimalDigit c = true :=
    fun c hc => Text.isDecimalDigit_of_isDigit
      (Decimal.isDigit_of_mem_digitText (List.mem_reverse.mp hc))
  have hs : Text.isDecimalDigit 's' = false := by decide
  have hrev : (memberKey group index).toList.reverse
      = (Decimal.digitText index).toList.reverse ++ 's' :: '-' :: group.toList.reverse := by
    simp [memberKey_toList]
  have hback : dropLineFeed (memberKey group index).toList.reverse
      = (memberKey group index).toList.reverse := by
    obtain ⟨c, cs, hcs⟩ := List.exists_cons_of_ne_nil
      (show (Decimal.digitText index).toList.reverse ≠ [] by simp)
    have hc : c.isDigit = true := Decimal.isDigit_of_mem_digitText (n := index) (by
      rw [← List.mem_reverse, hcs]
      exact List.mem_cons_self)
    rw [hrev, hcs]
    exact dropLineFeed_of_ne (by rintro rfl; simp at hc) _
  unfold memberOf?
  simp only [hback]
  rw [hrev, List.takeWhile_append_of_pos hdigits, List.dropWhile_append_of_pos hdigits,
    List.takeWhile_cons_of_neg (by simp [hs]), List.dropWhile_cons_of_neg (by simp [hs])]
  simp

end Callback

end Deskflow
