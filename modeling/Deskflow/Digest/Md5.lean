/-!
# The MD5 digest

The digest of a list of bytes, and its hexadecimal text. The message is padded to whole blocks of
sixteen words, and each block is mixed into a state of four words in sixty-four rounds.

* `pad_length_mod`: a padded message is made of whole blocks.
* `hex_length`, `mem_hexDigits_of_mem_hex`: a digest's text is made of thirty-two hexadecimal
  digits.
-/

namespace Deskflow.Md5

/-- The four words that the rounds mix. -/
structure State where
  a : UInt32
  b : UInt32
  c : UInt32
  d : UInt32

/-- The state before the first block. -/
def State.start : State := ⟨0x67452301, 0xefcdab89, 0x98badcfe, 0x10325476⟩

/-- The word added in each round. -/
def constants : Array UInt32 := #[
  0xd76aa478, 0xe8c7b756, 0x242070db, 0xc1bdceee, 0xf57c0faf, 0x4787c62a, 0xa8304613, 0xfd469501,
  0x698098d8, 0x8b44f7af, 0xffff5bb1, 0x895cd7be, 0x6b901122, 0xfd987193, 0xa679438e, 0x49b40821,
  0xf61e2562, 0xc040b340, 0x265e5a51, 0xe9b6c7aa, 0xd62f105d, 0x02441453, 0xd8a1e681, 0xe7d3fbc8,
  0x21e1cde6, 0xc33707d6, 0xf4d50d87, 0x455a14ed, 0xa9e3e905, 0xfcefa3f8, 0x676f02d9, 0x8d2a4c8a,
  0xfffa3942, 0x8771f681, 0x6d9d6122, 0xfde5380c, 0xa4beea44, 0x4bdecfa9, 0xf6bb4b60, 0xbebfbc70,
  0x289b7ec6, 0xeaa127fa, 0xd4ef3085, 0x04881d05, 0xd9d4d039, 0xe6db99e5, 0x1fa27cf8, 0xc4ac5665,
  0xf4292244, 0x432aff97, 0xab9423a7, 0xfc93a039, 0x655b59c3, 0x8f0ccc92, 0xffeff47d, 0x85845dd1,
  0x6fa87e4f, 0xfe2ce6e0, 0xa3014314, 0x4e0811a1, 0xf7537e82, 0xbd3af235, 0x2ad7d2bb, 0xeb86d391]

/-- The rotations of each group of sixteen rounds, which repeat every four rounds. -/
def rotations : Array UInt32 := #[7, 12, 17, 22, 5, 9, 14, 20, 4, 11, 16, 23, 6, 10, 15, 21]

/-- A word rotated to the left. -/
def rotateLeft (x n : UInt32) : UInt32 := (x <<< n) ||| (x >>> (32 - n))

/-- The word that round `i` mixes from the state, and the index of the block's word it adds. -/
def mix (s : State) (i : Nat) : UInt32 × Nat :=
  if i < 16 then ((s.b &&& s.c) ||| (~~~s.b &&& s.d), i)
  else if i < 32 then ((s.d &&& s.b) ||| (~~~s.d &&& s.c), (5 * i + 1) % 16)
  else if i < 48 then (s.b ^^^ s.c ^^^ s.d, (3 * i + 5) % 16)
  else (s.c ^^^ (s.b ||| ~~~s.d), (7 * i) % 16)

/-- One round. -/
def round (block : Array UInt32) (s : State) (i : Nat) : State :=
  let (f, index) := mix s i
  let sum := s.a + f + constants.getD i 0 + block.getD index 0
  ⟨s.d, s.b + rotateLeft sum (rotations.getD (i / 16 * 4 + i % 4) 0), s.b, s.c⟩

/-- The state after a block. -/
def absorb (s : State) (block : List UInt32) : State :=
  let t := (List.range 64).foldl (round block.toArray) s
  ⟨s.a + t.a, s.b + t.b, s.c + t.c, s.d + t.d⟩

/-- The bytes of `n`, least first. -/
def littleEndian : Nat → Nat → List UInt8
  | 0, _ => []
  | count + 1, n => UInt8.ofNat n :: littleEndian count (n / 256)

/-- The message followed by a one bit, zeros up to whole blocks, and its length in bits. -/
def pad (message : List UInt8) : List UInt8 :=
  let zeros := (119 - message.length % 64) % 64
  message ++ 0x80 :: List.replicate zeros 0 ++ littleEndian 8 (8 * message.length)

/-- The words of a list of bytes, least byte first. -/
def wordsOf : List UInt8 → List UInt32
  | a :: b :: c :: d :: rest =>
    (a.toUInt32 ||| b.toUInt32 <<< 8 ||| c.toUInt32 <<< 16 ||| d.toUInt32 <<< 24) :: wordsOf rest
  | _ => []

/-- The state after the words, where `block` holds those of an unfinished block, last first. -/
def absorbAll (s : State) : List UInt32 → List UInt32 → State
  | [], _ => s
  | w :: ws, block =>
    if block.length = 15 then absorbAll (absorb s (w :: block).reverse) ws []
    else absorbAll s ws (w :: block)

/-- The sixteen bytes of the digest. -/
def digest (message : List UInt8) : List UInt8 :=
  let s := absorbAll .start (wordsOf (pad message)) []
  [s.a, s.b, s.c, s.d].flatMap fun w => littleEndian 4 w.toNat

/-- The two hexadecimal digits of a byte. -/
def byteText (b : UInt8) : List Char :=
  let digit (n : Nat) : Char := if n < 10 then Char.ofNat (48 + n) else Char.ofNat (87 + n)
  [digit (b.toNat / 16), digit (b.toNat % 16)]

/-- The digest of a text's UTF-8 bytes, as thirty-two hexadecimal digits. -/
def hex (text : String) : String :=
  String.ofList ((digest text.toUTF8.toList).flatMap byteText)

/-! ## Lemmas -/

theorem littleEndian_length (count n : Nat) : (littleEndian count n).length = count := by
  induction count generalizing n with
  | zero => rfl
  | succ count ih => simp [littleEndian, ih]

theorem pad_length_mod (message : List UInt8) : (pad message).length % 64 = 0 := by
  simp only [pad, List.length_append, List.length_cons, List.length_replicate,
    littleEndian_length]
  omega

theorem digest_length (message : List UInt8) : (digest message).length = 16 := by
  simp [digest, littleEndian_length]

/-- The hexadecimal digits. -/
def hexDigits : List Char := "0123456789abcdef".toList

theorem byteText_length (b : UInt8) : (byteText b).length = 2 := rfl

theorem mem_hexDigits_of_mem_byteText {b : UInt8} {c : Char} (h : c ∈ byteText b) :
    c ∈ hexDigits := by
  have hdigit : ∀ n < 16, (if n < 10 then Char.ofNat (48 + n) else Char.ofNat (87 + n))
      ∈ hexDigits := by decide
  have hb : b.toNat < 256 := b.toNat_lt
  simp only [byteText, List.mem_cons, List.not_mem_nil, or_false] at h
  rcases h with rfl | rfl
  · exact hdigit _ (by omega)
  · exact hdigit _ (by omega)

theorem hex_length (text : String) : (hex text).toList.length = 32 := by
  simp [hex, List.length_flatMap, byteText_length, List.map_const', digest_length]

theorem mem_hexDigits_of_mem_hex {text : String} {c : Char} (h : c ∈ (hex text).toList) :
    c ∈ hexDigits := by
  rw [hex, String.toList_ofList, List.mem_flatMap] at h
  obtain ⟨b, -, hc⟩ := h
  exact mem_hexDigits_of_mem_byteText hc

end Deskflow.Md5
