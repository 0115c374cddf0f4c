/-!
# Characters from bytes

The text that a sequence of bytes stands for in UTF-8. Bytes that are not part of a well-formed
character are shown by one replacement character for each longest start of a character among them.

* `decode_ascii`: bytes below 128 stand for themselves.
-/

namespace Deskflow.Text

/-- The character shown for bytes that are not part of a character. -/
def replacement : Char := '\ufffd'

/-- A character of which some bytes are still missing: how many, the value so far, and the range
that the next byte has to be in. -/
structure Pending where
  missing : Nat := 0
  value : Nat := 0
  low : Nat := 128
  high : Nat := 191

/-- The character that a byte begins, if it can begin one of more than one byte. -/
def Pending.begin? (b : Nat) : Option Pending :=
  if b < 194 then none
  else if b < 224 then some { missing := 1, value := b - 192 }
  else if b < 240 then
    some
      { missing := 2, value := b - 224
        low := if b = 224 then 160 else 128
        high := if b = 237 then 159 else 191 }
  else if b < 245 then
    some
      { missing := 3, value := b - 240
        low := if b = 240 then 144 else 128
        high := if b = 244 then 143 else 191 }
  else none

/-- The characters that a byte completes where no character is pending, and what is pending then. -/
def Pending.first (b : Nat) : List Char × Pending :=
  if b < 128 then ([Char.ofNat b], {})
  else match begin? b with
    | some p => ([], p)
    | none => ([replacement], {})

/-- The characters that a byte completes, and what is pending then. -/
def Pending.next (p : Pending) (b : Nat) : List Char × Pending :=
  match p.missing with
  | 0 => first b
  | n + 1 =>
    if p.low ≤ b && b ≤ p.high then
      let value := 64 * p.value + (b - 128)
      if n = 0 then ([Char.ofNat value], {}) else ([], { missing := n, value })
    else (replacement :: (first b).1, (first b).2)

/-- The characters that bytes stand for after what is pending. -/
def decodeFrom : Pending → List UInt8 → List Char
  | p, [] => if p.missing = 0 then [] else [replacement]
  | p, b :: bs => (p.next b.toNat).1 ++ decodeFrom (p.next b.toNat).2 bs

/-- The characters that bytes stand for. -/
def decode (bs : List UInt8) : List Char := decodeFrom {} bs

/-! ## Lemmas -/

theorem decode_ascii {bs : List UInt8} (h : ∀ b ∈ bs, b.toNat < 128) :
    decode bs = bs.map fun b => Char.ofNat b.toNat := by
  unfold decode
  induction bs with
  | nil => rfl
  | cons b bs ih =>
    have hb := h b List.mem_cons_self
    have ih := ih fun c hc => h c (List.mem_cons_of_mem b hc)
    simp [decodeFrom, Pending.next, Pending.first, hb, ih]

end Deskflow.Text
