import Mathlib.Tactic.IntervalCases
import Playground.Text.Utf8

/-!
# Text is read back from its bytes

The decoder inverts the encoder. From between two characters, the bytes of a character take it to behind that character
(`feed_character`): the first byte says how many are to come (`lead_one` to `lead_four`), each of the others adds its six bits
(`feed_next`, `feed_last`), and the bounds on the second one let every character pass, because its bytes are the shortest ones and it is
no surrogate. So the units of a text's bytes are its characters (`units_encode`), one after the other, and however the bytes are read
as text, the text is what comes out.
-/

namespace Playground.Text

/-! ## First bytes -/

/-- The first byte of a character of seven bits is all of it. -/
theorem lead_one {n : Nat} (h : n < 0x80) : lead (UInt8.ofNat n) = .char (Char.ofNat n) := by
  have hn : (UInt8.ofNat n).toNat = n := UInt8.toNat_ofNat_of_lt' (Nat.lt_trans h (by decide))
  have hlt : UInt8.ofNat n < 0x80 := UInt8.lt_iff_toNat_lt.mpr (hn.symm ▸ h)
  rw [lead, if_pos hlt, hn]

/-- A first byte that announces one more; those that would announce too short a character are left out. -/
theorem lead_two {n : Nat} (hlong : 2 ≤ n) (h : n < 32) : lead (UInt8.ofNat (n + 0xC0)) = .opens ⟨n, 0x80, 0xBF, 0⟩ := by
  interval_cases n <;> rfl

/-- A first byte that announces two more. Their bounds leave out characters that are too short, and surrogates. -/
theorem lead_three {n : Nat} (h : n < 16) :
    lead (UInt8.ofNat (n + 0xE0)) =
      .opens ⟨n, if n = 0 then 0xA0 else 0x80, if n = 0xD then 0x9F else 0xBF, 1⟩ := by
  interval_cases n <;> rfl

/-- A first byte that announces three more. Their bounds leave out characters that are too short, and those beyond the last one.
-/
theorem lead_four {n : Nat} (h : n < 5) :
    lead (UInt8.ofNat (n + 0xF0)) = .opens ⟨n, if n = 0 then 0x90 else 0x80, if n = 4 then 0x8F else 0xBF, 2⟩ := by
  interval_cases n <;> rfl

namespace Decoder

variable {us : List (Option Char)} {n t : Nat}

/-- A first byte that announces more leaves its character unfinished. -/
theorem feed_opens {b : UInt8} {u : Unfinished} (h : lead b = .opens u) : feed ⟨us, none⟩ b = ⟨us, some u⟩ := by
  rw [feed, opening, h]

/-! ## The bytes that follow -/

/-- A byte that follows is its six bits and a mark. -/
theorem toNat_next (ht : t < 64) : (UInt8.ofNat (t + 0x80)).toNat = t + 0x80 := by
  have hlt : t + 0x80 < 256 := by omega
  exact UInt8.toNat_ofNat_of_lt' hlt

/-- A byte within the bounds adds its six bits to an unfinished character. -/
theorem feed_next {least greatest : UInt8} {after : Nat} (ht : t < 64) (hleast : least.toNat ≤ t + 0x80)
    (hgreatest : t + 0x80 ≤ greatest.toNat) :
    feed ⟨us, some ⟨n, least, greatest, after + 1⟩⟩ (UInt8.ofNat (t + 0x80)) =
      ⟨us, some ⟨n * 64 + t, 0x80, 0xBF, after⟩⟩ := by
  have hbounds : least ≤ UInt8.ofNat (t + 0x80) ∧ UInt8.ofNat (t + 0x80) ≤ greatest := by
    rw [UInt8.le_iff_toNat_le, UInt8.le_iff_toNat_le, toNat_next ht]
    exact ⟨hleast, hgreatest⟩
  simp only [feed, if_pos hbounds, toNat_next ht, Nat.add_sub_cancel]

/-- The last byte ends a character. -/
theorem feed_last (ht : t < 64) :
    feed ⟨us, some ⟨n, 0x80, 0xBF, 0⟩⟩ (UInt8.ofNat (t + 0x80)) = ⟨some (Char.ofNat (n * 64 + t)) :: us, none⟩ := by
  have hbounds : 0x80 ≤ UInt8.ofNat (t + 0x80) ∧ UInt8.ofNat (t + 0x80) ≤ 0xBF := by
    rw [UInt8.le_iff_toNat_le, UInt8.le_iff_toNat_le, toNat_next ht]
    exact ⟨Nat.le_add_left _ _, Nat.add_le_add_right (Nat.le_of_lt_succ ht) 0x80⟩
  simp only [feed, if_pos hbounds, toNat_next ht, Nat.add_sub_cancel]

/-- The second byte of three is bounded, so that no fewer bytes would do and no surrogate is spelt. -/
theorem feed_second_of_three (hn : n < 16) (ht : t < 64) (hlong : n = 0 → 32 ≤ t) (hsurrogate : n = 0xD → t < 32) :
    feed (feed ⟨us, none⟩ (UInt8.ofNat (n + 0xE0))) (UInt8.ofNat (t + 0x80)) = ⟨us, some ⟨n * 64 + t, 0x80, 0xBF, 0⟩⟩ := by
  rw [feed_opens (lead_three hn)]
  refine feed_next ht ?_ ?_
  · split
    next h => exact Nat.add_le_add_right (hlong h) 0x80
    next => exact Nat.le_add_left 0x80 t
  · split
    next h => exact Nat.add_le_add_right (Nat.le_of_lt_succ (hsurrogate h)) 0x80
    next => exact Nat.add_le_add_right (Nat.le_of_lt_succ ht) 0x80

/-- The second byte of four is bounded, so that no fewer bytes would do and the last code point is not passed. -/
theorem feed_second_of_four (hn : n < 5) (ht : t < 64) (hlong : n = 0 → 16 ≤ t) (hlast : n = 4 → t < 16) :
    feed (feed ⟨us, none⟩ (UInt8.ofNat (n + 0xF0))) (UInt8.ofNat (t + 0x80)) = ⟨us, some ⟨n * 64 + t, 0x80, 0xBF, 1⟩⟩ := by
  rw [feed_opens (lead_four hn)]
  refine feed_next ht ?_ ?_
  · split
    next h => exact Nat.add_le_add_right (hlong h) 0x80
    next => exact Nat.le_add_left 0x80 t
  · split
    next h => exact Nat.add_le_add_right (Nat.le_of_lt_succ (hlast h)) 0x80
    next => exact Nat.add_le_add_right (Nat.le_of_lt_succ ht) 0x80

/-- The third byte of four may be any. -/
theorem feed_third_of_four (ht : t < 64) :
    feed ⟨us, some ⟨n, 0x80, 0xBF, 1⟩⟩ (UInt8.ofNat (t + 0x80)) = ⟨us, some ⟨n * 64 + t, 0x80, 0xBF, 0⟩⟩ :=
  feed_next ht (Nat.le_add_left 0x80 t) (Nat.add_le_add_right (Nat.le_of_lt_succ ht) 0x80)

/-! ## Characters and texts -/

/-- The bytes of a character take the decoder to behind it. -/
theorem feed_character (us : List (Option Char)) (c : Char) :
    (String.utf8EncodeChar c).foldl feed ⟨us, none⟩ = ⟨some c :: us, none⟩ := by
  have hvalid : c.val.toNat < 0xD800 ∨ 0xDFFF < c.val.toNat ∧ c.val.toNat < 0x110000 := c.valid
  have hc : Char.ofNat c.val.toNat = c := c.ofNat_toNat
  unfold String.utf8EncodeChar
  generalize c.val.toNat = v at hvalid hc ⊢
  dsimp only
  -- One case for each number of bytes; in each of them the bits are put together to the character's value again.
  split
  next h =>
    rw [List.foldl_cons, List.foldl_nil, feed, opening, lead_one (by omega), hc]
  split
  next h =>
    have hvalue : v / 64 % 32 * 64 + v % 64 = v := by omega
    rw [List.foldl_cons, List.foldl_cons, List.foldl_nil, feed_opens (lead_two (by omega) (by omega)), feed_last (by omega),
      hvalue, hc]
  split
  next h =>
    have hvalue : (v / 4096 % 16 * 64 + v / 64 % 64) * 64 + v % 64 = v := by omega
    rw [List.foldl_cons, List.foldl_cons, List.foldl_cons, List.foldl_nil,
      feed_second_of_three (by omega) (by omega) (by omega) (by omega), feed_last (by omega), hvalue, hc]
  next h =>
    have hvalue : ((v / 262144 % 8 * 64 + v / 4096 % 64) * 64 + v / 64 % 64) * 64 + v % 64 = v := by omega
    rw [List.foldl_cons, List.foldl_cons, List.foldl_cons, List.foldl_cons, List.foldl_nil,
      feed_second_of_four (by omega) (by omega) (by omega) (by omega), feed_third_of_four (by omega), feed_last (by omega), hvalue, hc]

/-- The bytes of characters take the decoder to behind all of them. -/
theorem feed_characters (us : List (Option Char)) (cs : List Char) :
    (cs.flatMap String.utf8EncodeChar).foldl feed ⟨us, none⟩ = ⟨(cs.map some).reverse ++ us, none⟩ := by
  induction cs generalizing us with
  | nil => rfl
  | cons c cs ih =>
    rw [List.flatMap_cons, List.foldl_append, feed_character, ih, List.map_cons, List.reverse_cons, List.append_assoc]
    rfl

end Decoder

/-- The units of a text's bytes are its characters. -/
theorem units_encode (text : String) : units (encode text) = text.toList.map some := by
  rw [units, encode, Decoder.start, Decoder.feed_characters, Decoder.finish, List.append_nil, List.reverse_reverse]

/-- A text is read back from its bytes. -/
theorem decodeLossy_encode (text : String) : decodeLossy (encode text) = text := by
  have hchars : (text.toList.map some).map (fun u => u.getD '\uFFFD') = text.toList := by
    rw [List.map_map]
    exact List.map_id' _
  rw [decodeLossy, units_encode, hchars, String.ofList_toList]

/-- The bytes of a text are well-formed. -/
theorem decode?_encode (text : String) : decode? (encode text) = some text := by
  have hall : (text.toList.map some).all Option.isSome = true := by simp
  have hchars : (text.toList.map some).filterMap id = text.toList := by simp
  unfold decode?
  rw [units_encode]
  dsimp only
  rw [if_pos hall, hchars, String.ofList_toList]

end Playground.Text
