import Mathlib.Tactic.IntervalCases
import Playground.Memory

/-!
# What writing does to linear memory

`toList` is the view of a memory, and the other accesses are read off it (`peek_eq`, `byte_eq`). A write in bounds replaces one
range of it (`toList_poke`), so the range reads back as what was written and every other byte is as it was. The same holds of the
ranges and the words that are read from it.
-/

namespace Playground.Memory

theorem length_toList (m : Memory) : m.toList.length = m.size := by
  simp [toList, size]

/-- A range that is read is a segment of the view. -/
theorem peek_eq (m : Memory) (start len : Nat) : m.peek start len = (m.toList.drop start).take len := by
  simp [peek, toList]

/-- A range in memory has all its bytes. -/
theorem length_peek {m : Memory} {start len : Nat} (h : start + len ≤ m.size) : (m.peek start len).length = len := by
  rw [peek_eq, List.length_take, List.length_drop, length_toList]
  omega

/-- A byte that is read is an element of the view, and zero beyond its end. -/
theorem byte_eq (m : Memory) (address : Nat) : m.byte address = m.toList[address]?.getD 0 := by
  unfold byte toList
  by_cases h : address < m.bytes.size
  · simp [h, ByteArray.getElem_eq_getElem_data]
  · simp [h]

/-- A write replaces the range that it is made to. -/
theorem toList_poke {m : Memory} {address : Nat} {payload : List UInt8} (h : address + payload.length ≤ m.size) :
    (m.poke address payload).toList =
      m.toList.take address ++ payload ++ m.toList.drop (address + payload.length) := by
  induction payload generalizing m address with
  | nil => simp [poke]
  | cons b rest ih =>
    rw [List.length_cons] at h
    have hlt : address < m.toList.length := by
      rw [length_toList]
      omega
    have hset : (⟨m.bytes.set! address b⟩ : Memory).toList = m.toList.set address b := Array.toList_setIfInBounds
    have hsize : (⟨m.bytes.set! address b⟩ : Memory).size = m.size := Array.size_setIfInBounds
    have htake : (m.toList.set address b).take (address + 1) = m.toList.take address ++ [b] := by
      rw [List.take_add_one, List.getElem?_set_self hlt, List.take_set_of_le (Nat.le_refl _), Option.toList_some]
    have hdrop : (m.toList.set address b).drop (address + 1 + rest.length) = m.toList.drop (address + 1 + rest.length) :=
      List.drop_set_of_lt (by omega)
    rw [poke, ih (by omega), hset, htake, hdrop, List.length_cons, Nat.add_assoc, Nat.add_comm 1]
    simp only [List.append_assoc, List.cons_append, List.nil_append]

/-- A written range reads back as what was written. -/
theorem peek_poke {m : Memory} {address : Nat} {payload : List UInt8} (h : address + payload.length ≤ m.size) :
    (m.poke address payload).peek address payload.length = payload := by
  have htake : (m.toList.take address).length = address := by
    rw [List.length_take, length_toList]
    omega
  rw [peek_eq, toList_poke h, List.append_assoc, List.drop_left' htake, List.take_left' rfl]

/-- A write changes nothing of the view outside its range. -/
theorem getElem?_toList_poke {m : Memory} {start address : Nat} {payload : List UInt8}
    (h : start + payload.length ≤ m.size) (hout : address < start ∨ start + payload.length ≤ address) :
    (m.poke start payload).toList[address]? = m.toList[address]? := by
  have htake : (m.toList.take start).length = start := by
    rw [List.length_take, length_toList]
    omega
  rw [toList_poke h]
  obtain hbefore | hbehind := hout
  · rw [List.append_assoc, List.getElem?_append_left (by omega), List.getElem?_take_of_lt hbefore]
  · have hlength : (m.toList.take start ++ payload).length = start + payload.length := by
      rw [List.length_append, htake]
    rw [List.getElem?_append_right (by omega), hlength, List.getElem?_drop]
    have haddress : start + payload.length + (address - (start + payload.length)) = address := by omega
    rw [haddress]

/-- A write changes no byte outside its range. -/
theorem byte_poke_of_outside {m : Memory} {start address : Nat} {payload : List UInt8}
    (h : start + payload.length ≤ m.size) (hout : address < start ∨ start + payload.length ≤ address) :
    (m.poke start payload).byte address = m.byte address := by
  rw [byte_eq, byte_eq, getElem?_toList_poke h hout]

/-- A write changes no range apart from its own. -/
theorem peek_poke_of_outside {m : Memory} {start address len : Nat} {payload : List UInt8}
    (h : start + payload.length ≤ m.size) (hout : address + len ≤ start ∨ start + payload.length ≤ address) :
    (m.poke start payload).peek address len = m.peek address len := by
  rw [peek_eq, peek_eq]
  refine List.ext_getElem? fun i => ?_
  rw [List.getElem?_take, List.getElem?_take]
  by_cases hi : i < len
  · rw [if_pos hi, if_pos hi, List.getElem?_drop, List.getElem?_drop, getElem?_toList_poke h (by omega)]
  · rw [if_neg hi, if_neg hi]

/-- A byte of a range that is read. -/
theorem byte_eq_peek (m : Memory) (start : Nat) {len i : Nat} (hi : i < len) :
    m.byte (start + i) = (m.peek start len)[i]?.getD 0 := by
  rw [byte_eq, peek_eq, List.getElem?_take, if_pos hi, List.getElem?_drop]

/-- A written byte reads back. -/
theorem byte_poke {m : Memory} {start i : Nat} {payload : List UInt8} (h : start + payload.length ≤ m.size)
    (hi : i < payload.length) : (m.poke start payload).byte (start + i) = payload[i] := by
  rw [byte_eq_peek _ start hi, peek_poke h, List.getElem?_eq_getElem hi, Option.getD_some]

/-- A payload is copied in exactly when its range is in bounds. -/
theorem copyIn_eq {m : Memory} {ptr : UInt32} {payload : List UInt8} (h : payload.length ≤ maxLength) :
    m.copyIn ptr payload =
      if m.InBounds ptr payload.length then .ok (m.poke ptr.toNat payload)
      else .error (m.outOfBounds ptr payload.length) := by
  simp only [copyIn_eq_ite, h, true_and]

/-- The error of a range names the range and the size of memory. -/
theorem outOfBounds_eq (m : Memory) (ptr len : UInt32) : m.outOfBounds ptr len.toNat = ⟨ptr, len, m.size⟩ := by
  have hlen : len.toNat < UInt32.size := len.toNat_lt
  have hmax : min len.toNat maxLength = len.toNat := by
    unfold maxLength
    omega
  rw [outOfBounds, hmax, UInt32.ofNat_toNat]

/-! ## Words -/

/-- A word is put together again from its bytes, lowest first. -/
theorem join_bytes (v : BitVec 32) :
    (v.setWidth 8).setWidth 32 ||| ((v >>> 8).setWidth 8).setWidth 32 <<< 8 |||
      ((v >>> 16).setWidth 8).setWidth 32 <<< 16 ||| ((v >>> 24).setWidth 8).setWidth 32 <<< 24 = v := by
  apply BitVec.eq_of_getLsbD_eq
  intro i hi
  simp only [BitVec.getLsbD_or, BitVec.getLsbD_setWidth, BitVec.getLsbD_shiftLeft, BitVec.getLsbD_ushiftRight]
  interval_cases i <;> simp

@[simp] theorem size_setWord (m : Memory) (address : Nat) (value : UInt32) : (m.setWord address value).size = m.size :=
  size_poke _ _ _

/-- A stored word reads back. -/
theorem word_setWord {m : Memory} {address : Nat} (h : address + 4 ≤ m.size) (value : UInt32) :
    (m.setWord address value).word address = value := by
  have hbyte : ∀ i (hi : i < 4), (m.setWord address value).byte (address + i) =
      [value.toUInt8, (value >>> 8).toUInt8, (value >>> 16).toUInt8, (value >>> 24).toUInt8][i] :=
    fun i hi => byte_poke h hi
  have h0 := hbyte 0 (by decide)
  rw [Nat.add_zero] at h0
  rw [word, h0, hbyte 1 (by decide), hbyte 2 (by decide), hbyte 3 (by decide)]
  exact UInt32.toBitVec_inj.mp (join_bytes value.toBitVec)

/-- A write changes no word apart from its range. -/
theorem word_poke_of_outside {m : Memory} {start address : Nat} {payload : List UInt8}
    (h : start + payload.length ≤ m.size) (hout : address + 4 ≤ start ∨ start + payload.length ≤ address) :
    (m.poke start payload).word address = m.word address := by
  have hbyte : ∀ i, i < 4 → (m.poke start payload).byte (address + i) = m.byte (address + i) :=
    fun i hi => byte_poke_of_outside h (by omega)
  have h0 := hbyte 0 (by decide)
  rw [Nat.add_zero] at h0
  rw [word, word, h0, hbyte 1 (by decide), hbyte 2 (by decide), hbyte 3 (by decide)]

/-- Storing a word changes no other word. -/
theorem word_setWord_of_outside {m : Memory} {start address : Nat} (h : start + 4 ≤ m.size)
    (hout : address + 4 ≤ start ∨ start + 4 ≤ address) (value : UInt32) :
    (m.setWord start value).word address = m.word address :=
  word_poke_of_outside h hout

/-- Storing a word changes no range apart from it. -/
theorem peek_setWord_of_outside {m : Memory} {start address len : Nat} (h : start + 4 ≤ m.size)
    (hout : address + len ≤ start ∨ start + 4 ≤ address) (value : UInt32) :
    (m.setWord start value).peek address len = m.peek address len :=
  peek_poke_of_outside h hout

/-! ## Memory without content -/

@[simp] theorem size_zeroed (size : Nat) : (zeroed size).size = size := by
  simp [zeroed, Memory.size, ByteArray.size]

/-- Memory of zeros holds nothing but zeros, and outside of it there is nothing else either. -/
theorem byte_zeroed (size address : Nat) : (zeroed size).byte address = 0 := by
  rw [byte_eq]
  simp [zeroed, toList, List.getElem?_replicate]
  split <;> rfl

end Playground.Memory
