import Playground.Proofs.HandOff

/-!
# Copies in linear memory

Whether a range can be read, changed or copied to depends on its end alone, taken without wrapping around, and an access that is refused
names the range and the size of memory. What a memory is can be read off its bytes (`eq_of_toList`), and a write decides just the bytes
of its range (`getElem?_poke`). So a range that was written reads back (`Written`), writing back what was read changes nothing
(`poke_peek`), and writes to ranges without a common byte commute (`poke_comm`).
-/

namespace Playground.Memory

/-- A memory is its bytes in order. -/
theorem eq_of_toList {m m' : Memory} (h : m.toList = m'.toList) : m = m' := by
  obtain ⟨⟨bytes⟩⟩ := m
  obtain ⟨⟨bytes'⟩⟩ := m'
  have hbytes : bytes = bytes' := Array.toList_inj.mp h
  rw [hbytes]

/-! ## Single writes -/

/-- The byte at an address after a write: that of the payload inside its range, and what it was elsewhere. -/
theorem getElem?_poke {m : Memory} {start : Nat} {payload : List UInt8} (h : start + payload.length ≤ m.size)
    (address : Nat) :
    (m.poke start payload).toList[address]? =
      if start ≤ address ∧ address < start + payload.length then payload[address - start]? else m.toList[address]? := by
  by_cases hin : start ≤ address ∧ address < start + payload.length
  · have hi : address - start < payload.length := by omega
    have haddress : start + (address - start) = address := by omega
    have hread : ((m.poke start payload).peek start payload.length)[address - start]? = payload[address - start]? := by
      rw [peek_poke h]
    rw [peek_eq, List.getElem?_take, if_pos hi, List.getElem?_drop, haddress] at hread
    rw [if_pos hin, hread]
  · rw [if_neg hin]
    exact getElem?_toList_poke h (by omega)

/-- Writing back what a range holds changes nothing. -/
theorem poke_peek {m : Memory} {start len : Nat} (h : start + len ≤ m.size) : m.poke start (m.peek start len) = m := by
  have hlength := length_peek h
  apply eq_of_toList
  apply List.ext_getElem?
  intro address
  rw [getElem?_poke (by rw [hlength]; exact h), hlength]
  by_cases hin : start ≤ address ∧ address < start + len
  · have hi : address - start < len := by omega
    have haddress : start + (address - start) = address := by omega
    rw [if_pos hin, peek_eq, List.getElem?_take, if_pos hi, List.getElem?_drop, haddress]
  · rw [if_neg hin]

/-- No address lies in both of two ranges. -/
def Apart (start len start' len' : Nat) : Prop :=
  ∀ address, ¬((start ≤ address ∧ address < start + len) ∧ start' ≤ address ∧ address < start' + len')

/-- Writes to ranges without a common byte commute. -/
theorem poke_comm {m : Memory} {start start' : Nat} {payload payload' : List UInt8} (h : start + payload.length ≤ m.size)
    (h' : start' + payload'.length ≤ m.size) (hapart : Apart start payload.length start' payload'.length) :
    (m.poke start payload).poke start' payload' = (m.poke start' payload').poke start payload := by
  apply eq_of_toList
  apply List.ext_getElem?
  intro address
  rw [getElem?_poke (by rw [size_poke]; exact h'), getElem?_poke h, getElem?_poke (by rw [size_poke]; exact h),
    getElem?_poke h']
  by_cases hin : start ≤ address ∧ address < start + payload.length
  · have hout : ¬(start' ≤ address ∧ address < start' + payload'.length) := fun hin' => hapart address ⟨hin, hin'⟩
    rw [if_neg hout, if_pos hin, if_pos hin]
  · rw [if_neg hin, if_neg hin]

/-! ## Ranges -/

variable {m m' : Memory} {ptr len : UInt32} {payload : List UInt8}

/-- What has the length of a range fits into the address space. -/
theorem le_maxLength (hlen : payload.length = len.toNat) : payload.length ≤ maxLength := by
  have hlt : len.toNat < UInt32.size := len.toNat_lt
  unfold maxLength
  omega

/-- Bytes are copied in exactly where there are not too many and they fit, and then they are in their place. -/
theorem copyIn_eq_ok_iff : m.copyIn ptr payload = .ok m' ↔
    (payload.length ≤ maxLength ∧ m.InBounds ptr payload.length) ∧ m.poke ptr.toNat payload = m' := by
  rw [copyIn_eq_ite]
  by_cases hfit : payload.length ≤ maxLength ∧ m.InBounds ptr payload.length
  · rw [if_pos hfit]
    simp [hfit]
  · rw [if_neg hfit]
    simp [hfit]

/-- What a range holds that is lent to be changed is what is read from it. -/
theorem toList_held (h : m.InBounds ptr len.toNat) : (m.held h).toList = m.peek ptr.toNat len.toNat := rfl

/-- One memory is another one with bytes at the place of a range: they are read back from there, and all else is as it was. -/
structure Written (m : Memory) (ptr len : UInt32) (bytes : List UInt8) (m' : Memory) : Prop where
  reads : m'.copyOut ptr len = .ok bytes
  size : m'.size = m.size
  outside : ∀ address, address < ptr.toNat ∨ ptr.toNat + len.toNat ≤ address → m'.byte address = m.byte address

/-- Bytes that are put into their place are written there. -/
theorem written_poke (hlen : payload.length = len.toNat) (h : m.InBounds ptr len.toNat) :
    Written m ptr len payload (m.poke ptr.toNat payload) := by
  have hend : ptr.toNat + payload.length ≤ m.size := hlen ▸ h
  constructor
  · have hin : (m.poke ptr.toNat payload).InBounds ptr len.toNat := by
      rw [InBounds, size_poke]
      exact h
    rw [copyOut, region, if_pos hin, ← hlen, peek_poke hend]
  · exact size_poke m ptr.toNat payload
  · intro address hout
    exact byte_poke_of_outside hend (hlen ▸ hout)

/-- Of two copies to ranges without a common byte, either may come first. -/
theorem copyIn_comm {ptr' : UInt32} {payload' : List UInt8}
    (hapart : Apart ptr.toNat payload.length ptr'.toNat payload'.length)
    (h : (m.copyIn ptr payload).bind (·.copyIn ptr' payload') = .ok m') :
    (m.copyIn ptr' payload').bind (·.copyIn ptr payload) = .ok m' := by
  rcases hfirst : m.copyIn ptr payload with e | m₁
  · rw [hfirst] at h
    cases h
  rw [hfirst] at h
  have hsecond : m₁.copyIn ptr' payload' = .ok m' := h
  obtain ⟨⟨hfit, hin⟩, rfl⟩ := copyIn_eq_ok_iff.mp hfirst
  obtain ⟨⟨hfit', hin'⟩, rfl⟩ := copyIn_eq_ok_iff.mp hsecond
  rw [InBounds, size_poke] at hin'
  have hother : m.copyIn ptr' payload' = .ok (m.poke ptr'.toNat payload') := copyIn_eq_ok_iff.mpr ⟨⟨hfit', hin'⟩, rfl⟩
  have hin₁ : (m.poke ptr'.toNat payload').InBounds ptr payload.length := by
    rw [InBounds, size_poke]
    exact hin
  rw [hother]
  exact copyIn_eq_ok_iff.mpr ⟨⟨hfit, hin₁⟩, (poke_comm hin hin' hapart).symm⟩

/-! ## Copies -/

/-- Whatever memory holds, and whichever range is asked for: where it ends in memory, its end being taken without wrapping around, it
can be read, copied out, changed and copied to, an empty one too. What is read is its bytes in order, and what they are changed to, or
what is copied to it, reads back from it, while memory keeps its size and every byte outside the range; copying in what was copied out
changes nothing. Any other range is refused with an error that names it and the size of memory; what is refused hands no memory back,
and a payload that is refused leaves the machine that it was for as it is. Of two payloads for ranges without a common byte, either
may be copied in first, with the same memory in the end. A payload of less than 4 GiB is one whose length is a word. -/
theorem copies_exact (m : Memory) (ptr len : UInt32) (change : Vector UInt8 len.toNat → Vector UInt8 len.toNat)
    {payload : List UInt8} (hlen : payload.length = len.toNat) :
    (ptr.toNat + len.toNat ≤ m.size →
      (∃ held : Vector UInt8 len.toNat,
        (∀ i (hi : i < len.toNat), held[i] = m.byte (ptr.toNat + i)) ∧ m.region ptr len = .ok held.toList ∧
          m.copyOut ptr len = .ok held.toList ∧ m.copyIn ptr held.toList = .ok m ∧
          ∃ m', m.regionMut ptr len change = .ok m' ∧ Written m ptr len (change held).toList m') ∧
        ∃ m', m.copyIn ptr payload = .ok m' ∧ Written m ptr len payload m') ∧
      (m.size < ptr.toNat + len.toNat →
        let error : BoundsError := ⟨ptr, len, m.size⟩
        m.region ptr len = .error error ∧ m.copyOut ptr len = .error error ∧ m.regionMut ptr len change = .error error ∧
          m.copyIn ptr payload = .error error ∧
          ∀ {γ α : Type} (machine : Machine γ) (use : Slice → Machine γ → Except GuestError α × Machine γ),
            machine.memory = m → machine.place ptr payload use = (.error (.bounds error), machine)) ∧
      ∀ (ptr' : UInt32) (payload' : List UInt8), Apart ptr.toNat payload.length ptr'.toNat payload'.length →
        ∀ m', (m.copyIn ptr payload).bind (·.copyIn ptr' payload') = .ok m' ↔
          (m.copyIn ptr' payload').bind (·.copyIn ptr payload) = .ok m' := by
  have hfits := le_maxLength hlen
  refine ⟨fun hin => ?_, fun hout => ?_, fun ptr' payload' hapart m' => ⟨copyIn_comm hapart, copyIn_comm ?_⟩⟩
  · have hbounds : m.InBounds ptr len.toNat := hin
    have hread : m.region ptr len = .ok (m.held hbounds).toList := if_pos hbounds
    have hback : (m.held hbounds).toList.length = len.toNat := Vector.length_toList
    refine ⟨⟨m.held hbounds, ?_, hread, hread, ?_, _, dif_pos hbounds, written_poke Vector.length_toList hbounds⟩, _,
      copyIn_eq_ok_iff.mpr ⟨⟨hfits, hlen ▸ hbounds⟩, rfl⟩, written_poke hlen hbounds⟩
    · intro i hi
      have hi' : i < (m.held hbounds).toList.length := hback.symm ▸ hi
      rw [byte_eq_peek m ptr.toNat hi, ← toList_held hbounds, List.getElem?_eq_getElem hi', Vector.getElem_toList]
      rfl
    · have hbounds' : m.InBounds ptr (m.held hbounds).toList.length := hback.symm ▸ hbounds
      exact copyIn_eq_ok_iff.mpr ⟨⟨le_maxLength hback, hbounds'⟩, poke_peek hin⟩
  · have hbounds : ¬m.InBounds ptr len.toNat := Nat.not_le_of_gt hout
    have hbounds' : ¬m.InBounds ptr payload.length := hlen ▸ hbounds
    have hcopied : m.copyIn ptr payload = .error ⟨ptr, len, m.size⟩ := by
      rw [copyIn_eq hfits, if_neg hbounds', hlen, outOfBounds_eq]
    intro error
    refine ⟨?_, ?_, ?_, hcopied, ?_⟩
    · rw [region, if_neg hbounds, outOfBounds_eq]
    · rw [copyOut, region, if_neg hbounds, outOfBounds_eq]
    · rw [regionMut, dif_neg hbounds, outOfBounds_eq]
    · rintro γ α machine use rfl
      rw [Machine.place_eq, hcopied]
  · intro address hboth
    exact hapart address hboth.symm

/-- Of four bytes the last two are written, before or after the first one is; a range that begins a byte later is refused, and so is
one whose end would be inside if it wrapped around. -/
theorem copies_exact_at_end :
    let m := ofList [1, 2, 3, 4]
    [(7 : UInt8), 8].length = (2 : UInt32).toNat ∧
      (∃ m', m.copyIn 2 [7, 8] = .ok m' ∧ Written m 2 2 [7, 8] m') ∧
      m.copyIn 3 [7, 8] = .error ⟨3, 2, 4⟩ ∧ m.regionMut 0xFFFFFFFF 2 Vector.reverse = .error ⟨0xFFFFFFFF, 2, 4⟩ ∧
      Apart 2 2 0 1 ∧
      (m.copyIn 0 [9]).bind (·.copyIn 2 [7, 8]) = .ok (ofList [9, 2, 7, 8]) := by
  intro m
  have hlen : [(7 : UInt8), 8].length = (2 : UInt32).toNat := rfl
  have hapart : Apart 2 2 0 1 := by
    intro address h
    omega
  obtain ⟨hin, -, hcomm⟩ := copies_exact m 2 2 Vector.reverse hlen
  obtain ⟨-, hlater, -⟩ := copies_exact m 3 2 Vector.reverse hlen
  obtain ⟨-, hwrapped, -⟩ := copies_exact m 0xFFFFFFFF 2 Vector.reverse hlen
  exact ⟨hlen, (hin (by decide)).2, (hlater (by decide)).2.2.2.1, (hwrapped (by decide)).2.2.1, hapart,
    (hcomm 0 [9] hapart (ofList [9, 2, 7, 8])).mp rfl⟩

end Playground.Memory
