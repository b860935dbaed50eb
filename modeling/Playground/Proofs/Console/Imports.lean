import Playground.Proofs.Console.Reading
import Playground.Proofs.Memory

/-!
# The imports of the console

An import checks its range before it does anything. A read then moves bytes from the front of the queue to memory, as many as there are
and as there is room for, and touches no other byte of either (`Machine.Receives`); a print makes one attempt with the bytes of its range
and touches neither memory nor queue, whatever comes of it (`Machine.Prints`). So what was read can be printed from where it was put.
-/

namespace Playground.Machine

variable {γ : Type} {m m' : Machine γ} {ptr room len n : UInt32}

/-- What a read has to come to that offers some room at `ptr` and answers `n`: so many bytes from the front of the queue are in memory
from there on, and out of the queue, and nothing else changed. -/
structure Receives (m : Machine γ) (ptr room n : UInt32) (m' : Machine γ) : Prop where
  count : n.toNat = min m.bridge.input.length room.toNat
  written : m'.memory.peek ptr.toNat n.toNat = m.bridge.input.toList.take n.toNat
  untouched : ∀ address, address < ptr.toNat ∨ ptr.toNat + n.toNat ≤ address → m'.memory.byte address = m.memory.byte address
  size : m'.memory.size = m.memory.size
  left : m'.bridge.input.toList = m.bridge.input.toList.drop n.toNat
  rest : m' = { m with memory := m'.memory, bridge := { m.bridge with input := m'.bridge.input } }

/-- What a print of bytes has to come to: the sink is given them once, its answer is the import's, and nothing else changed. -/
structure Prints (m : Machine γ) (bytes : List UInt8) (answer : Except ImportError Unit) (m' : Machine γ) : Prop where
  answer : answer = (m.bridge.sink.emit bytes).1.mapError .console
  machine : m' = { m with bridge := { m.bridge with sink := (m.bridge.sink.emit bytes).2 } }

/-! ## Reading -/

/-- A read that is not in memory changes nothing. -/
theorem readConsole_of_outOfBounds (h : ¬m.memory.InBounds ptr room.toNat) :
    m.readConsole ptr room = (.error (.bounds ⟨ptr, room, m.memory.size⟩), m) := by
  rw [← Memory.outOfBounds_eq]
  exact if_neg h

/-- A read hands out as many bytes as there are, up to the room for them. -/
theorem length_consoleRead (b : Bridge) (room : Nat) : (b.consoleRead room).1.length = min b.input.length room := by
  have htaken : (b.consoleRead room).1 = b.input.toList.take room := b.input.fst_drain room
  rw [htaken, List.length_take, Nat.min_comm, Queue.length]

/-- A read in memory moves bytes from the front of the queue there. -/
theorem exists_receives (h : m.memory.InBounds ptr room.toNat) :
    ∃ n m', m.readConsole ptr room = (.ok n, m') ∧ m.Receives ptr room n m' := by
  have htaken : (m.bridge.consoleRead room.toNat).1 = m.bridge.input.toList.take room.toNat := m.bridge.input.fst_drain _
  have hleft : (m.bridge.consoleRead room.toNat).2.input.toList = m.bridge.input.toList.drop room.toNat :=
    m.bridge.input.toList_snd_drain _
  have hrest : (m.bridge.consoleRead room.toNat).2 = { m.bridge with input := (m.bridge.consoleRead room.toNat).2.input } := rfl
  have hlength := length_consoleRead m.bridge room.toNat
  have hread : m.readConsole ptr room = (.ok (UInt32.ofNat (m.bridge.consoleRead room.toNat).1.length),
      { m with
        memory := m.memory.poke ptr.toNat (m.bridge.consoleRead room.toNat).1
        bridge := (m.bridge.consoleRead room.toNat).2 }) := if_pos h
  generalize m.bridge.consoleRead room.toNat = done at htaken hleft hrest hlength hread
  obtain ⟨taken, bridge⟩ := done
  dsimp only at htaken hleft hrest hlength hread
  have hroom : room.toNat < UInt32.size := room.toNat_lt
  have hcount : (UInt32.ofNat taken.length).toNat = taken.length := UInt32.toNat_ofNat_of_lt' (by omega)
  have hfits : ptr.toNat + taken.length ≤ m.memory.size := by
    have hin : ptr.toNat + room.toNat ≤ m.memory.size := h
    omega
  -- It makes no difference whether bytes are counted by the room for them or by how many there were.
  have hsame : min room.toNat m.bridge.input.toList.length = min taken.length m.bridge.input.toList.length := by
    rw [hlength, Queue.length]
    omega
  refine ⟨_, _, hread, ?_⟩
  constructor
  · rw [hcount, hlength]
  · rw [hcount, Memory.peek_poke hfits, htaken]
    rw [htaken] at hsame
    exact List.take_eq_take_iff.mpr hsame
  · intro address hout
    rw [hcount] at hout
    exact Memory.byte_poke_of_outside hfits hout
  · exact Memory.size_poke _ _ _
  · rw [hcount, hleft]
    exact List.drop_eq_drop_iff.mpr hsame
  · rw [hrest]

/-! ## Printing -/

/-- A print that is not in memory changes nothing, and the sink is given nothing. -/
theorem writeConsole_of_outOfBounds (h : ¬m.memory.InBounds ptr len.toNat) :
    m.writeConsole ptr len = (.error (.bounds ⟨ptr, len, m.memory.size⟩), m) := by
  have hcopied : m.memory.copyOut ptr len = .error (m.memory.outOfBounds ptr len.toNat) := if_neg h
  rw [writeConsole, hcopied, Memory.outOfBounds_eq]

/-- A print in memory gives the sink the bytes of its range. -/
theorem prints_writeConsole (h : m.memory.InBounds ptr len.toNat) :
    m.Prints (m.memory.peek ptr.toNat len.toNat) (m.writeConsole ptr len).1 (m.writeConsole ptr len).2 := by
  have hcopied : m.memory.copyOut ptr len = .ok (m.memory.peek ptr.toNat len.toNat) := if_pos h
  rw [writeConsole, hcopied]
  dsimp only [Bridge.consoleWrite]
  rcases hemit : m.bridge.sink.emit (m.memory.peek ptr.toNat len.toNat) with ⟨_ | _, sink⟩
  · exact ⟨by rw [hemit]; rfl, by rw [hemit]⟩
  · exact ⟨by rw [hemit]; rfl, by rw [hemit]⟩

/-! ## Both together -/

/-- Whatever memory holds, whatever is pending, and whichever prints fail: an import whose range does not end in memory, its end being
taken without wrapping around, fails and changes nothing. Otherwise a read puts the first bytes that are pending at its pointer, as many
as there are and as there is room for, and a print gives the sink the bytes of its range, once; neither changes anything else. So to
print what a read has answered, from where the read put it, gives the sink just the bytes that were taken from the queue. -/
theorem console_imports_exact (m : Machine γ) (ptr len : UInt32) :
    (¬m.memory.InBounds ptr len.toNat →
      m.readConsole ptr len = (.error (.bounds ⟨ptr, len, m.memory.size⟩), m) ∧
        m.writeConsole ptr len = (.error (.bounds ⟨ptr, len, m.memory.size⟩), m)) ∧
      (m.memory.InBounds ptr len.toNat →
        (∃ n m', m.readConsole ptr len = (.ok n, m') ∧ m.Receives ptr len n m') ∧
          ∃ bytes, bytes.length = len.toNat ∧ (∀ i (h : i < bytes.length), bytes[i] = m.memory.byte (ptr.toNat + i)) ∧
            m.Prints bytes (m.writeConsole ptr len).1 (m.writeConsole ptr len).2) ∧
      ∀ n m', m.readConsole ptr len = (.ok n, m') →
        ∃ taken, taken.length = n.toNat ∧ taken ++ m'.bridge.input.toList = m.bridge.input.toList ∧
          m'.Prints taken (m'.writeConsole ptr n).1 (m'.writeConsole ptr n).2 := by
  refine ⟨fun h => ⟨readConsole_of_outOfBounds h, writeConsole_of_outOfBounds h⟩, fun h => ⟨exists_receives h, ?_⟩, ?_⟩
  · refine ⟨m.memory.peek ptr.toNat len.toNat, Memory.length_peek h, fun i hi => ?_, prints_writeConsole h⟩
    rw [Memory.byte_eq_peek m.memory ptr.toNat (Memory.length_peek h ▸ hi), List.getElem?_eq_getElem hi, Option.getD_some]
  · intro n m' hread
    have h : m.memory.InBounds ptr len.toNat := by
      by_contra hout
      exact nomatch hread.symm.trans (readConsole_of_outOfBounds hout)
    obtain ⟨_, _, hread', hreceives⟩ := exists_receives h
    cases hread.symm.trans hread'
    obtain ⟨hcount, hwritten, -, hsize, hleft, -⟩ := hreceives
    have hin : m'.memory.InBounds ptr n.toNat := by
      have hroom : ptr.toNat + len.toNat ≤ m.memory.size := h
      rw [Memory.InBounds, hsize, hcount]
      omega
    refine ⟨m.bridge.input.toList.take n.toNat, ?_, ?_, hwritten ▸ prints_writeConsole hin⟩
    · rw [List.length_take, hcount, Queue.length]
      omega
    · rw [hleft, List.take_append_drop]

/-- Two bytes are read into room for three, and printed again; and no range goes around the end of the addresses. -/
theorem console_imports_exact_pending :
    let m : Machine Unit := ⟨.ofList [0, 0, 0, 0, 9], { input := { front := [7, 8] } }, ()⟩
    (∃ n m', m.readConsole 1 3 = (.ok n, m') ∧ m.Receives 1 3 n m' ∧ m'.memory.toList = [0, 7, 8, 0, 9] ∧
      ∃ taken, taken = [7, 8] ∧ m'.Prints taken (m'.writeConsole 1 n).1 (m'.writeConsole 1 n).2) ∧
      (m.writeConsole 0xFFFFFFFF 2).1 = .error (.bounds ⟨0xFFFFFFFF, 2, 5⟩) := by
  intro m
  obtain ⟨-, hinside, hprinted⟩ := console_imports_exact m 1 3
  obtain ⟨houtside, -⟩ := console_imports_exact m 0xFFFFFFFF 2
  obtain ⟨⟨n, m', hread, hreceives⟩, -⟩ := hinside (by decide)
  obtain ⟨taken, hlength, htaken, hprints⟩ := hprinted n m' hread
  have hsame : (m.readConsole 1 3).2 = m' := congrArg Prod.snd hread
  refine ⟨⟨n, m', hread, hreceives, ?_, taken, ?_, hprints⟩, congrArg Prod.fst (houtside (by decide)).2⟩
  · rw [← hsame]
    decide
  · have hleft : m'.bridge.input.toList = [] := by
      rw [← hsame]
      decide
    rw [hleft, List.append_nil] at htaken
    exact htaken

end Playground.Machine
