import Playground.Proofs.Console.Writing
import Playground.Proofs.Text.Utf8

/-!
# Text that is printed in pieces

A print takes bytes and knows nothing of characters. A console that takes everything appends the bytes of each print to what is there
and counts it (`exists_written`), and so a row of prints comes to one print of all their bytes, however they were cut
(`exists_writtenAll`). Text is made of all bytes together, so a character whose bytes came in several prints is whole again.
-/

namespace Playground

/-- A print that is taken counts. -/
theorem Sink.writes_emit {s s' : Sink} {bytes : List UInt8} (h : s.emit bytes = (.ok (), s')) : s'.writes = s.writes + 1 := by
  unfold emit at h
  dsimp only at h
  split at h
  · cases h
  · cases h
    rfl

namespace Bridge

/-- Prints pieces in order; what comes of each, and the bridge afterwards. -/
def writeAll (b : Bridge) : List (List UInt8) → List (Except ConsoleError Unit) × Bridge
  | [] => ([], b)
  | bytes :: pieces =>
    let (result, b) := b.consoleWrite bytes
    let (results, b) := b.writeAll pieces
    (result :: results, b)

variable {b : Bridge}

/-- A console that takes everything has one print more after a print, and its bytes behind what was there. -/
theorem exists_written (h : b.sink.Steady) (bytes : List UInt8) :
    ∃ sink, b.consoleWrite bytes = (.ok (), { b with sink }) ∧ sink.Steady ∧ sink.contents = b.sink.contents ++ bytes ∧
      sink.writes = b.sink.writes + 1 := by
  obtain ⟨sink, hemit, hsteady, hcontents⟩ := h.emit bytes
  refine ⟨sink, ?_, hsteady, hcontents, Sink.writes_emit hemit⟩
  rw [consoleWrite, hemit]

/-- After a row of prints it has as many more, and the bytes of all of them. -/
theorem exists_writtenAll (h : b.sink.Steady) (pieces : List (List UInt8)) :
    ∃ sink, b.writeAll pieces = (pieces.map fun _ => .ok (), { b with sink }) ∧ sink.Steady ∧
      sink.contents = b.sink.contents ++ pieces.flatten ∧ sink.writes = b.sink.writes + pieces.length := by
  induction pieces generalizing b with
  | nil => exact ⟨b.sink, rfl, h, (List.append_nil _).symm, rfl⟩
  | cons bytes pieces ih =>
    obtain ⟨first, hwrite, hsteady, hcontents, hwrites⟩ := exists_written h bytes
    obtain ⟨last, hrest, hsteady', hcontents', hwrites'⟩ := ih (b := { b with sink := first }) hsteady
    refine ⟨last, ?_, hsteady', ?_, ?_⟩
    · rw [writeAll, hwrite]
      dsimp only
      rw [hrest]
      rfl
    · rw [hcontents', hcontents, List.flatten_cons, List.append_assoc]
    · rw [hwrites', hwrites, List.length_cons, Nat.add_assoc, Nat.add_comm 1]

/-- However the bytes of a text are cut, in the middle of characters or at one place twice: on an empty console that takes everything
each piece is taken and counted, the contents are the bytes of the text, and what there is to read is the text. Nothing else of the
bridge changes. -/
theorem text_of_pieces (b : Bridge) (hsteady : b.sink.Steady) (hempty : b.sink.contents = []) (text : String)
    {pieces : List (List UInt8)} (hcut : pieces.flatten = Text.encode text) :
    let results := (b.writeAll pieces).1
    let after := (b.writeAll pieces).2
    results = pieces.map (fun _ => .ok ()) ∧ after.sink.contents = Text.encode text ∧ after.sink.text = text ∧
      after.sink.writes = b.sink.writes + pieces.length ∧ after = { b with sink := after.sink } := by
  obtain ⟨sink, hwritten, -, hcontents, hwrites⟩ := exists_writtenAll hsteady pieces
  have hbytes : sink.contents = Text.encode text := by rw [hcontents, hempty, List.nil_append, hcut]
  have htext : sink.text = text := by rw [Sink.text, hbytes, Text.decodeLossy_encode]
  intro results after
  have hresults : results = pieces.map fun _ => .ok () := congrArg Prod.fst hwritten
  have hafter : after = { b with sink } := congrArg Prod.snd hwritten
  rw [hafter]
  exact ⟨hresults, hbytes, htext, hwrites, rfl⟩

/-- A character of two, one of three and one of four bytes, all of them cut, with an empty piece in the middle of the last one. -/
theorem text_of_pieces_cut :
    let b : Bridge := {}
    let pieces : List (List UInt8) := [[0xC3], [0xA9, 0xE2, 0x82], [0xAC, 0xF0, 0x9F], [], [0x98, 0x80]]
    b.sink.Steady ∧ b.sink.contents = [] ∧ pieces.flatten = Text.encode "é€😀" ∧
      (b.writeAll pieces).2.sink.text = "é€😀" ∧ (b.writeAll pieces).2.sink.writes = 5 := by
  intro b pieces
  have hcut : pieces.flatten = Text.encode "é€😀" := by decide
  obtain ⟨-, -, htext, hwrites, -⟩ := text_of_pieces b Sink.steady_default rfl "é€😀" hcut
  exact ⟨Sink.steady_default, rfl, hcut, htext, hwrites⟩

end Bridge

end Playground
