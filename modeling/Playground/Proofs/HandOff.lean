import Playground.Proofs.Memory
import Playground.Proofs.Guest.Fixed
import Playground.Proofs.Guest.Watch

/-!
# What a hand-off does, step by step

`Machine.deeds` lists what a hand-off does to a machine in order, each deed with the machine right before and right after it: the
calls it makes, and the use that the payload is handed over for, which may be anything. What the host does to memory by itself
lies between two deeds. A hand-off goes in one of four ways: its allocation fails, it gets no region, its payload does not fit
into memory where the region lies, or it does (`deeds_of_allocate_error`, `deeds_of_null`, `deeds_of_outOfBounds`,
`deeds_of_inBounds`). Every region it gets is released once, last. What all of it goes along with, the hand-off as a whole
does (`handOff_rel`).
-/

namespace Playground

/-- Something that a hand-off does to a machine. -/
inductive Deed (γ α : Type) where
  /-- A call of the guest. -/
  | called (e : Export) (result : Except GuestError e.Reply) (before after : Machine γ)
  /-- What the payload was handed over for. -/
  | used (slice : Slice) (answer : Except GuestError α) (before after : Machine γ)

instance Deed.watch {γ α : Type} : Watch γ (Deed γ α) := ⟨fun e before result after => [.called e result before after]⟩

namespace Machine

variable {γ α : Type}

/-- A use, noted as a deed. Calls that it makes itself are part of it. -/
def watchUse (use : Slice → Machine γ → Except GuestError α × Machine γ) (slice : Slice)
    (m : Machine (Watched γ (Deed γ α))) : Except GuestError α × Machine (Watched γ (Deed γ α)) :=
  let (answer, after) := use slice m.unwatched
  (answer, after.watch (m.notes ++ [.used slice answer m.unwatched after]))

/-- What a hand-off does to a machine, in order. -/
def deeds [Guest γ] (m : Machine γ) (payload : List UInt8) (use : Slice → Machine γ → Except GuestError α × Machine γ) :
    List (Deed γ α) :=
  ((m.watch []).handOff payload (watchUse use)).2.1.notes

/-- A call of a machine with deeds is the call of the machine alone, and one deed more. -/
theorem call_watch_deeds [Guest γ] {e : Export} {m after : Machine γ} {result : Except GuestError e.Reply}
    (h : Guest.call e m = (result, after)) (deeds : List (Deed γ α)) :
    Guest.call e (m.watch deeds) = (result, after.watch (deeds ++ [.called e result m after])) := by
  rw [call_watch, h]
  rfl

/-- So it is for a use. -/
theorem watchUse_watch_deeds {use : Slice → Machine γ → Except GuestError α × Machine γ} {slice : Slice}
    {m after : Machine γ} {answer : Except GuestError α} (h : use slice m = (answer, after)) (deeds : List (Deed γ α)) :
    watchUse use slice (m.watch deeds) = (answer, after.watch (deeds ++ [.used slice answer m after])) := by
  unfold watchUse
  rw [unwatched_watch, h]
  rfl

/-- A machine holds a payload at a place, and is otherwise as another machine. -/
structure Holds (m m₀ : Machine γ) (ptr : UInt32) (payload : List UInt8) : Prop where
  content : m.memory.peek ptr.toNat payload.length = payload
  outside : ∀ address, address < ptr.toNat ∨ ptr.toNat + payload.length ≤ address →
    m.memory.byte address = m₀.memory.byte address
  size : m.memory.size = m₀.memory.size
  bridge : m.bridge = m₀.bridge
  inner : m.inner = m₀.inner

/-- The machine with a payload copied in. -/
def withPayload (m : Machine γ) (ptr : UInt32) (payload : List UInt8) : Machine γ :=
  { m with memory := m.memory.poke ptr.toNat payload }

/-- A payload that is copied in where there is room for it is held there. -/
theorem holds_withPayload {m : Machine γ} {ptr : UInt32} {payload : List UInt8}
    (h : m.memory.InBounds ptr payload.length) : Holds (m.withPayload ptr payload) m ptr payload where
  content := Memory.peek_poke h
  outside _ := Memory.byte_poke_of_outside h
  size := Memory.size_poke _ _ _
  bridge := rfl
  inner := rfl

/-! ## The ways in which it goes -/

section Ways

variable {m granted : Machine γ} {payload : List UInt8} {ptr : UInt32}
  {use : Slice → Machine γ → Except GuestError α × Machine γ}

/-- A length that fits into 32 bits is none too large. -/
theorem length_le_maxLength (h : payload.length < UInt32.size) : payload.length ≤ Memory.maxLength := Nat.le_pred_of_lt h

/-- The size asked for is the payload's, and at least one byte. -/
theorem toNat_regionSize (h : payload.length < UInt32.size) : (regionSize payload).toNat = max payload.length 1 :=
  UInt32.toNat_ofNat_of_lt' (Nat.max_lt.mpr ⟨h, by decide⟩)

/-- Where a payload does not fit, nothing is written and nothing is used. -/
theorem place_of_outOfBounds (hlen : payload.length < UInt32.size) (hout : ¬m.memory.InBounds ptr payload.length) :
    m.place ptr payload use = (.error (.bounds (m.memory.outOfBounds ptr payload.length)), m) := by
  rw [place_eq]
  rw [Memory.copyIn_eq (length_le_maxLength hlen), if_neg hout]

/-- Where a payload fits, it is copied in and used. -/
theorem place_of_inBounds (hlen : payload.length < UInt32.size) (hin : m.memory.InBounds ptr payload.length) :
    m.place ptr payload use = use ⟨ptr, UInt32.ofNat payload.length⟩ (m.withPayload ptr payload) := by
  rw [place_eq]
  rw [Memory.copyIn_eq (length_le_maxLength hlen), if_pos hin]
  rfl

/-- Where a payload fits, its use is the one deed of placing it. -/
theorem place_watch_deeds (hlen : payload.length < UInt32.size) (hin : m.memory.InBounds ptr payload.length)
    {answer : Except GuestError α} {after : Machine γ}
    (huse : use ⟨ptr, UInt32.ofNat payload.length⟩ (m.withPayload ptr payload) = (answer, after))
    (deeds : List (Deed γ α)) :
    (m.watch deeds).place ptr payload (watchUse use) =
      (answer, after.watch (deeds ++
        [.used ⟨ptr, UInt32.ofNat payload.length⟩ answer (m.withPayload ptr payload) after])) := by
  have hwatched : (m.watch deeds).memory.InBounds ptr payload.length := hin
  rw [place_of_inBounds hlen hwatched]
  exact watchUse_watch_deeds huse deeds

variable [Guest γ]

/-- A hand-off whose allocation fails does nothing else. -/
theorem handOff_of_allocate_error (hlen : payload.length < UInt32.size) {e : GuestError}
    (h : Guest.call (.allocate (regionSize payload)) m = (.error e, granted)) :
    m.handOff payload use = (.error (.guest e), granted, []) := by
  rw [handOff_eq]
  simp only [length_le_maxLength hlen, if_true, h]

/-- A hand-off that gets no region does nothing else. -/
theorem handOff_of_null (hlen : payload.length < UInt32.size)
    (h : Guest.call (.allocate (regionSize payload)) m = (.ok 0, granted)) :
    m.handOff payload use = (.error (.outOfMemory (regionSize payload)), granted, []) := by
  rw [handOff_eq]
  simp only [length_le_maxLength hlen, if_true, h]

/-- A hand-off that gets a region places the payload in it and releases it, whatever came of that. -/
theorem handOff_of_region (hlen : payload.length < UInt32.size)
    (h : Guest.call (.allocate (regionSize payload)) m = (.ok ptr, granted)) (hptr : ptr ≠ 0)
    {answer : Except GuestError α} {released : Except GuestError Unit} {before last : Machine γ}
    (hplace : granted.place ptr payload use = (answer, before))
    (hrelease : Guest.call (.release ptr (regionSize payload)) before = (released, last)) :
    m.handOff payload use = ((settle answer released).1, last, (settle answer released).2) := by
  rw [handOff_eq]
  simp only [length_le_maxLength hlen, if_true, h, if_neg hptr, hplace, hrelease]

/-! ## The deeds of each way -/

/-- Where the allocation fails, it is the only deed. -/
theorem deeds_of_allocate_error (hlen : payload.length < UInt32.size) {e : GuestError}
    (h : Guest.call (.allocate (regionSize payload)) m = (.error e, granted)) :
    m.deeds payload use = [.called (.allocate (regionSize payload)) (.error e) m granted] := by
  unfold deeds
  rw [handOff_of_allocate_error hlen (call_watch_deeds h [])]
  rfl

/-- So it is where it gives the null pointer. -/
theorem deeds_of_null (hlen : payload.length < UInt32.size)
    (h : Guest.call (.allocate (regionSize payload)) m = (.ok 0, granted)) :
    m.deeds payload use = [.called (.allocate (regionSize payload)) (.ok 0) m granted] := by
  unfold deeds
  rw [handOff_of_null hlen (call_watch_deeds h [])]
  rfl

variable {released : Except GuestError Unit} {before last : Machine γ}

/-- Where the payload does not fit, its region is released and not used. -/
theorem deeds_of_outOfBounds (hlen : payload.length < UInt32.size)
    (h : Guest.call (.allocate (regionSize payload)) m = (.ok ptr, granted)) (hptr : ptr ≠ 0)
    (hout : ¬granted.memory.InBounds ptr payload.length)
    (hrelease : Guest.call (.release ptr (regionSize payload)) granted = (released, last)) :
    m.deeds payload use =
      [.called (.allocate (regionSize payload)) (.ok ptr) m granted,
        .called (.release ptr (regionSize payload)) released granted last] := by
  unfold deeds
  rw [handOff_of_region hlen (call_watch_deeds h []) hptr (place_of_outOfBounds hlen hout) (call_watch_deeds hrelease _)]
  rfl

/-- Where it fits, its region is used once and then released. -/
theorem deeds_of_inBounds (hlen : payload.length < UInt32.size)
    (h : Guest.call (.allocate (regionSize payload)) m = (.ok ptr, granted)) (hptr : ptr ≠ 0)
    (hin : granted.memory.InBounds ptr payload.length) {answer : Except GuestError α}
    (huse : use ⟨ptr, UInt32.ofNat payload.length⟩ (granted.withPayload ptr payload) = (answer, before))
    (hrelease : Guest.call (.release ptr (regionSize payload)) before = (released, last)) :
    m.deeds payload use =
      [.called (.allocate (regionSize payload)) (.ok ptr) m granted,
        .used ⟨ptr, UInt32.ofNat payload.length⟩ answer (granted.withPayload ptr payload) before,
        .called (.release ptr (regionSize payload)) released before last] := by
  unfold deeds
  rw [handOff_of_region hlen (call_watch_deeds h []) hptr (place_watch_deeds hlen hin huse _) (call_watch_deeds hrelease _)]
  rfl

/-! ## What always holds -/

omit [Guest γ] in
/-- The result is a value exactly if the use gave it and the region was taken back; of two errors it is the earlier one. -/
theorem settle_priority (answer : Except GuestError α) (released : Except GuestError Unit) :
    (∀ value, (settle answer released).1 = .ok value ↔ answer = .ok value ∧ released = .ok ()) ∧
      (∀ e, answer = .error e → (settle answer released).1 = .error (.guest e)) ∧
      (∀ value e, answer = .ok value → released = .error e → (settle answer released).1 = .error (.guest e)) := by
  rcases answer with e | value <;> rcases released with e' | _ <;> simp [settle]

/-- Whatever the guest does and whatever a payload is handed over for: one region is asked for, of the payload's size and at
least one byte. Where there is none, that is all that happens. Where there is one, it is released once, last, and before that
comes at most one use: it comes exactly if the region lies in memory, which then holds the payload there and is otherwise as the
allocation left it. The result is the value of the use if the release succeeded too; else it is the error of the copy or the use,
if there was one, and else that of the release. -/
theorem handOff_discipline (m : Machine γ) (hlen : payload.length < UInt32.size)
    (use : Slice → Machine γ → Except GuestError α × Machine γ) :
    let size := regionSize payload
    let slice := fun ptr => (⟨ptr, UInt32.ofNat payload.length⟩ : Slice)
    let allocated := (Guest.call (.allocate size) m).1
    let granted := (Guest.call (.allocate size) m).2
    let result := (m.handOff payload use).1
    let last := (m.handOff payload use).2.1
    size.toNat = max payload.length 1 ∧ (∀ ptr, (slice ptr).len.toNat = payload.length) ∧
      (∀ e, allocated = .error e → result = .error (.guest e) ∧ last = granted ∧
        m.deeds payload use = [.called (.allocate size) (.error e) m granted]) ∧
      (allocated = .ok 0 → result = .error (.outOfMemory size) ∧ last = granted ∧
        m.deeds payload use = [.called (.allocate size) (.ok 0) m granted]) ∧
      ∀ ptr, allocated = .ok ptr → ptr ≠ 0 →
        ∃ (used : List (Deed γ α)) (answer : Except GuestError α) (before : Machine γ) (released : Except GuestError Unit),
          m.deeds payload use =
            .called (.allocate size) (.ok ptr) m granted :: used ++ [.called (.release ptr size) released before last] ∧
          Guest.call (.release ptr size) before = (released, last) ∧
          (¬granted.memory.InBounds ptr payload.length →
            used = [] ∧ before = granted ∧ answer = .error (.bounds (granted.memory.outOfBounds ptr payload.length))) ∧
          (granted.memory.InBounds ptr payload.length →
            ∃ handed, used = [.used (slice ptr) answer handed before] ∧ use (slice ptr) handed = (answer, before) ∧
              Holds handed granted ptr payload) ∧
          (∀ value, result = .ok value ↔ answer = .ok value ∧ released = .ok ()) ∧
          (∀ e, answer = .error e → result = .error (.guest e)) ∧
          (∀ value e, answer = .ok value → released = .error e → result = .error (.guest e)) := by
  intro size slice allocated granted result last
  have hallocate : Guest.call (.allocate size) m = (allocated, granted) := rfl
  refine ⟨toNat_regionSize hlen, fun _ => UInt32.toNat_ofNat_of_lt' hlen, ?_, ?_, ?_⟩
  · intro e he
    rw [he] at hallocate
    have hresult : m.handOff payload use = _ := handOff_of_allocate_error hlen hallocate
    exact ⟨congrArg Prod.fst hresult, congrArg (·.2.1) hresult, deeds_of_allocate_error hlen hallocate⟩
  · intro hnull
    rw [hnull] at hallocate
    have hresult : m.handOff payload use = _ := handOff_of_null hlen hallocate
    exact ⟨congrArg Prod.fst hresult, congrArg (·.2.1) hresult, deeds_of_null hlen hallocate⟩
  · intro ptr hok hptr
    rw [hok] at hallocate
    by_cases hin : granted.memory.InBounds ptr payload.length
    · rcases huse : use (slice ptr) (granted.withPayload ptr payload) with ⟨answer, before⟩
      rcases hrelease : Guest.call (.release ptr size) before with ⟨released, after⟩
      have hresult := handOff_of_region hlen hallocate hptr ((place_of_inBounds hlen hin).trans huse) hrelease
      have hlast : last = after := congrArg (·.2.1) hresult
      have hvalue : result = (settle answer released).1 := congrArg Prod.fst hresult
      refine ⟨[.used (slice ptr) answer (granted.withPayload ptr payload) before], answer, before, released, ?_,
        hlast ▸ hrelease, fun hout => absurd hin hout, fun _ => ⟨_, rfl, huse, holds_withPayload hin⟩, ?_⟩
      · rw [hlast]
        exact deeds_of_inBounds hlen hallocate hptr hin huse hrelease
      · rw [hvalue]
        exact settle_priority answer released
    · rcases hrelease : Guest.call (.release ptr size) granted with ⟨released, after⟩
      have hresult : m.handOff payload use = _ :=
        handOff_of_region hlen hallocate hptr (place_of_outOfBounds hlen hin) hrelease
      have hlast : last = after := congrArg (·.2.1) hresult
      have hvalue : result = (settle (.error _) released).1 := congrArg Prod.fst hresult
      refine ⟨[], .error (.bounds (granted.memory.outOfBounds ptr payload.length)), granted, released, ?_,
        hlast ▸ hrelease, fun _ => ⟨rfl, rfl, rfl⟩, fun h => absurd h hin, ?_⟩
      · rw [hlast]
        exact deeds_of_outOfBounds hlen hallocate hptr hin hrelease
      · rw [hvalue]
        exact settle_priority _ released

end Ways

/-- Two bytes are handed over by a machine with room for them, and the program that they are is accepted. -/
theorem handOff_discipline_willing :
    let m : Machine Fixed := ⟨Memory.zeroed 4, {}, Fixed.willing⟩
    let use : Slice → Machine Fixed → Except GuestError Int32 × Machine Fixed :=
      fun slice m => Guest.call (.initRun slice.ptr slice.len) m
    [7, 8].length < UInt32.size ∧ (m.handOff [7, 8] use).1 = .ok 0 ∧
      ∃ answer handed before released last, Holds handed m 1 [7, 8] ∧
        m.deeds [7, 8] use = [.called (.allocate 2) (.ok 1) m m, .used ⟨1, 2⟩ answer handed before,
          .called (.release 1 2) released before last] := by
  intro m use
  have hlen : [(7 : UInt8), 8].length < UInt32.size := by decide
  obtain ⟨-, -, -, -, hregion⟩ := handOff_discipline m hlen use
  obtain ⟨used, answer, before, released, hdeeds, -, -, hin, -⟩ := hregion 1 rfl (by decide)
  obtain ⟨handed, rfl, -, hholds⟩ := hin (by decide)
  exact ⟨hlen, rfl, answer, handed, before, released, _, hholds, hdeeds⟩

/-! ## What goes along with a hand-off -/

/-- What goes along with every request for a region, every release of one and every write to memory, a hand-off goes along with, if
the use it is made for does. -/
theorem handOff_rel_of_regions [Guest γ] {Q : Machine γ → Machine γ → Prop} (hrefl : ∀ m, Q m m)
    (htrans : ∀ {m m' m''}, Q m m' → Q m' m'' → Q m m'') (hallocate : ∀ size m, Q m (Guest.call (.allocate size) m).2)
    (hrelease : ∀ ptr size m, Q m (Guest.call (.release ptr size) m).2)
    (hmemory : ∀ (m : Machine γ) memory, Q m { m with memory }) {use : Slice → Machine γ → Except GuestError α × Machine γ}
    (huse : ∀ slice m, Q m (use slice m).2) (m : Machine γ) (payload : List UInt8) : Q m (m.handOff payload use).2.1 := by
  rw [handOff_eq]
  by_cases hfit : payload.length ≤ Memory.maxLength
  · simp only [if_pos hfit]
    have hgranted := hallocate (regionSize payload) m
    generalize Guest.call (.allocate (regionSize payload)) m = granted at hgranted ⊢
    obtain ⟨e | ptr, m₁⟩ := granted
    · exact hgranted
    by_cases hptr : ptr = 0
    · simp only [if_pos hptr]
      exact hgranted
    simp only [if_neg hptr, place_eq]
    rcases m₁.memory.copyIn ptr payload with e | memory
    · exact htrans hgranted (hrelease _ _ _)
    · exact htrans hgranted (htrans (hmemory m₁ memory) (htrans (huse _ _) (hrelease _ _ _)))
  · simp only [if_neg hfit]
    exact hrefl m

/-- What every call and every write to memory go along with, a hand-off does, if the use it is made for does. -/
theorem handOff_rel [Guest γ] {Q : Machine γ → Machine γ → Prop} (hrefl : ∀ m, Q m m)
    (htrans : ∀ {m m' m''}, Q m m' → Q m' m'' → Q m m'') (hcall : ∀ e m, Q m (Guest.call e m).2)
    (hmemory : ∀ (m : Machine γ) memory, Q m { m with memory }) {use : Slice → Machine γ → Except GuestError α × Machine γ}
    (huse : ∀ slice m, Q m (use slice m).2) (m : Machine γ) (payload : List UInt8) : Q m (m.handOff payload use).2.1 :=
  handOff_rel_of_regions hrefl htrans (fun _ => hcall _) (fun _ _ => hcall _) hmemory huse m payload

end Machine

end Playground
