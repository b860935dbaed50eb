import Mathlib.Algebra.Order.Floor.Semifield
import Mathlib.Data.Rat.Floor
import Playground.Proofs.Console.Alike

/-!
# Time that passes

Of a span the guest is told whole milliseconds, and only once the difference was taken (`TimeAnchor.toNat_elapsedMillis`). What
happens to guest time is a row of moments: a run begins, time passes, or the guest could ask what time it is. Along moments that
lead from one clock and anchor to others (`Moment.Elapse`), and for as long as the clock does not wrap around, the guest is told the
milliseconds that passed since the run began (`Moment.ago`).
-/

namespace Playground

/-! ## Spans -/

namespace Duration

/-- The span in milliseconds, with the fraction. -/
def millis (d : Duration) : ℚ := (d.nanoseconds : ℚ) / (1000000 : ℕ)

/-- A second has a thousand milliseconds, and a nanosecond is the millionth part of one. -/
theorem millis_ofParts (seconds nanoseconds : Nat) :
    (ofParts seconds nanoseconds).millis = seconds * 1000 + nanoseconds / 1000000 := by
  unfold millis ofParts
  push_cast
  ring

/-- A span that is short enough moves a clock by its whole milliseconds. -/
theorem counted_eq {d : Duration} (h : d.wholeMillis < UInt64.size) : d.counted = d.wholeMillis := by
  unfold counted
  omega

end Duration

namespace TimeAnchor

/-- What the guest is told, counted in nanoseconds. -/
theorem toNat_elapsedMillis_eq (a : TimeAnchor) (reading : Duration) :
    (a.elapsedMillis reading).toNat = min ((reading.nanoseconds - a.start.nanoseconds) / 1000000) maxMillis := by
  have hmax : maxMillis < UInt32.size := by decide
  exact UInt32.toNat_ofNat_of_lt' (by omega)

/-- The difference of the spans, none if it is negative, in milliseconds, without the fraction; or the greatest number there is. -/
theorem toNat_elapsedMillis (a : TimeAnchor) (reading : Duration) :
    (a.elapsedMillis reading).toNat = min ⌊max (reading.millis - a.start.millis) 0⌋₊ maxMillis := by
  have hspan : max (reading.millis - a.start.millis) 0 =
      ((reading.nanoseconds - a.start.nanoseconds : ℕ) : ℚ) / (1000000 : ℕ) := by
    unfold Duration.millis
    rw [← sub_div]
    obtain hle | hle := Nat.le_total a.start.nanoseconds reading.nanoseconds
    · rw [Nat.cast_sub hle, max_eq_left]
      exact div_nonneg (sub_nonneg.mpr (Nat.cast_le.mpr hle)) (Nat.cast_nonneg _)
    · rw [Nat.sub_eq_zero_of_le hle, Nat.cast_zero, zero_div, max_eq_right]
      exact div_nonpos_of_nonpos_of_nonneg (sub_nonpos.mpr (Nat.cast_le.mpr hle)) (Nat.cast_nonneg _)
  rw [hspan, Nat.floor_div_eq_div, toNat_elapsedMillis_eq]

/-- A later reading tells no less. -/
theorem elapsedMillis_mono (a : TimeAnchor) {reading reading' : Duration} (h : reading.nanoseconds ≤ reading'.nanoseconds) :
    a.elapsedMillis reading ≤ a.elapsedMillis reading' := by
  rw [UInt32.le_iff_toNat_le, toNat_elapsedMillis_eq, toNat_elapsedMillis_eq]
  omega

end TimeAnchor

/-! ## Moments -/

/-- What guest time depends on. -/
structure Timer where
  clock : Clock
  anchor : TimeAnchor
  deriving DecidableEq, Repr

namespace Timer

/-- The time that a guest is told. -/
def millis (t : Timer) : UInt32 := t.anchor.elapsedMillis t.clock.now

/-- Lets time pass. -/
def advance (t : Timer) (d : Duration) : Timer := { t with clock := t.clock.advance d }

/-- Anchors guest time at the present reading. -/
def reset (t : Timer) : Timer := { t with anchor := ⟨t.clock.now⟩ }

end Timer

/-- What guest time depends on, at the bridge. -/
def Bridge.timer (b : Bridge) : Timer := ⟨b.clock, b.anchor⟩

/-- Something that happens to guest time. -/
inductive Moment where
  /-- Guest time begins anew. -/
  | begun
  /-- Time passes. -/
  | passed (d : Duration)
  /-- The guest is told the time, if it asks. -/
  | told (millis : UInt32)
  deriving DecidableEq, Repr

namespace Moment

/-- How long ago a run began after a moment, in whole milliseconds, if it was so long ago before it. -/
def later (ago : Nat) : Moment → Nat
  | .begun => 0
  | .passed d => ago + d.wholeMillis
  | .told _ => ago

/-- The whole milliseconds that passed since a run began last, or since the first of the moments if none did. -/
def ago (moments : List Moment) : Nat := moments.foldl later 0

/-- The whole milliseconds of a moment. -/
def spent : Moment → Nat
  | .passed d => d.wholeMillis
  | .begun | .told _ => 0

/-- The whole milliseconds of all moments together. -/
def total : List Moment → Nat
  | [] => 0
  | moment :: moments => moment.spent + total moments

theorem total_append (moments moments' : List Moment) : total (moments ++ moments') = total moments + total moments' := by
  induction moments with
  | nil => exact (Nat.zero_add _).symm
  | cons moment moments ih => rw [List.cons_append, total, total, ih, Nat.add_assoc]

/-- Where no run begins, the one there is began no less long ago afterwards. -/
theorem le_foldl_later {moments : List Moment} (h : .begun ∉ moments) (ago : Nat) : ago ≤ moments.foldl later ago := by
  induction moments generalizing ago with
  | nil => exact Nat.le_refl _
  | cons moment moments ih =>
    obtain ⟨hne, hrest⟩ := not_or.mp (mt List.mem_cons.mpr h)
    refine Nat.le_trans ?_ (ih hrest _)
    cases moment with
    | begun => exact absurd rfl hne
    | passed d => exact Nat.le_add_right _ _
    | told millis => exact Nat.le_refl _

/-- Moments lead from one clock and anchor to others; what the guest is told is what these tell. -/
inductive Elapse : Timer → List Moment → Timer → Prop where
  | nil (t : Timer) : Elapse t [] t
  | begun {t t' : Timer} {moments : List Moment} (h : Elapse t.reset moments t') : Elapse t (.begun :: moments) t'
  | passed {t t' : Timer} {moments : List Moment} {d : Duration} (h : Elapse (t.advance d) moments t') :
    Elapse t (.passed d :: moments) t'
  | told {t t' : Timer} {moments : List Moment} (h : Elapse t moments t') : Elapse t (.told t.millis :: moments) t'

variable {t t' t'' : Timer} {moments moments' : List Moment}

theorem Elapse.append (h : Elapse t moments t') (h' : Elapse t' moments' t'') : Elapse t (moments ++ moments') t'' := by
  induction h with
  | nil _ => exact h'
  | begun _ ih => exact .begun (ih h')
  | passed _ ih => exact .passed (ih h')
  | told _ ih => exact .told (ih h')

/-- Time can be halted at any moment. -/
theorem Elapse.split (h : Elapse t (moments ++ moments') t'') : ∃ t', Elapse t moments t' ∧ Elapse t' moments' t'' := by
  induction moments generalizing t with
  | nil => exact ⟨t, .nil t, h⟩
  | cons moment moments ih =>
    cases h with
    | begun h =>
      obtain ⟨t', hbefore, hafter⟩ := ih h
      exact ⟨t', .begun hbefore, hafter⟩
    | passed h =>
      obtain ⟨t', hbefore, hafter⟩ := ih h
      exact ⟨t', .passed hbefore, hafter⟩
    | told h =>
      obtain ⟨t', hbefore, hafter⟩ := ih h
      exact ⟨t', .told hbefore, hafter⟩

/-- A clock with so much time left knows after moments how long ago the run began. -/
theorem Elapse.anchored (h : Elapse t moments t') {ago left : Nat} (ht : t.clock.Anchored ago (left + total moments) t.anchor) :
    t'.clock.Anchored (moments.foldl later ago) left t'.anchor := by
  induction h generalizing ago with
  | nil t => exact ht
  | begun _ ih =>
    rw [total, spent, Nat.zero_add] at ht
    exact ih (.now ht.left)
  | told _ ih =>
    rw [total, spent, Nat.zero_add] at ht
    exact ih ht
  | @passed t t' moments d _ ih =>
    rw [total, spent] at ht
    have hshort : d.wholeMillis < UInt64.size := by
      have hleft := ht.left
      omega
    rw [← Duration.counted_eq hshort, Nat.add_comm d.counted, ← Nat.add_assoc] at ht
    rw [List.foldl_cons, later, ← Duration.counted_eq hshort]
    exact ih (ht.advance d)

/-- A clock that was just anchored tells after moments how long ago the run began. -/
theorem Elapse.millis_eq (h : Elapse t moments t') (hanchor : t.anchor = ⟨t.clock.now⟩)
    (hleft : t.clock.millis.toNat + total moments < UInt64.size) :
    t'.millis.toNat = min (ago moments) TimeAnchor.maxMillis := by
  have ht : t.clock.Anchored 0 (0 + total moments) t.anchor := by
    rw [hanchor, Nat.zero_add]
    exact .now hleft
  have hmax : TimeAnchor.maxMillis < UInt32.size := by decide
  rw [Timer.millis, (h.anchored ht).elapsedMillis_eq]
  exact UInt32.toNat_ofNat_of_lt' (by omega)

/-- At any of the moments the guest is told how long ago the run began. -/
theorem Elapse.told_eq {before after : List Moment} {millis : UInt32} (h : Elapse t (before ++ .told millis :: after) t')
    (hanchor : t.anchor = ⟨t.clock.now⟩)
    (hleft : t.clock.millis.toNat + total (before ++ .told millis :: after) < UInt64.size) :
    millis.toNat = min (ago before) TimeAnchor.maxMillis := by
  obtain ⟨t₁, hbefore, htold⟩ := h.split
  rw [total_append] at hleft
  cases htold with
  | told _ => exact hbefore.millis_eq hanchor (by omega)

/-- Until guest time begins anew, the guest is never told less than before. -/
theorem Elapse.told_mono {before between after : List Moment} {millis millis' : UInt32}
    (h : Elapse t (before ++ .told millis :: between ++ .told millis' :: after) t') (hanchor : t.anchor = ⟨t.clock.now⟩)
    (hleft : t.clock.millis.toNat + total (before ++ .told millis :: between ++ .told millis' :: after) < UInt64.size)
    (hbetween : .begun ∉ between) : millis ≤ millis' := by
  have hsecond := h.told_eq hanchor hleft
  rw [List.append_assoc, List.cons_append] at h hleft
  have hfirst := h.told_eq hanchor hleft
  have hlater : ago before ≤ ago (before ++ .told millis :: between) := by
    rw [ago, ago, List.foldl_append, List.foldl_cons]
    exact le_foldl_later hbetween _
  rw [UInt32.le_iff_toNat_le, hfirst, hsecond]
  omega

end Moment

/-! ## What a guest does meanwhile -/

/-- The moments of uses: time passes where it is let, and in between, before and after all the guest could ask the time. -/
def Bridge.moments (b : Bridge) : List ConsoleUse → List Moment
  | [] => [.told b.elapsedMillis]
  | .wait d :: uses => .told b.elapsedMillis :: .passed d :: (b.use (.wait d)).moments uses
  | use :: uses => .told b.elapsedMillis :: (b.use use).moments uses

/-- Guest time does not begin anew while it is asked for, or passes. -/
theorem Bridge.begun_not_mem_moments (b : Bridge) (uses : List ConsoleUse) : .begun ∉ b.moments uses := by
  induction uses generalizing b with
  | nil => simp [moments]
  | cons use uses ih =>
    have hrest := ih (b.use use)
    cases use <;> simp [moments, hrest]

/-- No use gets at the anchor. -/
theorem Bridge.anchor_useAll (b : Bridge) (uses : List ConsoleUse) : (b.useAll uses).anchor = b.anchor := by
  induction uses generalizing b with
  | nil => rfl
  | cons use uses ih =>
    refine (ih (b.use use)).trans ?_
    cases use with
    | wait d => rfl
    | read room => rfl
    | write bytes => rfl

/-- The moments of uses lead from the clock and the anchor before them to those after them. -/
theorem Bridge.elapse_moments (b : Bridge) (uses : List ConsoleUse) :
    Moment.Elapse b.timer (b.moments uses) (b.useAll uses).timer := by
  induction uses generalizing b with
  | nil => exact .told (.nil _)
  | cons use uses ih =>
    have hrest := ih (b.use use)
    cases use with
    | wait d => exact .told (.passed hrest)
    | read room => exact .told hrest
    | write bytes => exact .told hrest

end Playground
