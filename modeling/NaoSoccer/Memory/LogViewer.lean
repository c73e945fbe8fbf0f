import NaoSoccer.Common.FixedWidth
import NaoSoccer.Memory.LogRoundTrip
import Mathlib.Data.Finset.Card
import Mathlib.Data.Finset.Range
import Mathlib.Data.Finset.Filter

/-!
# Log viewers

A `LogViewer` shows the frames of a log from `start` to `finish`.  The constructor, `size` and
`getFrame` use three different limits: `finish` counts as missing if it is not positive, `size` is
the difference of two `int`s as a `size_t`, and `getFrame` only looks whether the frame, an `int`
after an addition of `unsigned int`s, is in the log.  The three agree only if the viewer shows the
whole log.

A `CachedLogViewer` keeps the frames that it has read.  Signed arithmetic that overflows is taken to
wrap.
-/

namespace NaoSoccer

/-- A viewer of a log. -/
structure LogViewer where
  reader : LogReader
  mdata : LogMetadata
  start : ℤ
  finish : ℤ

/-- A viewer that keeps the frames it has read. -/
structure CachedLogViewer (Content : BlockClass → Type) extends LogViewer where
  cache : Std.TreeMap ℤ (MemoryFrame Content)

namespace LogViewer

variable {Content : BlockClass → Type} (codec : BlockCodec Content) (fresh : ℕ → UInt8)

/-- The constructor; it throws if the reader does. -/
def openLog (directory : LogDirectory) (start finish : ℤ) : Option LogViewer := do
  let reader ← LogReader.openLog directory
  let mdata := reader.mdata
  some ⟨reader, mdata, start,
    if finish > 0 then min (toInt32 (toInt32 mdata.frames - 1)) finish
    else toInt32 (toUInt32 ((mdata.frames : ℤ) - 1))⟩

/-- `size`. -/
def size (lv : LogViewer) : ℕ := toSizeT (toInt32 (lv.finish - lv.start + 1))

/-- The number of the frame in the log for an index of the viewer. -/
def frameOf (lv : LogViewer) (idx : ℕ) : ℤ := toInt32 (idx + lv.start)

/-- `getFrame`: the frame of an index, or nothing where it throws. -/
def getFrame (lv : LogViewer) (idx : ℕ) :
    Except Fault (Option (MemoryFrame Content) × LogViewer) :=
  let frame := lv.frameOf idx
  if toUInt32 frame ≥ lv.mdata.frames ∨ frame < 0 then .ok (none, lv)
  else do
    let (memory, reader) ← lv.reader.readFrame codec fresh frame
    .ok (some memory, { lv with reader := reader })

/-- The indices that `getFrame` does not reject. -/
def Contains (lv : LogViewer) (idx : ℕ) : Prop :=
  toUInt32 (lv.frameOf idx) < lv.mdata.frames ∧ 0 ≤ lv.frameOf idx

/-- An index that is not rejected is read. -/
lemma getFrame_of_contains {lv : LogViewer} {idx : ℕ} (h : lv.Contains idx) :
    lv.getFrame codec fresh idx = (do
      let (memory, reader) ← lv.reader.readFrame codec fresh (lv.frameOf idx)
      .ok (some memory, { lv with reader := reader })) :=
  if_neg (not_or.mpr ⟨Nat.not_le.mpr h.1, Int.not_lt.mpr h.2⟩)

/-- For an index that is rejected nothing happens. -/
lemma getFrame_of_not_contains {lv : LogViewer} {idx : ℕ} (h : ¬ lv.Contains idx) :
    lv.getFrame codec fresh idx = .ok (none, lv) := by
  refine if_pos ?_
  by_contra hread
  obtain ⟨hframe, hnonneg⟩ := not_or.mp hread
  exact h ⟨Nat.not_le.mp hframe, Int.not_lt.mp hnonneg⟩

/-- An index that is not rejected is not answered like one that is. -/
lemma getFrame_ne_of_contains {lv : LogViewer} {idx : ℕ} (h : lv.Contains idx) :
    lv.getFrame codec fresh idx ≠ .ok (none, lv) := by
  rw [getFrame_of_contains codec fresh h]
  intro hread
  obtain ⟨result, -, hresult⟩ := Outcome.bind_eq_ok_iff.mp hread
  exact nomatch (Prod.mk.inj (Except.ok.inj hresult)).1

/-! ## The window of a viewer -/

/-- The viewer is a window on the log: it has as many frames as there are in the log from `start` to
`finish`, and shows each of them and nothing else. -/
def ShowsWindow (lv : LogViewer) (start finish : ℤ) : Prop :=
  lv.size = ((Finset.range lv.mdata.frames).filter fun i : ℕ => start ≤ i ∧ i ≤ finish).card ∧
    ∀ idx < 2 ^ 32, lv.getFrame codec fresh idx =
      if idx < lv.size then do
        let (memory, reader) ← lv.reader.readFrame codec fresh (start + idx)
        .ok (some memory, { lv with reader := reader })
      else .ok (none, lv)

/-- What the constructor makes of its arguments. -/
lemma eq_of_openLog {directory : LogDirectory} {start finish : ℤ} {lv : LogViewer}
    (h : openLog directory start finish = some lv) :
    lv.start = start ∧ lv.finish = if finish > 0 then
        min (toInt32 (toInt32 lv.mdata.frames - 1)) finish
      else toInt32 (toUInt32 ((lv.mdata.frames : ℤ) - 1)) := by
  simp only [openLog, Option.bind_eq_bind, Option.bind_eq_some_iff, Option.some.injEq] at h
  obtain ⟨reader, -, rfl⟩ := h
  exact ⟨rfl, rfl⟩

/-- The stream of a viewer that has been opened has not failed. -/
lemma failed_of_openLog {directory : LogDirectory} {start finish : ℤ} {lv : LogViewer}
    (h : openLog directory start finish = some lv) : lv.reader.logFile.failed = false := by
  simp only [openLog, LogReader.openLog, Option.bind_eq_bind, Option.bind_eq_some_iff,
    Option.some.injEq] at h
  obtain ⟨reader, ⟨saved, -, mdata, -, rfl⟩, rfl⟩ := h
  rfl

/-- In a log that `int` can count, the window ends with the log unless it ends before. -/
lemma finish_of_openLog {directory : LogDirectory} {start finish : ℤ} {lv : LogViewer}
    (h : openLog directory start finish = some lv) (hframes : lv.mdata.frames < 2 ^ 31) :
    lv.finish = if finish > 0 then min (lv.mdata.frames - 1 : ℤ) finish
      else lv.mdata.frames - 1 := by
  have hframes' : toInt32 lv.mdata.frames = lv.mdata.frames := toInt32_eq (by omega) (by omega)
  have hlast : toInt32 (toUInt32 ((lv.mdata.frames : ℤ) - 1)) = lv.mdata.frames - 1 := by
    rcases Nat.eq_zero_or_pos lv.mdata.frames with hzero | hpos
    · rw [hzero]
      decide +kernel
    · have hcast : ((lv.mdata.frames : ℤ) - 1) = (lv.mdata.frames - 1 : ℕ) := by omega
      rw [hcast, toUInt32_eq (by omega), toInt32_eq (by omega) (by omega)]
  rw [(eq_of_openLog h).2, hframes', toInt32_eq (by omega) (by omega), hlast]

/-- The frame of an index that fits `int`, in a viewer from the start of the log. -/
lemma frameOf_eq {lv : LogViewer} (hstart : lv.start = 0) {idx : ℕ} (h : idx < 2 ^ 31) :
    lv.frameOf idx = idx := by
  rw [frameOf, hstart, add_zero]
  exact toInt32_eq (by omega) (by omega)

/-- From the start of the log, `getFrame` rejects exactly the indices that are not in the log. -/
lemma contains_iff {lv : LogViewer} (hstart : lv.start = 0) (hframes : lv.mdata.frames < 2 ^ 31)
    {idx : ℕ} (hidx : idx < 2 ^ 32) : lv.Contains idx ↔ idx < lv.mdata.frames := by
  rcases Nat.lt_or_ge idx (2 ^ 31) with hsmall | hlarge
  · rw [Contains, frameOf_eq hstart hsmall, toUInt32_eq hidx]
    omega
  · have hframe : lv.frameOf idx = idx - 2 ^ 32 := by
      rw [frameOf, hstart, add_zero]
      exact toInt32_of_ge (by omega) (by omega)
    rw [Contains, hframe]
    omega

/-- A viewer of a whole log shows its window. -/
lemma showsWindow_of_whole {lv : LogViewer} {finish : ℤ} (hstart : lv.start = 0)
    (hfinish : lv.finish = lv.mdata.frames - 1) (hlast : (lv.mdata.frames : ℤ) ≤ finish + 1)
    (hframes : lv.mdata.frames < 2 ^ 31) : lv.ShowsWindow codec fresh 0 finish := by
  have hsize : lv.size = lv.mdata.frames := by
    rw [size, hstart, hfinish, toInt32_eq (by omega) (by omega)]
    have hcast : (lv.mdata.frames : ℤ) - 1 - 0 + 1 = (lv.mdata.frames : ℕ) := by omega
    rw [hcast, toSizeT_eq (by omega)]
  refine ⟨?_, fun idx hidx => ?_⟩
  · have hall : (Finset.range lv.mdata.frames).filter (fun i : ℕ => (0 : ℤ) ≤ i ∧ i ≤ finish) =
        Finset.range lv.mdata.frames := by
      refine Finset.filter_true_of_mem fun i hi => ?_
      have hlt := Finset.mem_range.mp hi
      omega
    rw [hall, Finset.card_range, hsize]
  · rw [hsize]
    split
    · rename_i hlt
      rw [getFrame_of_contains codec fresh ((contains_iff hstart hframes hidx).mpr hlt),
        frameOf_eq hstart (by omega), zero_add]
    · rename_i hge
      exact getFrame_of_not_contains codec fresh
        (mt (contains_iff hstart hframes hidx).mp hge)

/-- The frames of a window are not more than the numbers from `start` to `finish`. -/
lemma card_window_le (frames : ℕ) (start : ℤ) {finish : ℤ} (hfinish : 0 ≤ finish) :
    (((Finset.range frames).filter fun i : ℕ => start ≤ i ∧ i ≤ finish).card : ℤ) ≤
      finish + 1 := by
  have hsub : (Finset.range frames).filter (fun i : ℕ => start ≤ i ∧ i ≤ finish) ⊆
      Finset.range (finish.toNat + 1) := by
    intro i hi
    have hle := (Finset.mem_filter.mp hi).2.2
    rw [Finset.mem_range]
    omega
  have hcard := Finset.card_le_card hsub
  rw [Finset.card_range] at hcard
  omega

/-- A viewer that does not start with the log does not show its window: an index that wraps around
reaches the first frame, and the size of an empty log is negative. -/
lemma not_showsWindow_of_start {directory : LogDirectory} {start finish : ℤ} {lv : LogViewer}
    (hopen : openLog directory start finish = some lv) (hstart : 0 < start)
    (hstart' : start < 2 ^ 31) (hfinish : 0 ≤ finish) (hfinish' : finish < 2 ^ 31) :
    ¬ lv.ShowsWindow codec fresh start finish := by
  rintro ⟨hsize, hget⟩
  have hcard := card_window_le lv.mdata.frames start hfinish
  rw [← hsize] at hcard
  rcases Nat.eq_zero_or_pos lv.mdata.frames with hzero | hpos
  · have hlast := finish_of_openLog hopen (by omega)
    have hempty : lv.size = 0 := by rw [hsize, hzero]; rfl
    have hend : lv.finish = -1 := by
      rw [hlast, hzero]
      split <;> omega
    rw [size, (eq_of_openLog hopen).1, hend, toInt32_eq (by omega) (by omega)] at hempty
    unfold toSizeT at hempty
    omega
  · have hframe : lv.frameOf (2 ^ 32 - start).toNat = 0 := by
      have hsum : (((2 ^ 32 - start).toNat : ℕ) : ℤ) + start = 2 ^ 32 := by omega
      rw [frameOf, (eq_of_openLog hopen).1, hsum]
      decide +kernel
    have hcontains : lv.Contains (2 ^ 32 - start).toNat := by
      rw [Contains, hframe]
      exact ⟨by simpa [toUInt32] using hpos, le_rfl⟩
    have hidx := hget (2 ^ 32 - start).toNat (by omega)
    rw [if_neg (by omega)] at hidx
    exact getFrame_ne_of_contains codec fresh hcontains hidx

/-- The frames from the start of the log to `finish`, if the log does not end before. -/
lemma card_window_eq {frames : ℕ} {finish : ℤ} (hfinish : 0 ≤ finish) (hlt : finish < frames) :
    ((Finset.range frames).filter fun i : ℕ => (0 : ℤ) ≤ i ∧ i ≤ finish).card =
      finish.toNat + 1 := by
  have hcount : (Finset.range frames).filter (fun i : ℕ => (0 : ℤ) ≤ i ∧ i ≤ finish) =
      Finset.range (finish.toNat + 1) := by
    ext i
    simp only [Finset.mem_filter, Finset.mem_range]
    omega
  rw [hcount, Finset.card_range]

/-- No viewer has the size `2 ^ 31`. -/
lemma size_ne (lv : LogViewer) : lv.size ≠ 2 ^ 31 := by
  obtain ⟨hlo, hhi⟩ := toInt32_mem (lv.finish - lv.start + 1)
  unfold size toSizeT
  omega

/-- A viewer that ends before the log does not show its window: the frame behind the end is
shown. -/
lemma not_showsWindow_of_finish {lv : LogViewer} {finish : ℤ} (hstart : lv.start = 0)
    (hfinish : 0 ≤ finish) (hfinish' : finish < 2 ^ 31 - 1) (hlt : finish + 1 < lv.mdata.frames) :
    ¬ lv.ShowsWindow codec fresh 0 finish := by
  rintro ⟨hsize, hget⟩
  rw [card_window_eq hfinish (by omega)] at hsize
  have hframe : lv.frameOf (finish.toNat + 1) = (finish.toNat + 1 : ℕ) :=
    frameOf_eq hstart (by omega)
  have hcontains : lv.Contains (finish.toNat + 1) := by
    rw [Contains, hframe, toUInt32_eq (by omega)]
    omega
  have hidx := hget (finish.toNat + 1) (by omega)
  rw [if_neg (by omega)] at hidx
  exact getFrame_ne_of_contains codec fresh hcontains hidx

/-- **A viewer shows its window exactly if the window is the whole log**: it starts with the first
frame, does not end before the last one, and the log has fewer than `2 ^ 31` frames. -/
theorem showsWindow_iff {directory : LogDirectory} {start finish : ℤ} {lv : LogViewer}
    (hopen : openLog directory start finish = some lv) (hstart : 0 ≤ start)
    (hstart' : start < 2 ^ 31) (hfinish : 0 ≤ finish) (hfinish' : finish < 2 ^ 31)
    (hframes : lv.mdata.frames < 2 ^ 32) :
    lv.ShowsWindow codec fresh start finish ↔
      start = 0 ∧ (lv.mdata.frames : ℤ) ≤ finish + 1 ∧ lv.mdata.frames < 2 ^ 31 := by
  constructor
  · intro h
    have hzero : start = 0 := by
      by_contra hne
      exact not_showsWindow_of_start codec fresh hopen (by omega) hstart' hfinish hfinish' h
    subst hzero
    have hfirst := (eq_of_openLog hopen).1
    have hend : finish < 2 ^ 31 - 1 ∨ lv.mdata.frames < 2 ^ 31 := by
      by_contra hlarge
      have hsize := h.1
      rw [card_window_eq hfinish (by omega)] at hsize
      exact lv.size_ne (by omega)
    have hlast : (lv.mdata.frames : ℤ) ≤ finish + 1 := by
      by_contra hlt
      exact not_showsWindow_of_finish codec fresh hfirst hfinish (by omega) (by omega) h
    exact ⟨rfl, hlast, by omega⟩
  · rintro ⟨rfl, hlast, hsmall⟩
    have hend : lv.finish = lv.mdata.frames - 1 := by
      rw [finish_of_openLog hopen hsmall]
      split <;> omega
    exact showsWindow_of_whole codec fresh (eq_of_openLog hopen).1 hend hlast hsmall

/-- A log of two frames. -/
def twoFrames : LogDirectory := ⟨[], [], some ⟨2, [0, 0]⟩⟩

/-- A viewer that ends with the log shows its window. -/
theorem showsWindow_twoFrames : ∃ lv, openLog twoFrames 0 1 = some lv ∧
    lv.ShowsWindow flatCodec (fun _ => 0) 0 1 :=
  ⟨_, rfl, (showsWindow_iff flatCodec (fun _ => 0) (rfl : openLog twoFrames 0 1 = some _) (by decide)
    (by decide) (by decide) (by decide) (by decide)).mpr ⟨rfl, by decide, by decide⟩⟩

/-- **A window that ends with frame `0`** is taken for the whole log. -/
theorem not_showsWindow_twoFrames : ∃ lv, openLog twoFrames 0 0 = some lv ∧ lv.size = 2 ∧
    ¬ lv.ShowsWindow flatCodec (fun _ => 0) 0 0 := by
  have hsize : ∀ lv, openLog twoFrames 0 0 = some lv → lv.size = 2 := by
    intro lv hlv
    obtain rfl := Option.some.inj hlv
    decide +kernel
  refine ⟨_, rfl, hsize _ rfl, fun h => ?_⟩
  have hcard := h.1
  rw [hsize _ rfl] at hcard
  exact absurd hcard (by decide)

end LogViewer

namespace CachedLogViewer

variable {Content : BlockClass → Type} (codec : BlockCodec Content) (fresh : ℕ → UInt8)

/-- The constructor: that of the viewer, and an empty cache. -/
def openLog (directory : LogDirectory) (start finish : ℤ) : Option (CachedLogViewer Content) := do
  let lv ← LogViewer.openLog directory start finish
  some ⟨lv, ∅⟩

/-- `getFrame`: a frame that is not in the cache is read and put there. -/
def getFrame (lv : CachedLogViewer Content) (idx : ℕ) :
    Except Fault (MemoryFrame Content × CachedLogViewer Content) :=
  let frame := lv.frameOf idx
  match lv.cache[frame]? with
  | some memory => .ok (memory, lv)
  | none => do
    let (memory, reader) ← lv.reader.readFrame codec fresh frame
    .ok (memory, { lv with reader := reader, cache := lv.cache.insert frame memory })

end CachedLogViewer

end NaoSoccer
