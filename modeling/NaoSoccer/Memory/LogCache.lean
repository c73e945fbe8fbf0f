import NaoSoccer.Memory.LogIsolation
import NaoSoccer.Memory.LogViewer

/-!
# The cache of a log viewer

A `CachedLogViewer` is meant to answer like a `LogViewer`, only faster.  It does not check the
index, and what it keeps of a frame is what was read the first time; a `LogViewer` reads the frame
again, and for a broken record what it gets depends on what was read before.

So the two are compared over runs: every index lies in the log, and either no frame is asked for
twice, so that the cache is never used, or the records of all frames that are asked for are intact,
so that reading them again gives the same.
-/

namespace NaoSoccer

variable {Content : BlockClass → Type} (codec : BlockCodec Content) (fresh : ℕ → UInt8)

/-- The state of a viewer after calls of `getFrame`, whether they throw or not. -/
def LogViewer.getFrames (lv : LogViewer) : List ℕ → Except Fault LogViewer
  | [] => .ok lv
  | idx :: indices => do
    let (_, lv) ← lv.getFrame codec fresh idx
    lv.getFrames indices

namespace CachedLogViewer

/-- The state of a viewer with a cache after calls of `getFrame`. -/
def getFrames (cv : CachedLogViewer Content) : List ℕ → Except Fault (CachedLogViewer Content)
  | [] => .ok cv
  | idx :: indices => do
    let (_, cv) ← cv.getFrame codec fresh idx
    cv.getFrames indices

/-- Both viewers have the same answer to an index: the same frame, or both throw. -/
def Agrees (lv : LogViewer) (cv : CachedLogViewer Content) (idx : ℕ) : Prop :=
  (cv.getFrame codec fresh idx).map (fun result => some result.1) =
    (lv.getFrame codec fresh idx).map Prod.fst

/-- The viewers never agree on an index that is not in the log: only one of them throws. -/
theorem contains_of_agrees {lv : LogViewer} {cv : CachedLogViewer Content} {idx : ℕ}
    (h : Agrees codec fresh lv cv idx) : lv.Contains idx := by
  by_contra hnot
  rw [Agrees, LogViewer.getFrame_of_not_contains codec fresh hnot] at h
  cases hread : cv.getFrame codec fresh idx with
  | error fault =>
    rw [hread] at h
    exact nomatch h
  | ok result =>
    rw [hread] at h
    exact nomatch Except.ok.inj h

/-- What makes the viewers agree on the next index and is kept by it makes them agree after any
number of them. -/
lemma agrees_of_step {I : LogViewer → CachedLogViewer Content → List ℕ → Prop}
    (hstep : ∀ lv cv i rest, I lv cv (i :: rest) → Agrees codec fresh lv cv i ∧
      ∀ result result', lv.getFrame codec fresh i = .ok result →
        cv.getFrame codec fresh i = .ok result' → I result.2 result'.2 rest)
    {lv lv' : LogViewer} {cv cv' : CachedLogViewer Content} {earlier : List ℕ} {idx : ℕ}
    (h : I lv cv (earlier ++ [idx])) (hrun : lv.getFrames codec fresh earlier = .ok lv')
    (hrun' : cv.getFrames codec fresh earlier = .ok cv') : Agrees codec fresh lv' cv' idx := by
  induction earlier generalizing lv cv with
  | nil =>
    obtain rfl := Except.ok.inj hrun
    obtain rfl := Except.ok.inj hrun'
    exact (hstep lv cv idx [] h).1
  | cons i earlier ih =>
    obtain ⟨result, hresult, hrest⟩ := Outcome.bind_eq_ok_iff.mp hrun
    obtain ⟨result', hresult', hrest'⟩ := Outcome.bind_eq_ok_iff.mp hrun'
    exact ih ((hstep lv cv i _ h).2 result result' hresult hresult') hrest hrest'

/-- A frame that is not in the cache is read. -/
lemma getFrame_miss {cv : CachedLogViewer Content} {idx : ℕ}
    (h : cv.cache[cv.frameOf idx]? = none) : cv.getFrame codec fresh idx = (do
      let (memory, reader) ← cv.reader.readFrame codec fresh (cv.frameOf idx)
      .ok (memory, { cv with
        reader := reader
        cache := cv.cache.insert (cv.frameOf idx) memory })) := by
  unfold getFrame
  simp only [h]

/-- A frame that is in the cache is taken from there. -/
lemma getFrame_hit {cv : CachedLogViewer Content} {idx : ℕ} {memory : MemoryFrame Content}
    (h : cv.cache[cv.frameOf idx]? = some memory) :
    cv.getFrame codec fresh idx = .ok (memory, cv) := by
  unfold getFrame
  simp only [h]

/-! ## No frame is asked for twice -/

/-- The viewers have read the same frames, and none of those to come is in the cache. -/
structure Fresh (lv : LogViewer) (cv : CachedLogViewer Content) (rest : List ℕ) : Prop where
  viewer_eq : cv.toLogViewer = lv
  contains : ∀ i ∈ rest, lv.Contains i
  nodup : (rest.map lv.frameOf).Nodup
  cache_eq : ∀ i ∈ rest, cv.cache[lv.frameOf i]? = none

/-- Without repetitions the viewers agree. -/
lemma Fresh.step {lv : LogViewer} {cv : CachedLogViewer Content} {i : ℕ} {rest : List ℕ}
    (h : Fresh lv cv (i :: rest)) : Agrees codec fresh lv cv i ∧
      ∀ result result', lv.getFrame codec fresh i = .ok result →
        cv.getFrame codec fresh i = .ok result' → Fresh result.2 result'.2 rest := by
  obtain rfl := h.viewer_eq
  have hmiss := getFrame_miss codec fresh (h.cache_eq i (by simp))
  have hread := LogViewer.getFrame_of_contains codec fresh (h.contains i (by simp))
  obtain ⟨hnew, hnodup⟩ := List.nodup_cons.mp h.nodup
  refine ⟨?_, fun result result' hresult hresult' => ?_⟩
  · rw [Agrees, hmiss, hread]
    cases cv.reader.readFrame codec fresh (cv.frameOf i) <;> rfl
  · rw [hread] at hresult
    rw [hmiss] at hresult'
    obtain ⟨⟨memory, reader⟩, hframe, hok⟩ := Outcome.bind_eq_ok_iff.mp hresult
    rw [hframe] at hresult'
    obtain rfl := Except.ok.inj hok
    obtain rfl := Except.ok.inj hresult'
    refine ⟨rfl, fun j hj => h.contains j (by simp [hj]), hnodup, fun j hj => ?_⟩
    have hne : cv.frameOf j ≠ cv.frameOf i := fun heq =>
      hnew (List.mem_map.mpr ⟨j, hj, heq⟩)
    have hcompare : ¬ compare (cv.frameOf i) (cv.frameOf j) = .eq :=
      fun heq => hne (Std.LawfulEqCmp.eq_of_compare heq).symm
    exact (Std.TreeMap.getElem?_insert.trans (if_neg hcompare)).trans
      (h.cache_eq j (by simp [hj]))

/-! ## All records are intact -/

/-- Both viewers can go on reading the log, and the cache holds the frames of intact records. -/
structure Sound (lr : LogReader) (lv : LogViewer) (cv : CachedLogViewer Content)
    (rest : List ℕ) : Prop where
  continues : LogReader.Continues lr lv.reader
  continues_cached : LogReader.Continues lr cv.reader
  start_eq : cv.start = lv.start
  contains : ∀ i ∈ rest, lv.Contains i
  holds : ∀ i ∈ rest, ∃ r, lr.Holds (lv.frameOf i) r
  cache_frame : ∀ frame memory, cv.cache[frame]? = some memory →
    ∀ r, lr.Holds frame r → r.frame codec lr frame = .ok memory

/-- Over intact records the viewers agree. -/
lemma Sound.step {lr : LogReader} {lv : LogViewer} {cv : CachedLogViewer Content} {i : ℕ}
    {rest : List ℕ} (h : Sound codec lr lv cv (i :: rest)) : Agrees codec fresh lv cv i ∧
      ∀ result result', lv.getFrame codec fresh i = .ok result →
        cv.getFrame codec fresh i = .ok result' → Sound codec lr result.2 result'.2 rest := by
  obtain ⟨r, hr⟩ := h.holds i (by simp)
  have hframeOf : cv.frameOf i = lv.frameOf i := by
    rw [LogViewer.frameOf, LogViewer.frameOf, h.start_eq]
  obtain ⟨reader, hreader, hread⟩ := LogReader.readFrame_holds codec fresh h.continues.failed_eq
    (h.continues.holds_iff.mpr hr)
  rw [h.continues.frame_eq] at hread
  have hplain := LogViewer.getFrame_of_contains codec fresh (h.contains i (by simp))
  rw [hread] at hplain
  have hreader' := h.continues.trans hreader
  cases hcache : cv.cache[cv.frameOf i]? with
  | some memory =>
    have hhit := getFrame_hit codec fresh hcache
    rw [hframeOf] at hcache
    have hmemory := h.cache_frame _ memory hcache r hr
    rw [hmemory] at hplain
    refine ⟨by rw [Agrees, hhit, hplain]; rfl, fun result result' hresult hresult' => ?_⟩
    obtain rfl := Except.ok.inj (hhit.symm.trans hresult')
    obtain rfl := Except.ok.inj (hplain.symm.trans hresult)
    exact ⟨hreader', h.continues_cached, h.start_eq, fun j hj => h.contains j (by simp [hj]),
      fun j hj => h.holds j (by simp [hj]), h.cache_frame⟩
  | none =>
    obtain ⟨readerC, hreaderC, hreadC⟩ := LogReader.readFrame_holds codec fresh
      h.continues_cached.failed_eq (h.continues_cached.holds_iff.mpr hr)
    rw [h.continues_cached.frame_eq] at hreadC
    have hmiss := getFrame_miss codec fresh hcache
    rw [hframeOf, hreadC] at hmiss
    cases hmemory : r.frame codec lr (lv.frameOf i) with
    | error fault =>
      rw [hmemory] at hplain hmiss
      refine ⟨by rw [Agrees, hmiss, hplain]; rfl, fun result result' hresult => ?_⟩
      exact absurd (hplain.symm.trans hresult) (by simp)
    | ok memory =>
      rw [hmemory] at hplain hmiss
      refine ⟨by rw [Agrees, hmiss, hplain]; rfl, fun result result' hresult hresult' => ?_⟩
      obtain rfl := Except.ok.inj (hmiss.symm.trans hresult')
      obtain rfl := Except.ok.inj (hplain.symm.trans hresult)
      refine ⟨hreader', h.continues_cached.trans hreaderC, h.start_eq,
        fun j hj => h.contains j (by simp [hj]), fun j hj => h.holds j (by simp [hj]), ?_⟩
      intro frame found hfound s hs
      rw [Std.TreeMap.getElem?_insert] at hfound
      split at hfound
      · rename_i hcompare
        obtain rfl := Std.LawfulEqCmp.eq_of_compare hcompare
        obtain rfl := Option.some.inj hfound
        have hunique := LogReader.frame_unique codec h.continues.failed_eq
          (h.continues.holds_iff.mpr hr) (h.continues.holds_iff.mpr hs)
        rw [h.continues.frame_eq, h.continues.frame_eq, hmemory] at hunique
        exact hunique.symm
      · exact h.cache_frame frame found hfound s hs

/-! ## Runs -/

/-- **A viewer with a cache answers like one without**, as long as every index lies in the log, and
either no frame is asked for twice or the records of all these frames are intact. -/
theorem agrees_after_getFrames {directory : LogDirectory} {start finish : ℤ}
    {lv lv' : LogViewer} {cv cv' : CachedLogViewer Content}
    (hlv : LogViewer.openLog directory start finish = some lv)
    (hcv : openLog directory start finish = some cv) {earlier : List ℕ} {idx : ℕ}
    (hcontains : ∀ i ∈ earlier ++ [idx], lv.Contains i)
    (h : ((earlier ++ [idx]).map lv.frameOf).Nodup ∨
      ∀ i ∈ earlier ++ [idx], ∃ r, lv.reader.Holds (lv.frameOf i) r)
    (hrun : lv.getFrames codec fresh earlier = .ok lv')
    (hrun' : cv.getFrames codec fresh earlier = .ok cv') : Agrees codec fresh lv' cv' idx := by
  obtain rfl : cv = ⟨lv, ∅⟩ := by
    rw [openLog, hlv] at hcv
    exact (Option.some.inj hcv).symm
  rcases h with hnodup | hholds
  · refine agrees_of_step codec fresh (I := Fresh) (fun lv cv i rest h => h.step codec fresh)
      ⟨rfl, hcontains, hnodup, fun _ _ => Std.TreeMap.getElem?_emptyc⟩ hrun hrun'
  · have hok : lv.reader.logFile.failed = false := LogViewer.failed_of_openLog hlv
    refine agrees_of_step codec fresh (I := Sound codec lv.reader)
      (fun lv cv i rest h => h.step codec fresh)
      ⟨⟨rfl, rfl, rfl, rfl, hok⟩, ⟨rfl, rfl, rfl, rfl, hok⟩, rfl, hcontains, hholds, ?_⟩ hrun hrun'
    intro frame memory hmemory
    exact nomatch Std.TreeMap.getElem?_emptyc.symm.trans hmemory

/-- A log whose first record is intact and whose second one has no length. -/
def odometryLog : LogDirectory :=
  ⟨[], LogReader.odometryReader.logFile.bytes, some LogReader.odometryReader.mdata⟩

/-- The viewers agree on the first frame of the log when it is asked for again. -/
theorem agrees_odometryLog : ∃ lv cv lv' cv', LogViewer.openLog odometryLog 0 (-1) = some lv ∧
    openLog odometryLog 0 (-1) = some cv ∧
    lv.getFrames flatCodec (fun _ => 0) [0] = .ok lv' ∧
    cv.getFrames flatCodec (fun _ => 0) [0] = .ok cv' ∧
    Agrees flatCodec (fun _ => 0) lv' cv' 0 := by
  let lv : LogViewer := ⟨LogReader.odometryReader, LogReader.odometryReader.mdata, 0,
    toInt32 (toUInt32 ((2 : ℤ) - 1))⟩
  let cv : CachedLogViewer fun _ => { bytes : List UInt8 // bytes.length < 2 ^ 31 } := ⟨lv, ∅⟩
  have hlv : LogViewer.openLog odometryLog 0 (-1) = some lv := rfl
  have hcv : openLog odometryLog 0 (-1) = some cv := rfl
  have hframe : lv.frameOf 0 = 0 := by decide +kernel
  have hcontains : lv.Contains 0 := by
    rw [LogViewer.Contains, hframe]
    decide +kernel
  have hok : (lv.getFrames flatCodec (fun _ => 0) [0]).isOk = true ∧
      (cv.getFrames flatCodec (fun _ => 0) [0]).isOk = true := by
    decide +kernel
  cases hrun : lv.getFrames flatCodec (fun _ => 0) [0] with
  | error fault =>
    rw [hrun] at hok
    exact nomatch hok.1
  | ok lv' =>
    cases hrun' : cv.getFrames flatCodec (fun _ => 0) [0] with
    | error fault =>
      rw [hrun'] at hok
      exact nomatch hok.2
    | ok cv' =>
      refine ⟨lv, cv, lv', cv', hlv, hcv, hrun, hrun',
        agrees_after_getFrames flatCodec _ hlv hcv ?_ (Or.inr ?_) hrun hrun'⟩
      · intro i hi
        obtain rfl : i = 0 := by simpa using hi
        exact hcontains
      · intro i hi
        obtain rfl : i = 0 := by simpa using hi
        rw [hframe]
        exact ⟨LogReader.odometryRecord, LogReader.holds_odometryReader⟩

/-- **An index that is not in the log**: the viewer throws, the viewer with a cache reads an offset
that is not there. -/
theorem not_agrees_emptyLog : ∃ lv cv, LogViewer.openLog ⟨[], [], some ⟨0, []⟩⟩ 0 (-1) = some lv ∧
    openLog ⟨[], [], some ⟨0, []⟩⟩ 0 (-1) = some cv ∧
    lv.getFrame flatCodec (fun _ => 0) 0 = .ok (none, lv) ∧
    (cv.getFrame flatCodec (fun _ => 0) 0).toOption = none ∧
    ¬ Agrees flatCodec (fun _ => 0) lv cv 0 := by
  let lv : LogViewer := ⟨⟨[], ⟨0, []⟩, .ofBytes [], .empty, []⟩, ⟨0, []⟩, 0,
    toInt32 (toUInt32 ((0 : ℤ) - 1))⟩
  have hnot : ¬ lv.Contains 0 := fun h => absurd h.1 (Nat.not_lt_zero _)
  have hfault : (⟨lv, ∅⟩ : CachedLogViewer _).getFrame flatCodec (fun _ => 0) 0 =
      .error .outOfBounds := by
    rw [getFrame_miss _ _ Std.TreeMap.getElem?_emptyc]
    rfl
  exact ⟨lv, ⟨lv, ∅⟩, rfl, rfl, LogViewer.getFrame_of_not_contains _ _ hnot, by rw [hfault]; rfl,
    mt (contains_of_agrees _ _) hnot⟩

end CachedLogViewer

end NaoSoccer
