import NaoSoccer.Memory.BufferSeparation

/-!
# Nested stream buffers

Packing a list of buffers and taking the result apart gives buffers with the same contents, within
the limits that the code sets: fewer buffers than `combine` asserts, none larger than what
`VERIFY_RESIZE` lets through, and a total that fits `uint64_t`.

A tree of buffers is contracted from the leaves up, since `contract` drops what the children of its
children hold, and expanded from the root down.  Here the contracted size of every inner buffer has
to pass `VERIFY_RESIZE` as well.
-/

namespace NaoSoccer

namespace StreamBuffer

variable (fresh : ℕ → UInt8)

/-- Packing and taking apart, for any limit on the number of buffers. -/
lemma separate_combineBelow {limit : ℕ} {buffers : List StreamBuffer} (combined : StreamBuffer)
    (hlimit : buffers.length < limit) (hsize : ∀ b ∈ buffers, b.size ≤ 1000000000000)
    (hfit : (packed buffers).length < 2 ^ 64) :
    ∃ c, combineBelow fresh limit buffers combined = .ok c ∧
      separate fresh c [] = .ok (buffers.map fun b => ofBytes b.bytes) := by
  obtain ⟨c, hc, hbytes, -⟩ := combineBelow_eq fresh combined hlimit hfit
  exact ⟨c, hc, separate_packed fresh hbytes hsize hfit⟩

/-- Expanding a contracted buffer gives its children back. -/
lemma expand_contract {sb : StreamBuffer} (hlimit : sb.children.length < 0xFFFFFFFF)
    (hsize : ∀ b ∈ sb.children, b.size ≤ 1000000000000)
    (hfit : (packed sb.children).length < 2 ^ 64) :
    ∃ c e, sb.contract fresh = .ok c ∧ c.expand fresh = .ok e ∧
      e.children = sb.children.map fun b => ofBytes b.bytes := by
  obtain ⟨c, hc, hbytes, hchildren⟩ := contract_eq fresh sb hlimit hfit
  exact ⟨c, _, hc, expand_packed fresh hbytes hchildren hsize hfit, rfl⟩

end StreamBuffer

/-! ## Trees of buffers -/

/-- What a buffer stands for: bytes, or the buffers packed in it. -/
inductive BufferTree
  | leaf (bytes : List UInt8)
  | node (children : List BufferTree)

namespace StreamBuffer

mutual

/-- A buffer without children stands for its contents, any other for its children. -/
def tree : StreamBuffer → BufferTree
  | ⟨size, buffer, [], _⟩ => .leaf (buffer.take size)
  | ⟨_, _, c :: cs, _⟩ => .node (tree c :: trees cs)

/-- The trees of a list of buffers. -/
def trees : List StreamBuffer → List BufferTree
  | [] => []
  | c :: cs => tree c :: trees cs

end

mutual

/-- The bytes that a tree is contracted to. -/
def flat : StreamBuffer → List UInt8
  | ⟨size, buffer, [], _⟩ => buffer.take size
  | ⟨_, _, c :: cs, _⟩ =>
    ByteMemory.encode 8 (cs.length + 1) ++ (ByteMemory.encode 8 (flat c).length ++ flat c ++
      flats cs)

/-- The bytes that the trees of a list are contracted to, each with its size in front. -/
def flats : List StreamBuffer → List UInt8
  | [] => []
  | c :: cs => ByteMemory.encode 8 (flat c).length ++ flat c ++ flats cs

end

mutual

/-- Every inner buffer has fewer children than `combine` asserts, and every buffer but the root
passes `VERIFY_RESIZE` once it is contracted. -/
def Fits : StreamBuffer → Prop
  | ⟨_, _, [], _⟩ => True
  | ⟨_, _, c :: cs, _⟩ =>
    cs.length + 1 < 0xFFFFFFFF ∧ (flat c).length ≤ 1000000000000 ∧ Fits c ∧ AllFit cs

/-- The same for the trees of a list, whose roots are children. -/
def AllFit : List StreamBuffer → Prop
  | [] => True
  | c :: cs => (flat c).length ≤ 1000000000000 ∧ Fits c ∧ AllFit cs

end

section Trees

variable (fresh : ℕ → UInt8)

mutual

/-- A tree is contracted from the leaves up. -/
def contractTree : StreamBuffer → Except Fault StreamBuffer
  | ⟨size, buffer, [], h⟩ => .ok ⟨size, buffer, [], h⟩
  | ⟨size, buffer, c :: cs, h⟩ => do
    let c ← contractTree c
    let cs ← contractTrees cs
    contract fresh ⟨size, buffer, c :: cs, h⟩

/-- The trees of a list are contracted one after the other. -/
def contractTrees : List StreamBuffer → Except Fault (List StreamBuffer)
  | [] => .ok []
  | c :: cs => do
    let c ← contractTree c
    let cs ← contractTrees cs
    .ok (c :: cs)

end

mutual

/-- A contracted buffer is expanded from the root down.  Whoever expands knows which buffers have
children: the first argument shows the shape. -/
def expandTree : StreamBuffer → StreamBuffer → Except Fault StreamBuffer
  | ⟨_, _, [], _⟩, sb => .ok sb
  | ⟨_, _, c :: cs, _⟩, sb => do
    let sb ← sb.expand fresh
    match sb.children with
    | [] => .ok sb
    | d :: ds => do
      let d ← expandTree c d
      let ds ← expandTrees cs ds
      .ok { sb with children := d :: ds }

/-- The buffers of a list are expanded one after the other. -/
def expandTrees : List StreamBuffer → List StreamBuffer → Except Fault (List StreamBuffer)
  | c :: cs, d :: ds => do
    let d ← expandTree c d
    let ds ← expandTrees cs ds
    .ok (d :: ds)
  | _, ds => .ok ds

end

end Trees

variable (fresh : ℕ → UInt8)

/-- A contracted child as a buffer of its own. -/
def flatBuffer (t : StreamBuffer) : StreamBuffer := ofBytes t.flat

/-- The contracted trees of a list are the framed contracted children. -/
lemma flats_eq_frames (ts : List StreamBuffer) : flats ts = frames (ts.map flatBuffer) := by
  induction ts with
  | nil => rfl
  | cons t ts ih => simp [flats, ih, write, flatBuffer]

/-- A tree whose root has children is contracted to its packed contracted children. -/
lemma flat_node (size : ℕ) (buffer : List UInt8) (c : StreamBuffer) (cs : List StreamBuffer)
    (h : size ≤ buffer.length) :
    flat ⟨size, buffer, c :: cs, h⟩ = packed ((c :: cs).map flatBuffer) := by
  simp [flat, packed, flats_eq_frames, write, flatBuffer]

/-- Every contracted child of a fitting tree passes `VERIFY_RESIZE`. -/
lemma size_flatBuffer_le {ts : List StreamBuffer} (h : AllFit ts) :
    ∀ b ∈ ts.map flatBuffer, b.size ≤ 1000000000000 := by
  induction ts with
  | nil => simp
  | cons t ts ih =>
    obtain ⟨hlen, -, hrest⟩ := h
    simp only [List.map_cons, List.forall_mem_cons]
    exact ⟨by simpa [flatBuffer] using hlen, ih hrest⟩

mutual

/-- Contracting a fitting tree gives a buffer that holds the packed tree and has no children. -/
theorem contractTree_eq : ∀ t : StreamBuffer, t.Fits → t.flat.length < 2 ^ 64 →
    ∃ c, contractTree fresh t = .ok c ∧ c.bytes = t.flat ∧ c.children = []
  | ⟨size, buffer, [], h⟩, _, _ => ⟨⟨size, buffer, [], h⟩, by rw [contractTree], rfl, rfl⟩
  | ⟨size, buffer, c :: cs, h⟩, ⟨hcount, hlen, hc, hcs⟩, hfit => by
    have hc64 : c.flat.length < 2 ^ 64 := by omega
    obtain ⟨c', hc', hbytes, -⟩ := contractTree_eq c hc hc64
    obtain ⟨cs', hcs', hlength, hframes⟩ := contractTrees_eq cs hcs
    have hpacked : packed (c' :: cs') = flat ⟨size, buffer, c :: cs, h⟩ := by
      simp only [packed, List.length_cons, hlength, frames_cons, write, hframes, hbytes, flat,
        ← length_bytes c']
    obtain ⟨r, hr, hrbytes, hrchildren⟩ :=
      contract_eq fresh ⟨size, buffer, c' :: cs', h⟩
        (by simpa [hlength] using hcount) (by rwa [hpacked])
    refine ⟨r, ?_, hrbytes.trans hpacked, hrchildren⟩
    simp only [contractTree, hc', hcs', Outcome.ok_bind, hr]

/-- Contracting the trees of a list gives as many buffers, which together hold the packed trees. -/
theorem contractTrees_eq : ∀ ts : List StreamBuffer, AllFit ts →
    ∃ cs, contractTrees fresh ts = .ok cs ∧ cs.length = ts.length ∧ frames cs = flats ts
  | [], _ => ⟨[], by rw [contractTrees], rfl, rfl⟩
  | t :: ts, ⟨hlen, ht, hts⟩ => by
    have ht64 : t.flat.length < 2 ^ 64 := by omega
    obtain ⟨c, hc, hbytes, -⟩ := contractTree_eq t ht ht64
    obtain ⟨cs, hcs, hlength, hframes⟩ := contractTrees_eq ts hts
    refine ⟨c :: cs, ?_, by simp [hlength], ?_⟩
    · simp only [contractTrees, hc, hcs, Outcome.ok_bind]
    · simp only [frames_cons, write, hframes, hbytes, flats, ← length_bytes c]

end

mutual

/-- Expanding a buffer that holds a packed tree restores the tree. -/
theorem expandTree_eq : ∀ t : StreamBuffer, t.Fits → t.flat.length < 2 ^ 64 →
    ∀ sb : StreamBuffer, sb.bytes = t.flat → sb.children = [] →
      ∃ e, expandTree fresh t sb = .ok e ∧ e.tree = t.tree
  | ⟨size, buffer, [], h⟩, _, _, ⟨size', buffer', children', h'⟩, hbytes, hchildren => by
    subst hchildren
    exact ⟨⟨size', buffer', [], h'⟩, by rw [expandTree], congrArg BufferTree.leaf hbytes⟩
  | ⟨size, buffer, c :: cs, h⟩, ⟨hcount, hlen, hc, hcs⟩, hfit, sb, hbytes, hchildren => by
    have hall : AllFit (c :: cs) := ⟨hlen, hc, hcs⟩
    have hexpand := expand_packed fresh (hbytes.trans (flat_node ..)) hchildren
      (size_flatBuffer_le hall) (by rwa [flat_node] at hfit)
    have hc64 : c.flat.length < 2 ^ 64 := by omega
    obtain ⟨d, hd, hdtree⟩ := expandTree_eq c hc hc64 (flatBuffer c) (by simp [flatBuffer]) rfl
    obtain ⟨ds, hds, hdstrees⟩ := expandTrees_eq cs hcs
    have hsame : ∀ t : StreamBuffer, ofBytes (flatBuffer t).bytes = flatBuffer t := by
      simp [flatBuffer]
    refine ⟨⟨0, [], d :: ds, le_rfl⟩, ?_, by simp only [tree, hdtree, hdstrees]⟩
    simp only [expandTree, hexpand, List.map_cons, List.map_map, Function.comp_def, hsame, Outcome.ok_bind, hd, hds]

/-- The same for the trees of a list. -/
theorem expandTrees_eq : ∀ ts : List StreamBuffer, AllFit ts →
    ∃ es, expandTrees fresh ts (ts.map flatBuffer) = .ok es ∧ trees es = trees ts
  | [], _ => ⟨[], by rw [List.map_nil, expandTrees]; simp, rfl⟩
  | t :: ts, ⟨hlen, ht, hts⟩ => by
    have ht64 : t.flat.length < 2 ^ 64 := by omega
    obtain ⟨d, hd, hdtree⟩ := expandTree_eq t ht ht64 (flatBuffer t) (by simp [flatBuffer]) rfl
    obtain ⟨ds, hds, hdstrees⟩ := expandTrees_eq ts hts
    refine ⟨d :: ds, ?_, by simp only [trees, hdtree, hdstrees]⟩
    simp only [List.map_cons, expandTrees, hd, hds, Outcome.ok_bind]

end

/-! ## Losslessness -/

/-- `combine` followed by `separate` gives back the sizes and the contents of the buffers. -/
def Lossless (fresh : ℕ → UInt8)
    (combine : List StreamBuffer → StreamBuffer → Except Fault StreamBuffer)
    (buffers : List StreamBuffer) : Prop :=
  ∀ combined, ∃ c separated, combine buffers combined = .ok c ∧
    separate fresh c [] = .ok separated ∧
    separated.map size = buffers.map size ∧ separated.map bytes = buffers.map bytes

/-- `contract` followed by `expand` gives back the sizes and the contents of the children. -/
def ChildrenRestored (fresh : ℕ → UInt8) (sb : StreamBuffer) : Prop :=
  ∃ c e, sb.contract fresh = .ok c ∧ c.expand fresh = .ok e ∧
    e.children.map size = sb.children.map size ∧ e.children.map bytes = sb.children.map bytes

/-- Contracting a tree from the leaves up and expanding it from the root down restores the tree. -/
def TreeRestored (fresh : ℕ → UInt8) (t : StreamBuffer) : Prop :=
  ∃ c e, contractTree fresh t = .ok c ∧ c.children = [] ∧ expandTree fresh t c = .ok e ∧
    e.tree = t.tree

/-- Below its limit `combine` is lossless. -/
lemma lossless_combineBelow {limit : ℕ} {buffers : List StreamBuffer}
    (hlimit : buffers.length < limit) (hsize : ∀ b ∈ buffers, b.size ≤ 1000000000000)
    (hfit : (packed buffers).length < 2 ^ 64) :
    Lossless fresh (combineBelow fresh limit) buffers := by
  intro combined
  obtain ⟨c, hc, hsep⟩ := separate_combineBelow fresh combined hlimit hsize hfit
  exact ⟨c, _, hc, hsep, by simp [Function.comp_def], by simp [Function.comp_def]⟩

/-- **Nesting stream buffers is lossless within the limits of the code.**  Buffers of at most
`10 ^ 12` bytes are packed and taken apart without loss: fewer than `0xFFFFFF` of them in a vector,
fewer than `0xFFFFFFFF` of a total below `2 ^ 64` in a list.  The same limits make `expand` after
`contract` restore the children of a buffer, and a whole tree of any depth, if every inner buffer
below the root is contracted to at most `10 ^ 12` bytes. -/
theorem streamBuffer_nesting_lossless (fresh : ℕ → UInt8) :
    (∀ buffers : List StreamBuffer, buffers.length < 0xFFFFFF →
      (∀ b ∈ buffers, b.size ≤ 1000000000000) →
        Lossless fresh (combineVector fresh) buffers) ∧
    (∀ buffers : List StreamBuffer, buffers.length < 0xFFFFFFFF →
      (∀ b ∈ buffers, b.size ≤ 1000000000000) → (packed buffers).length < 2 ^ 64 →
        Lossless fresh (combineList fresh) buffers) ∧
    (∀ sb : StreamBuffer, sb.children.length < 0xFFFFFFFF →
      (∀ b ∈ sb.children, b.size ≤ 1000000000000) → (packed sb.children).length < 2 ^ 64 →
        ChildrenRestored fresh sb) ∧
    (∀ t : StreamBuffer, t.Fits → t.flat.length < 2 ^ 64 → TreeRestored fresh t) := by
  refine ⟨fun buffers hlimit hsize => ?_, fun buffers hlimit hsize hfit => ?_,
    fun sb hlimit hsize hfit => ?_, fun t hfits hfit => ?_⟩
  · have hle := length_packed_le hsize
    exact lossless_combineBelow fresh hlimit hsize (by omega)
  · exact lossless_combineBelow fresh hlimit hsize hfit
  · obtain ⟨c, e, hc, he, hchildren⟩ := expand_contract fresh hlimit hsize hfit
    refine ⟨c, e, hc, he, ?_, ?_⟩ <;> simp [hchildren, Function.comp_def]
  · obtain ⟨c, hc, hbytes, hchildren⟩ := contractTree_eq fresh t hfits hfit
    obtain ⟨e, he, htree⟩ := expandTree_eq fresh t hfits hfit c hbytes hchildren
    exact ⟨c, e, hc, hchildren, he, htree⟩

/-- Two buffers, one of them empty, through both versions of `combine` and as a small tree. -/
theorem streamBuffer_nesting_lossless_small (fresh : ℕ → UInt8) :
    Lossless fresh (combineVector fresh) [ofBytes [1, 2], empty] ∧
      Lossless fresh (combineList fresh) [ofBytes [1, 2], empty] ∧
      ChildrenRestored fresh ⟨0, [], [ofBytes [1, 2], empty], le_rfl⟩ ∧
      TreeRestored fresh ⟨0, [], [⟨0, [], [ofBytes [1, 2]], le_rfl⟩, empty], le_rfl⟩ := by
  have h := streamBuffer_nesting_lossless fresh
  exact ⟨h.1 _ (by decide) (by decide), h.2.1 _ (by decide) (by decide) (by decide),
    h.2.2.1 _ (by decide) (by decide) (by decide),
    h.2.2.2 _ ⟨by decide, by decide, ⟨by decide, by decide, trivial, trivial⟩, by decide, trivial,
      trivial⟩ (by decide)⟩

/-- A single buffer that `VERIFY_RESIZE` rejects is taken apart to an empty one. -/
lemma expand_packed_invalid {sb b : StreamBuffer} (hbytes : sb.bytes = packed [b])
    (hchildren : sb.children = []) (hsize : b.size < 2 ^ 64) (hinvalid : ¬ ValidRequest b.size) :
    sb.expand fresh = .ok ⟨0, [], [empty], le_rfl⟩ := by
  have hmem : sb.buffer = packed [b] ++ sb.buffer.drop sb.size := by
    rw [← hbytes, bytes, List.take_append_drop]
  let f : Frame := ⟨b.size, [], hsize, by rw [if_neg hinvalid]; rfl⟩
  have hbuffer : sb.buffer = ByteMemory.encode 8 1 ++ [f].flatMap Frame.write ++
      (b.bytes ++ sb.buffer.drop sb.size) := by
    refine hmem.trans ?_
    simp [packed, write, Frame.write, f]
  have hseparate := separate_frames fresh [] (by decide : 1 < 2 ^ 64) rfl hbuffer (by simp [f])
  rw [expand, hchildren, hseparate]
  rfl

/-- The tree of three levels whose only leaf holds the given bytes. -/
def nested (data : List UInt8) : StreamBuffer :=
  ⟨0, [], [⟨0, [], [ofBytes data], empty.size_le⟩], empty.size_le⟩

/-- A leaf is contracted to its contents. -/
lemma flat_ofBytes (data : List UInt8) : (ofBytes data).flat = data := List.take_length

/-- A leaf of `10 ^ 12` bytes passes `VERIFY_RESIZE`, its contracted parent does not: expanding the
root leaves the parent empty, and expanding the parent reads behind its memory. -/
lemma expandTree_nested {data : List UInt8} (hdata : data.length = 1000000000000) :
    ∃ c, contractTree fresh (nested data) = .ok c ∧
      expandTree fresh (nested data) c = .error .outOfBounds := by
  set inner : StreamBuffer := ⟨0, [], [ofBytes data], le_rfl⟩ with hinner
  have hflat : inner.flat.length = 1000000000016 := by
    simp [hinner, flat_node, flatBuffer, flat_ofBytes, hdata]
  have hfits : inner.Fits :=
    ⟨by simp, by rw [flat_ofBytes, hdata], trivial, trivial⟩
  obtain ⟨d, hd, hdbytes, -⟩ := contractTree_eq fresh inner hfits (by omega)
  have hdsize : d.size = 1000000000016 := by rw [← length_bytes, hdbytes, hflat]
  obtain ⟨c, hc, hcbytes, hcchildren⟩ := contract_eq fresh ⟨0, [], [d], le_rfl⟩
    (by simp) (by simp [hdsize])
  have hexpand := expand_packed_invalid fresh hcbytes hcchildren (by omega)
    (by unfold ValidRequest; omega)
  refine ⟨c, ?_, ?_⟩
  · simp only [nested, ← hinner, contractTree, contractTrees, hd, Outcome.ok_bind, hc]
  · simp only [nested, ← hinner, expandTree, hexpand, Outcome.ok_bind]
    rw [hinner, expandTree]
    rfl

/-- Empty buffers are packed into eight bytes each. -/
lemma length_packed_replicate (n : ℕ) : (packed (List.replicate n empty)).length = 8 + n * 8 := by
  simp [length_packed, length_frames, empty]

/-- From its limit on `combine` is not lossless, whatever the buffers are. -/
lemma not_lossless_of_limit {limit : ℕ} {buffers : List StreamBuffer}
    (hlimit : limit ≤ buffers.length) : ¬ Lossless fresh (combineBelow fresh limit) buffers := by
  intro h
  obtain ⟨c, -, hc, -⟩ := h empty
  rw [combineBelow_assertion _ _ hlimit] at hc
  exact nomatch hc

/-- `0xFFFFFF` empty buffers fail the assertion of `combine` for vectors and `0xFFFFFFFF` that for
lists, and a tree of three levels whose leaf has `10 ^ 12` bytes is not restored. -/
theorem streamBuffer_nesting_limits :
    let vector := List.replicate 0xFFFFFF empty
    let list := List.replicate 0xFFFFFFFF empty
    (∀ b ∈ vector ++ list, b.size ≤ 1000000000000) ∧
      (packed vector).length < 2 ^ 64 ∧ (packed list).length < 2 ^ 64 ∧
      ¬ Lossless (fun _ => 0) (combineVector fun _ => 0) vector ∧
      ¬ Lossless (fun _ => 0) (combineList fun _ => 0) list ∧
      ¬ TreeRestored (fun _ => 0) (nested (List.replicate 1000000000000 0)) := by
  refine ⟨fun b hb => ?_, ?_, ?_, ?_, ?_, fun h => ?_⟩
  · rw [← List.replicate_add] at hb
    rw [List.eq_of_mem_replicate hb]
    exact Nat.zero_le _
  · rw [length_packed_replicate]
    omega
  · rw [length_packed_replicate]
    omega
  · exact not_lossless_of_limit _ (by rw [List.length_replicate])
  · exact not_lossless_of_limit _ (by rw [List.length_replicate])
  · obtain ⟨c, e, hc, -, he, -⟩ := h
    obtain ⟨c', hc', he'⟩ := expandTree_nested (fun _ => 0)
      (List.length_replicate : (List.replicate 1000000000000 (0 : UInt8)).length = _)
    obtain rfl : c' = c := Except.ok.inj (hc'.symm.trans hc)
    rw [he'] at he
    exact nomatch he

end StreamBuffer

end NaoSoccer
