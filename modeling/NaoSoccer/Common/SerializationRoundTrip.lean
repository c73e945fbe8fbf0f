import NaoSoccer.Common.BinarySerializable

/-!
# Reading back a serialized object

Every member of an object is written as one child buffer whose contents depend on the member only,
its image.  Reading takes the images off in the same order and puts the members back together,
within the limits of the stream buffers: an object of at most `10 ^ 12` bytes, and fewer than
`0xFFFFFFFF` elements or members in every container and object.

Containers that are not vectors of primitives are read by appending, so the object that is read into
must start with empty ones.
-/

namespace NaoSoccer

open StreamBuffer

variable {C : Type} {layout : C → List (MemberType C)} (fresh : ℕ → UInt8)
  {construct : (c : C) → Members layout (layout c)}

/-! ## Images -/

/-- The packed form of buffers with the given contents. -/
def packedBytes (images : List (List UInt8)) : List UInt8 := packed (images.map ofBytes)

/-- Packing looks at the contents of the buffers only. -/
lemma packed_eq_packedBytes (buffers : List StreamBuffer) :
    packed buffers = packedBytes (buffers.map bytes) := by
  have hframes : frames buffers = frames ((buffers.map bytes).map ofBytes) := by
    induction buffers with
    | nil => rfl
    | cons b bs ih => simp [write, ih]
  simp only [packedBytes, packed, hframes, List.length_map]

/-- The packed form is longer than everything in it. -/
lemma length_le_packedBytes {images : List (List UInt8)} {image : List UInt8}
    (h : image ∈ images) : image.length ≤ (packedBytes images).length := by
  have hsize : image.length ∈ (images.map ofBytes).map size :=
    List.mem_map.mpr ⟨ofBytes image, List.mem_map_of_mem h, rfl⟩
  have hle := List.single_le_sum (fun n _ => Nat.zero_le n) _ hsize
  rw [packedBytes, length_packed, length_frames]
  omega

/-- Expanding a packed form gives buffers with the contents that were packed. -/
lemma expand_packedBytes {images : List (List UInt8)}
    (hfit : (packedBytes images).length ≤ 1000000000000) :
    (ofBytes (packedBytes images)).expand fresh =
      .ok ⟨0, [], images.map ofBytes, le_rfl⟩ := by
  have hsize : ∀ b ∈ images.map ofBytes, b.size ≤ 1000000000000 := by
    intro b hb
    obtain ⟨image, himage, rfl⟩ := List.mem_map.mp hb
    exact (length_le_packedBytes himage).trans hfit
  have hpacked : (packed (images.map ofBytes)).length < 2 ^ 64 := by
    unfold packedBytes at hfit
    omega
  have hexpand := expand_packed fresh (bytes_ofBytes (packedBytes images)) rfl hsize hpacked
  simpa [Function.comp_def] using hexpand

mutual

/-- The contents of the child buffer that a member is written to. -/
def Value.image : {t : MemberType C} → Value layout t → List UInt8
  | _, .primitive _ bytes _ => bytes
  | _, .string chars _ => chars ++ [0]
  | _, .vector (t := t) items => if t.isFundamental then items.data else packedBytes items.images
  | _, .list items => packedBytes items.images
  | _, .object members => packedBytes members.images
  | _, .null => packedBytes []
  | _, .pointer members => packedBytes members.images

/-- The images of the elements of a container. -/
def Items.images : {t : MemberType C} → Items layout t → List (List UInt8)
  | _, .nil => []
  | _, .cons v vs => v.image :: vs.images

/-- The images of the members of an object. -/
def Members.images : {ts : List (MemberType C)} → Members layout ts → List (List UInt8)
  | _, .nil => []
  | _, .cons v vs => v.image :: vs.images

end

/-- There is an image for every element. -/
@[simp] lemma Items.length_images : ∀ {t : MemberType C} (items : Items layout t),
    items.images.length = items.length
  | _, .nil => rfl
  | _, .cons _ vs => by simp [Items.images, Items.length, vs.length_images]

/-- There is an image for every member. -/
@[simp] lemma Members.length_images : ∀ {ts : List (MemberType C)} (members : Members layout ts),
    members.images.length = ts.length
  | _, .nil => rfl
  | _, .cons _ vs => by simp [Members.images, vs.length_images]

mutual

/-- No container or object has more children than `combine` asserts, and pointers point to objects
that have members. -/
def Value.Fits : {t : MemberType C} → Value layout t → Prop
  | _, .primitive .. => True
  | _, .string .. => True
  | _, .vector (t := t) items =>
    t.isFundamental = true ∨ (items.length < 0xFFFFFFFF ∧ items.Fits)
  | _, .list items => items.length < 0xFFFFFFFF ∧ items.Fits
  | _, .object (c := c) members => (layout c).length < 0xFFFFFFFF ∧ members.Fits
  | _, .null => True
  | _, .pointer (c := c) members =>
    layout c ≠ [] ∧ (layout c).length < 0xFFFFFFFF ∧ members.Fits

/-- The same for all elements of a container. -/
def Items.Fits : {t : MemberType C} → Items layout t → Prop
  | _, .nil => True
  | _, .cons v vs => v.Fits ∧ vs.Fits

/-- The same for all members of an object. -/
def Members.Fits : {ts : List (MemberType C)} → Members layout ts → Prop
  | _, .nil => True
  | _, .cons v vs => v.Fits ∧ vs.Fits

end

/-! ## Writing -/

/-- Adding bytes adds a child that holds them. -/
lemma add_eq {data : List UInt8} {n : ℕ} (buffer : StreamBuffer) (hn : n = data.length)
    (hsize : data.length ≤ 1000000000000) :
    buffer.add fresh data n =
      .ok { buffer with children := buffer.children ++ [ofBytes data] } := by
  have hread := read_piece fresh (ofBytes data) []
  rw [piece_eq (by simpa using hsize), bytes_ofBytes, size_ofBytes, List.append_nil] at hread
  rw [add, hn, hread, Outcome.ok_bind]

/-- Contracting a child packs what its children hold. -/
lemma pushContracted_eq {child : StreamBuffer} (parent : StreamBuffer)
    {images : List (List UInt8)} (himages : child.children.map bytes = images)
    (hlimit : images.length < 0xFFFFFFFF) (hfit : (packedBytes images).length ≤ 1000000000000) :
    ∃ c, pushContracted fresh child parent =
        .ok { parent with children := parent.children ++ [c] } ∧ c.bytes = packedBytes images := by
  have hpacked : packed child.children = packedBytes images := by
    rw [packed_eq_packedBytes, himages]
  have hlength : child.children.length = images.length := by rw [← himages, List.length_map]
  obtain ⟨c, hc, hbytes, -⟩ := contract_eq fresh child (by omega)
    (by rw [hpacked]; omega)
  exact ⟨c, by rw [pushContracted, hc, Outcome.ok_bind], hbytes.trans hpacked⟩

/-- The elements of a vector of primitives take `sizeof` bytes each. -/
lemma Items.length_data : ∀ {t : MemberType C} (items : Items layout t),
    t.isFundamental = true → items.data.length = items.length * t.width
  | _, .nil, _ => by simp [Items.data, Items.length]
  | _, .cons (.primitive p bytes h) vs, ht => by
    simp only [Items.data, Items.length, List.length_append, h, vs.length_data ht,
      MemberType.width]
    ring

mutual

/-- Writing a member adds one child, which holds the image of the member. -/
theorem serializeMember_eq : ∀ {t : MemberType C} (v : Value layout t), v.Fits →
    v.image.length ≤ 1000000000000 → ∀ buffer : StreamBuffer, ∃ child,
      serializeMember fresh v buffer =
        .ok { buffer with children := buffer.children ++ [child] } ∧ child.bytes = v.image
  | _, .primitive p bytes h, _, hsize, buffer =>
    ⟨ofBytes bytes, by rw [serializeMember, add_eq fresh buffer h.symm hsize], bytes_ofBytes _⟩
  | _, .string chars h, _, hsize, buffer => by
    have hlength : chars.length + 1 = (chars ++ [0]).length := by simp
    exact ⟨ofBytes (chars ++ [0]), by rw [serializeMember, add_eq fresh buffer hlength hsize],
      bytes_ofBytes _⟩
  | _, .vector (t := t) items, hfits, hsize, buffer => by
    rcases ht : t.isFundamental with _ | _
    · rw [Value.image, if_neg (by simp [ht])] at hsize ⊢
      obtain ⟨hlimit, hitems⟩ := hfits.resolve_left (by simp [ht])
      obtain ⟨child, hchild, himages⟩ := serializeItems_eq items hitems
        (fun image himage => (length_le_packedBytes himage).trans hsize) .empty
      obtain ⟨c, hc, hbytes⟩ := pushContracted_eq fresh buffer himages
        (by simpa [empty, ofBytes] using hlimit) hsize
      exact ⟨c, by rw [serializeMember, if_neg (by simp [ht]), hchild, Outcome.ok_bind, hc],
        hbytes⟩
    · rw [Value.image, if_pos ht] at hsize ⊢
      exact ⟨ofBytes items.data, by
        rw [serializeMember, if_pos ht, add_eq fresh buffer (items.length_data ht).symm hsize],
        bytes_ofBytes _⟩
  | _, .list items, hfits, hsize, buffer => by
    obtain ⟨hlimit, hitems⟩ := hfits
    obtain ⟨child, hchild, himages⟩ := serializeItems_eq items hitems
      (fun image himage => (length_le_packedBytes himage).trans hsize) .empty
    obtain ⟨c, hc, hbytes⟩ := pushContracted_eq fresh buffer himages
      (by simpa [empty, ofBytes] using hlimit) hsize
    exact ⟨c, by rw [serializeMember, hchild, Outcome.ok_bind, hc], hbytes⟩
  | _, .object members, hfits, hsize, buffer => by
    obtain ⟨hlimit, hmembers⟩ := hfits
    obtain ⟨child, hchild, himages⟩ := serializeMembers_eq members hmembers
      (fun image himage => (length_le_packedBytes himage).trans hsize) .empty
    obtain ⟨c, hc, hbytes⟩ := pushContracted_eq fresh buffer himages
      (by simpa [empty, ofBytes] using hlimit) hsize
    exact ⟨c, by rw [serializeMember, hchild, Outcome.ok_bind, hc], hbytes⟩
  | _, .null, _, hsize, buffer => by
    obtain ⟨c, hc, hbytes⟩ := pushContracted_eq fresh buffer
      (show empty.children.map bytes = [] from rfl) (by simp) hsize
    exact ⟨c, by rw [serializeMember, hc], hbytes⟩
  | _, .pointer members, hfits, hsize, buffer => by
    obtain ⟨-, hlimit, hmembers⟩ := hfits
    obtain ⟨child, hchild, himages⟩ := serializeMembers_eq members hmembers
      (fun image himage => (length_le_packedBytes himage).trans hsize) .empty
    obtain ⟨c, hc, hbytes⟩ := pushContracted_eq fresh buffer himages
      (by simpa [empty, ofBytes] using hlimit) hsize
    exact ⟨c, by rw [serializeMember, hchild, Outcome.ok_bind, hc], hbytes⟩

/-- Writing the elements of a container adds a child for each. -/
theorem serializeItems_eq : ∀ {t : MemberType C} (items : Items layout t), items.Fits →
    (∀ image ∈ items.images, image.length ≤ 1000000000000) → ∀ buffer : StreamBuffer, ∃ after,
      serializeItems fresh items buffer = .ok after ∧
        after.children.map bytes = buffer.children.map bytes ++ items.images
  | _, .nil, _, _, buffer => ⟨buffer, by rw [serializeItems], by simp [Items.images]⟩
  | _, .cons v vs, hfits, hsize, buffer => by
    obtain ⟨hv, hvs⟩ := hfits
    obtain ⟨hsizev, hsizevs⟩ := List.forall_mem_cons.mp hsize
    obtain ⟨child, hchild, hbytes⟩ := serializeMember_eq v hv hsizev buffer
    obtain ⟨after, hafter, himages⟩ := serializeItems_eq vs hvs hsizevs
      { buffer with children := buffer.children ++ [child] }
    exact ⟨after, by rw [serializeItems, hchild, Outcome.ok_bind, hafter], by
      simp [himages, hbytes, Items.images]⟩

/-- Writing the members of an object adds a child for each. -/
theorem serializeMembers_eq : ∀ {ts : List (MemberType C)} (members : Members layout ts),
    members.Fits → (∀ image ∈ members.images, image.length ≤ 1000000000000) →
      ∀ buffer : StreamBuffer, ∃ after, serializeMembers fresh members buffer = .ok after ∧
        after.children.map bytes = buffer.children.map bytes ++ members.images
  | _, .nil, _, _, buffer => ⟨buffer, by rw [serializeMembers], by simp [Members.images]⟩
  | _, .cons v vs, hfits, hsize, buffer => by
    obtain ⟨hv, hvs⟩ := hfits
    obtain ⟨hsizev, hsizevs⟩ := List.forall_mem_cons.mp hsize
    obtain ⟨child, hchild, hbytes⟩ := serializeMember_eq v hv hsizev buffer
    obtain ⟨after, hafter, himages⟩ := serializeMembers_eq vs hvs hsizevs
      { buffer with children := buffer.children ++ [child] }
    exact ⟨after, by rw [serializeMembers, hchild, Outcome.ok_bind, hafter], by
      simp [himages, hbytes, Members.images]⟩

end

/-! ## Reading -/

mutual

/-- The containers that are read by appending are empty. -/
def Value.Fresh : {t : MemberType C} → Value layout t → Prop
  | _, .vector (t := t) items => t.isFundamental = true ∨ items = .nil
  | _, .list items => items = .nil
  | _, .object members => members.Fresh
  | _, _ => True

/-- The same for all members of an object. -/
def Members.Fresh : {ts : List (MemberType C)} → Members layout ts → Prop
  | _, .nil => True
  | _, .cons v vs => v.Fresh ∧ vs.Fresh

end

mutual

/-- A bound on the number of calls that read a member. -/
def Value.cost : {t : MemberType C} → Value layout t → ℕ
  | _, .primitive .. => 1
  | _, .string .. => 1
  | _, .vector items => items.cost + 1
  | _, .list items => items.cost + 1
  | _, .object members => members.cost + 1
  | _, .null => 2
  | _, .pointer members => members.cost + 2

/-- The same for the elements of a container. -/
def Items.cost : {t : MemberType C} → Items layout t → ℕ
  | _, .nil => 1
  | _, .cons v vs => v.cost + vs.cost + 1

/-- The same for the members of an object. -/
def Members.cost : {ts : List (MemberType C)} → Members layout ts → ℕ
  | _, .nil => 1
  | _, .cons v vs => v.cost + vs.cost + 1

end

/-- Reading a member from buffers whose first child holds its image takes the child off. -/
def ReadsBack (fresh : ℕ → UInt8) (construct : (c : C) → Members layout (layout c))
    {t : MemberType C} (v : Value layout t) : Prop :=
  ∀ target : Value layout t, target.Fresh → ∀ fuel, v.cost ≤ fuel →
    ∀ (buffer : StreamBuffer) (rest : List StreamBuffer),
      buffer.children = ofBytes v.image :: rest →
        deserializeMember fresh construct fuel target buffer =
          some (v, { buffer with children := rest })

/-- The first child is taken off. -/
lemma popFront_eq {buffer child : StreamBuffer} {rest : List StreamBuffer}
    (h : buffer.children = child :: rest) :
    popFront buffer = some (child, { buffer with children := rest }) := by
  simp [popFront, h]

/-- A variable of the size of the first child gets its contents. -/
lemma copyTo_eq {buffer : StreamBuffer} {data dest : List UInt8} {rest : List StreamBuffer}
    (h : buffer.children = ofBytes data :: rest) (hlen : data.length = dest.length) :
    buffer.copyTo dest = some (data, { buffer with children := rest }) := by
  obtain ⟨size, mem, children, hsize⟩ := buffer
  obtain rfl : children = ofBytes data :: rest := h
  simp [copyTo, ofBytes, hlen]

/-- A vector of primitives is read back from its elements in memory. -/
lemma Items.ofData_data {t : MemberType C} (items : Items layout t)
    (ht : t.isFundamental = true) : Items.ofData t items.length items.data = items := by
  induction hlength : items.length generalizing items with
  | zero =>
    cases items with
    | nil => cases t <;> rfl
    | cons v vs => exact absurd hlength (Nat.succ_ne_zero _)
  | succ n ih =>
    cases items with
    | nil => exact absurd hlength.symm (Nat.succ_ne_zero _)
    | cons v vs =>
      obtain rfl := Nat.succ.inj hlength
      cases v with
      | primitive p bytes h =>
        simp [Items.data, Items.ofData, h, List.take_left', List.drop_left', ih vs rfl]
      | string => exact absurd ht Bool.false_ne_true
      | vector => exact absurd ht Bool.false_ne_true
      | list => exact absurd ht Bool.false_ne_true
      | object => exact absurd ht Bool.false_ne_true
      | null => exact absurd ht Bool.false_ne_true
      | pointer => exact absurd ht Bool.false_ne_true

/-- The size of a primitive is not zero. -/
lemma MemberType.width_pos {t : MemberType C} (ht : t.isFundamental = true) : 0 < t.width := by
  cases t with
  | primitive p => cases p <;> exact Nat.succ_pos _
  | string => exact nomatch ht
  | vector t => exact nomatch ht
  | list t => exact nomatch ht
  | object c => exact nomatch ht
  | pointer c => exact nomatch ht

/-- Appending nothing changes nothing. -/
lemma Items.append_nil : ∀ {t : MemberType C} (items : Items layout t), items.append .nil = items
  | _, .nil => rfl
  | _, .cons v vs => by rw [Items.append, vs.append_nil]

/-- Elements pushed back one by one end up in order. -/
lemma Items.pushBack_append : ∀ {t : MemberType C} (us : Items layout t) (v : Value layout t)
    (vs : Items layout t), (us.pushBack v).append vs = us.append (.cons v vs)
  | _, .nil, _, _ => rfl
  | _, .cons u us, v, vs => by
    rw [Items.pushBack, Items.append, Items.append, Items.append]
    exact congrArg _ (us.pushBack_append v vs)

/-- A new element has empty containers if the default constructors leave them empty. -/
lemma default_fresh (hconstruct : ∀ c, (construct c).Fresh) (t : MemberType C) :
    (default construct t).Fresh := by
  cases t with
  | primitive p => trivial
  | string => trivial
  | vector t => exact .inr rfl
  | list t => rfl
  | object c => exact hconstruct c
  | pointer c => trivial

mutual

/-- A member is read back from its image. -/
theorem deserializeMember_eq (hconstruct : ∀ c, (construct c).Fresh) :
    ∀ {t : MemberType C} (v : Value layout t), v.Fits → v.image.length ≤ 1000000000000 →
      ReadsBack fresh construct v
  | _, .primitive p bytes h, _, _ => by
    rintro target - (_ | fuel) hfuel buffer rest hbuffer
    · exact absurd hfuel (by simp [Value.cost])
    · cases target with
      | primitive p dest hdest =>
        have hcopy := copyTo_eq hbuffer (show bytes.length = dest.length from h.trans hdest.symm)
        rw [deserializeMember]
        split
        · rename_i hnone
          rw [hcopy] at hnone
          exact nomatch hnone
        · rename_i hsome
          rw [hcopy] at hsome
          obtain ⟨rfl, rfl⟩ := by simpa using hsome
          rfl
  | _, .string chars h, _, _ => by
    rintro target - (_ | fuel) hfuel buffer rest hbuffer
    · exact absurd hfuel (by simp [Value.cost])
    · cases target with
      | string dest hdest =>
        have hchars : ByteMemory.cString (ofBytes (chars ++ [0])).buffer = some chars := ByteMemory.cString_eq h
        rw [deserializeMember, popFront_eq hbuffer]
        simp only [Option.bind_eq_bind, Option.bind_some]
        split
        · rename_i hnone
          simp only [Value.image] at hnone
          rw [hchars] at hnone
          exact nomatch hnone
        · rename_i hsome
          simp only [Value.image] at hsome
          rw [hchars] at hsome
          obtain rfl := Option.some.inj hsome
          rfl
  | _, .vector (t := t) items, hfits, hsize => by
    rintro target htarget (_ | fuel) hfuel buffer rest hbuffer
    · exact absurd hfuel (by simp [Value.cost])
    · cases target with
      | vector before =>
        rw [deserializeMember, popFront_eq hbuffer]
        simp only [Option.bind_eq_bind, Option.bind_some, Value.image] at hsize ⊢
        rcases ht : t.isFundamental with _ | _
        · have hbefore : before = .nil := htarget.resolve_left (by simp [ht])
          obtain ⟨-, hitems⟩ := hfits.resolve_left (by simp [ht])
          simp only [ht, Bool.false_eq_true, if_false] at hsize ⊢
          rw [expand_packedBytes fresh hsize]
          have hread := deserializeItems_eq hconstruct items hitems
            (fun image himage => (length_le_packedBytes himage).trans hsize) before fuel
            (by simp only [Value.cost] at hfuel; omega)
            ⟨0, [], items.images.map ofBytes, le_rfl⟩ rfl
          rw [hbefore] at hread ⊢
          simp only [Except.toOption, Option.bind_some, hread, Items.append]
        · have hcount : items.data.length / t.width = items.length := by
            rw [items.length_data ht, Nat.mul_div_cancel _ (MemberType.width_pos ht)]
          simp only [if_true, size_ofBytes, bytes_ofBytes, hcount, items.ofData_data ht]
  | _, .list items, hfits, hsize => by
    rintro target htarget (_ | fuel) hfuel buffer rest hbuffer
    · exact absurd hfuel (by simp [Value.cost])
    · cases target with
      | list before =>
        obtain ⟨-, hitems⟩ := hfits
        have hbefore : before = .nil := htarget
        have hread := deserializeItems_eq hconstruct items hitems
          (fun image himage => (length_le_packedBytes himage).trans hsize) before fuel
          (by simp only [Value.cost] at hfuel; omega)
          ⟨0, [], items.images.map ofBytes, le_rfl⟩ rfl
        rw [hbefore] at hread ⊢
        rw [deserializeMember, popFront_eq hbuffer]
        simp only [Option.bind_eq_bind, Option.bind_some, Value.image] at hsize ⊢
        rw [expand_packedBytes fresh hsize]
        simp only [Except.toOption, Option.bind_some, hread, Items.append]
  | _, .object members, hfits, hsize => by
    rintro target htarget (_ | fuel) hfuel buffer rest hbuffer
    · exact absurd hfuel (by simp [Value.cost])
    · cases target with
      | object before =>
        obtain ⟨-, hmembers⟩ := hfits
        obtain ⟨after, hread⟩ := deserializeMembers_eq hconstruct members hmembers
          (fun image himage => (length_le_packedBytes himage).trans hsize) before htarget fuel
          (by simp only [Value.cost] at hfuel; omega)
          ⟨0, [], members.images.map ofBytes, le_rfl⟩ rfl
        rw [deserializeMember, popFront_eq hbuffer]
        simp only [Value.image] at hsize ⊢
        rw [expand_packedBytes fresh hsize]
        simp only [Except.toOption, Option.bind_eq_bind, Option.bind_some, hread]
  | _, .null (c := c), _, hsize => by
    rintro target - (_ | _ | fuel) hfuel buffer rest hbuffer
    · exact absurd hfuel (by simp [Value.cost])
    · exact absurd hfuel (by simp [Value.cost])
    · have hread : deserializePointer fresh construct (fuel + 1) c buffer =
          some (.null, { buffer with children := rest }) := by
        rw [deserializePointer, popFront_eq hbuffer]
        simp only [Value.image] at hsize ⊢
        rw [expand_packedBytes fresh hsize]
        simp [Except.toOption]
      cases target with
      | null => rw [deserializeMember, hread]
      | pointer before => rw [deserializeMember, hread]
  | _, .pointer members, hfits, hsize => by
    rintro target - (_ | _ | fuel) hfuel buffer rest hbuffer
    · exact absurd hfuel (by simp [Value.cost])
    · exact absurd hfuel (by simp [Value.cost])
    · obtain ⟨hne, -, hmembers⟩ := hfits
      have himages : members.images ≠ [] := by
        rw [← List.length_pos_iff, members.length_images]
        exact List.length_pos_iff.mpr hne
      obtain ⟨after, hafter⟩ := deserializeMembers_eq hconstruct members hmembers
        (fun image himage => (length_le_packedBytes himage).trans hsize) _ (hconstruct _) fuel
        (by simp only [Value.cost] at hfuel; omega)
        ⟨0, [], members.images.map ofBytes, le_rfl⟩ rfl
      have hread : deserializePointer fresh construct (fuel + 1) _ buffer =
          some (.pointer members, { buffer with children := rest }) := by
        rw [deserializePointer, popFront_eq hbuffer]
        simp only [Value.image] at hsize ⊢
        rw [expand_packedBytes fresh hsize]
        simp [Except.toOption, himages, hafter]
      cases target with
      | null => rw [deserializeMember, hread]
      | pointer before => rw [deserializeMember, hread]

/-- The elements of a container are read back and appended. -/
theorem deserializeItems_eq (hconstruct : ∀ c, (construct c).Fresh) :
    ∀ {t : MemberType C} (items : Items layout t), items.Fits →
    (∀ image ∈ items.images, image.length ≤ 1000000000000) →
    ∀ (before : Items layout t) (fuel : ℕ), items.cost ≤ fuel →
      ∀ buffer : StreamBuffer, buffer.children = items.images.map ofBytes →
        deserializeItems fresh construct fuel before buffer = some (before.append items)
  | _, .nil, _, _, before, fuel, hfuel, buffer, hbuffer => by
    obtain ⟨fuel, rfl⟩ : ∃ n, fuel = n + 1 := ⟨fuel - 1, by simp only [Items.cost] at hfuel; omega⟩
    simp only [Items.images, List.map_nil] at hbuffer
    rw [deserializeItems, hbuffer, before.append_nil]
  | t, .cons v vs, hfits, hsize, before, fuel, hfuel, buffer, hbuffer => by
    obtain ⟨hv, hvs⟩ := hfits
    obtain ⟨hsizev, hsizevs⟩ := List.forall_mem_cons.mp hsize
    simp only [Items.cost] at hfuel
    obtain ⟨fuel, rfl⟩ : ∃ n, fuel = n + 1 := ⟨fuel - 1, by omega⟩
    simp only [Items.images, List.map_cons] at hbuffer
    have hitem := deserializeMember_eq hconstruct v hv hsizev (default construct t)
      (default_fresh hconstruct t) fuel (by omega) buffer _ hbuffer
    have hrest := deserializeItems_eq hconstruct vs hvs hsizevs (before.pushBack v) fuel (by omega)
      { buffer with children := vs.images.map ofBytes } rfl
    rw [deserializeItems, hbuffer]
    simp only [Option.bind_eq_bind, hitem, Option.bind_some, hrest, Items.pushBack_append]

/-- The members of an object are read back. -/
theorem deserializeMembers_eq (hconstruct : ∀ c, (construct c).Fresh) :
    ∀ {ts : List (MemberType C)} (members : Members layout ts), members.Fits →
    (∀ image ∈ members.images, image.length ≤ 1000000000000) →
    ∀ target : Members layout ts, target.Fresh → ∀ fuel, members.cost ≤ fuel →
      ∀ buffer : StreamBuffer, buffer.children = members.images.map ofBytes →
        ∃ after, deserializeMembers fresh construct fuel target buffer = some (members, after)
  | _, .nil, _, _, .nil, _, fuel, hfuel, buffer, _ => by
    obtain ⟨fuel, rfl⟩ : ∃ n, fuel = n + 1 :=
      ⟨fuel - 1, by simp only [Members.cost] at hfuel; omega⟩
    exact ⟨buffer, by rw [deserializeMembers]⟩
  | _, .cons v vs, hfits, hsize, .cons w ws, htarget, fuel, hfuel, buffer, hbuffer => by
    obtain ⟨hv, hvs⟩ := hfits
    obtain ⟨hw, hws⟩ := htarget
    obtain ⟨hsizev, hsizevs⟩ := List.forall_mem_cons.mp hsize
    simp only [Members.cost] at hfuel
    obtain ⟨fuel, rfl⟩ : ∃ n, fuel = n + 1 := ⟨fuel - 1, by omega⟩
    simp only [Members.images, List.map_cons] at hbuffer
    have hmember := deserializeMember_eq hconstruct v hv hsizev w hw fuel (by omega) buffer _ hbuffer
    obtain ⟨after, hrest⟩ := deserializeMembers_eq hconstruct vs hvs hsizevs ws hws fuel (by omega)
      { buffer with children := vs.images.map ofBytes } rfl
    refine ⟨after, ?_⟩
    simp only [deserializeMembers, Option.bind_eq_bind, hmember, Option.bind_some, hrest]

end

/-! ## The round trip -/

/-- What `operator<<` writes for an object that fits. -/
lemma serialize_eq {ts : List (MemberType C)} (members : Members layout ts)
    (hlimit : ts.length < 0xFFFFFFFF) (hfits : members.Fits)
    (hsize : (packedBytes members.images).length ≤ 1000000000000) :
    ∃ buffer : StreamBuffer, serialize fresh members = .ok buffer.write ∧
      buffer.bytes = packedBytes members.images := by
  obtain ⟨object, hobject, himages⟩ := serializeMembers_eq fresh members hfits
    (fun image himage => (length_le_packedBytes himage).trans hsize) .empty
  have hpacked : packed object.children = packedBytes members.images := by
    rw [packed_eq_packedBytes, himages]
    rfl
  have hlength : object.children.length = ts.length := by
    have hmap := congrArg List.length himages
    simpa [empty, ofBytes] using hmap
  obtain ⟨buffer, hbuffer, hbytes, -⟩ := contract_eq fresh object (by omega)
    (by rw [hpacked]; omega)
  refine ⟨buffer, ?_, hbytes.trans hpacked⟩
  rw [serialize, hobject, Outcome.ok_bind, hbuffer, Outcome.ok_bind]

/-- **An object that is written and read back is the same object, within the limits of the code.**
Let every container, and every class, have fewer than `0xFFFFFFFF` elements or members, let
pointers be null or point to objects that have members, and let the object take at most `10 ^ 12`
bytes.  Let the object that is read into, and every object that a default constructor makes, have
empty containers (vectors of primitives may hold anything).  Then `operator>>` reads the object back
from what `operator<<` has written, whatever follows in the stream. -/
theorem binarySerializable_roundTrip (fresh : ℕ → UInt8)
    (construct : (c : C) → Members layout (layout c)) {ts : List (MemberType C)}
    (members target : Members layout ts) (hconstruct : ∀ c, (construct c).Fresh)
    (hlimit : ts.length < 0xFFFFFFFF) (hfits : members.Fits)
    (hsize : (packedBytes members.images).length ≤ 1000000000000) (htarget : target.Fresh) :
    ∃ bytes, serialize fresh members = .ok bytes ∧
      ∀ fuel, members.cost ≤ fuel → ∀ (is : InputStream) (rest : List UInt8),
        is.failed = false → is.remaining = bytes ++ rest →
          deserialize fresh construct fuel target is = some members := by
  obtain ⟨buffer, hwrite, hbytes⟩ := serialize_eq fresh members hlimit hfits hsize
  refine ⟨buffer.write, hwrite, fun fuel hfuel is rest hok hremaining => ?_⟩
  have hvalid : ValidRequest buffer.size := by
    have hlength : buffer.size = (packedBytes members.images).length := by
      rw [← hbytes, length_bytes]
    rw [packedBytes, length_packed] at hlength
    unfold ValidRequest
    rw [packedBytes, length_packed] at hsize
    omega
  obtain ⟨hread, hchildren, -⟩ := readStream_write fresh empty hok hremaining
    hvalid
  have hfit : (packed (members.images.map ofBytes)).length < 2 ^ 64 := by
    unfold packedBytes at hsize
    omega
  have hexpand := expand_packed fresh (hread.trans hbytes) hchildren
    (fun b hb => by
      obtain ⟨image, himage, rfl⟩ := List.mem_map.mp hb
      exact (length_le_packedBytes himage).trans hsize) hfit
  obtain ⟨after, hmembers⟩ := deserializeMembers_eq fresh hconstruct members hfits
    (fun image himage => (length_le_packedBytes himage).trans hsize) target htarget fuel hfuel
    ⟨0, [], members.images.map ofBytes, le_rfl⟩ rfl
  rw [deserialize, hexpand]
  simp [Except.toOption, Function.comp_def, hmembers]

/-- The class of a list node: a number, a name, a vector of characters, a list of names and a
pointer to the next node. -/
def nodeLayout : Unit → List (MemberType Unit) := fun _ =>
  [.primitive .int, .string, .vector (.primitive .char), .list .string, .pointer ()]

/-- No character of the empty string is zero. -/
lemma zero_notMem_nil : (0 : UInt8) ∉ [] := List.not_mem_nil

/-- A node whose containers are empty. -/
def emptyNode : Members nodeLayout (nodeLayout ()) :=
  .cons (.primitive .int [0, 0, 0, 0] rfl) (.cons (.string [] zero_notMem_nil)
    (.cons (.vector .nil) (.cons (.list .nil) (.cons .null .nil))))

/-- A node that points to an empty one. -/
def sampleNode : Members nodeLayout (nodeLayout ()) :=
  .cons (.primitive .int [1, 2, 0, 0] rfl) (.cons (.string [97, 98] (by decide))
    (.cons (.vector (.cons (.primitive .char [7] rfl) .nil))
      (.cons (.list (.cons (.string [99] (by decide)) .nil)) (.cons (.pointer emptyNode) .nil))))

/-- Two nodes survive the round trip. -/
theorem binarySerializable_roundTrip_node :
    ∃ bytes, serialize (fun _ => 0) sampleNode = .ok bytes ∧
      ∀ fuel, sampleNode.cost ≤ fuel → ∀ (is : InputStream) (rest : List UInt8),
        is.failed = false → is.remaining = bytes ++ rest →
          deserialize (fun _ => 0) (fun _ => emptyNode) fuel emptyNode is = some sampleNode :=
  binarySerializable_roundTrip (fun _ => 0) (fun _ => emptyNode) sampleNode emptyNode
    (fun _ => ⟨trivial, trivial, .inl rfl, rfl, trivial, trivial⟩) (by decide)
    ⟨trivial, trivial, .inl rfl, ⟨by decide, trivial, trivial⟩,
      ⟨nofun, by decide, trivial, trivial, .inl rfl, ⟨by decide, trivial⟩, trivial, trivial⟩,
      trivial⟩
    (by decide +kernel) ⟨trivial, trivial, .inl rfl, rfl, trivial, trivial⟩

/-- A container with the same element `n` times. -/
def Items.replicate {t : MemberType C} (n : ℕ) (v : Value layout t) : Items layout t :=
  n.rec .nil fun _ vs => .cons v vs

/-- A class with a list of characters as its only member. -/
def charsLayout : Unit → List (MemberType Unit) := fun _ => [.list (.primitive .char)]

/-- A list with `n` times the character `c`. -/
def charsObject (n : ℕ) (c : UInt8) : Members charsLayout (charsLayout ()) :=
  .cons (.list (Items.replicate n (.primitive .char [c] rfl))) .nil

/-- The images of a replicated element. -/
lemma Items.images_replicate {t : MemberType C} (n : ℕ) (v : Value layout t) :
    (Items.replicate n v).images = List.replicate n v.image := by
  induction n with
  | zero => rfl
  | succ n ih => exact congrArg (v.image :: ·) ih

/-- Replicating an element that fits gives elements that fit. -/
lemma Items.fits_replicate {t : MemberType C} (n : ℕ) {v : Value layout t} (hv : v.Fits) :
    (Items.replicate n v).Fits := by
  induction n with
  | zero => trivial
  | succ n ih => exact ⟨hv, ih⟩

/-- A list of `0xFFFFFFFF` characters or more cannot be written. -/
lemma serialize_charsObject {n : ℕ} (c : UInt8) (hn : 0xFFFFFFFF ≤ n) :
    serialize fresh (charsObject n c) = .error .assertion := by
  set char : Value charsLayout (.primitive .char) := .primitive .char [c] rfl with hchar
  have himages := Items.images_replicate n char
  obtain ⟨child, hchild, hchildren⟩ := serializeItems_eq fresh (Items.replicate n char)
    (Items.fits_replicate n trivial)
    (fun image himage => by
      rw [himages] at himage
      rw [List.eq_of_mem_replicate himage]
      exact Nat.one_le_iff_ne_zero.mpr (by omega)) .empty
  have hlength : child.children.length = n := by
    have hmap := congrArg List.length hchildren
    rw [himages] at hmap
    simpa [empty, ofBytes] using hmap
  have hcontract : child.contract fresh = .error .assertion := by
    rw [contract, combineList, combineBelow_assertion _ _ (by omega), Outcome.error_bind]
  simp only [serialize, charsObject, serializeMembers, serializeMember, ← hchar, hchild, Outcome.ok_bind,
    pushContracted, hcontract, Outcome.error_bind]

/-- A list of `0xFFFFFFFF` characters cannot be written, and an object whose list is not empty keeps
its elements when another object is read into it. -/
theorem binarySerializable_limits :
    serialize (fun _ => 0) (charsObject 0xFFFFFFFF 7) = .error .assertion ∧
      ∃ bytes, serialize (fun _ => 0) (charsObject 1 7) = .ok bytes ∧
        deserialize (fun _ => 0) (fun _ => charsObject 0 0) 9 (charsObject 1 8)
          (InputStream.ofBytes bytes) ≠ some (charsObject 1 7) := by
  refine ⟨serialize_charsObject _ 7 le_rfl, _, rfl, fun h => ?_⟩
  have himages := congrArg (Option.map Members.images) h
  exact absurd himages (by decide +kernel)

end NaoSoccer
