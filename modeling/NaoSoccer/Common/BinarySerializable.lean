import NaoSoccer.Memory.BufferNesting

/-!
# Binary serialization

A class that derives from `BinarySerializable` lists its members in `serialize` and `deserialize`.
Every member becomes one child buffer of the object's buffer: a primitive or a string its bytes, a
vector of primitives its elements in a row, any other container, object or pointer a contracted
buffer with a child for each element or member.  Reading goes the same way from the root down and
takes the children off one by one.

The source passes the current buffer in the field `buffer_`, which it swaps while it descends; here
the buffer is an argument and a result.
-/

namespace NaoSoccer

/-! ## Types and values -/

/-- The primitive types with a serialization of their own. -/
inductive Primitive
  | double
  | float
  | int
  | char
  | bool
  deriving DecidableEq, Repr

/-- `sizeof`. -/
def Primitive.width : Primitive → ℕ
  | .double => 8
  | .float => 4
  | .int => 4
  | .char => 1
  | .bool => 1

/-- The types that a member can have, over the names `C` of the serializable classes. -/
inductive MemberType (C : Type)
  | primitive (p : Primitive)
  | string
  | vector (t : MemberType C)
  | list (t : MemberType C)
  | object (c : C)
  | pointer (c : C)

/-- `std::is_fundamental`. -/
def MemberType.isFundamental {C : Type} : MemberType C → Bool
  | .primitive _ => true
  | _ => false

variable {C : Type} (layout : C → List (MemberType C))

mutual

/-- The values of a type.  Primitives are the bytes that represent them.  A class `c` has the
members that `layout c` lists, in both of its methods. -/
inductive Value : MemberType C → Type
  | primitive (p : Primitive) (bytes : List UInt8) (h : bytes.length = p.width) :
    Value (.primitive p)
  | string (chars : List UInt8) (h : 0 ∉ chars) : Value .string
  | vector {t : MemberType C} (items : Items t) : Value (.vector t)
  | list {t : MemberType C} (items : Items t) : Value (.list t)
  | object {c : C} (members : Members (layout c)) : Value (.object c)
  | null {c : C} : Value (.pointer c)
  | pointer {c : C} (members : Members (layout c)) : Value (.pointer c)

/-- The elements of a container. -/
inductive Items : MemberType C → Type
  | nil {t : MemberType C} : Items t
  | cons {t : MemberType C} (v : Value t) (vs : Items t) : Items t

/-- The members of an object. -/
inductive Members : List (MemberType C) → Type
  | nil : Members []
  | cons {t : MemberType C} {ts : List (MemberType C)} (v : Value t) (vs : Members ts) :
    Members (t :: ts)

end

variable {layout}

/-- The number of elements. -/
def Items.length {t : MemberType C} : Items layout t → ℕ
  | .nil => 0
  | .cons _ vs => vs.length + 1

/-- Elements behind other elements. -/
def Items.append {t : MemberType C} : Items layout t → Items layout t → Items layout t
  | .nil, ws => ws
  | .cons v vs, ws => .cons v (vs.append ws)

/-- `push_back`. -/
def Items.pushBack {t : MemberType C} (vs : Items layout t) (v : Value layout t) :
    Items layout t :=
  vs.append (.cons v .nil)

/-- The elements of a vector of primitives, as they lie in memory. -/
def Items.data {t : MemberType C} : Items layout t → List UInt8
  | .nil => []
  | .cons (.primitive _ bytes _) vs => bytes ++ vs.data
  | .cons _ vs => vs.data

/-- `n` elements of a vector of primitives from the bytes they lie in. -/
def Items.ofData : (t : MemberType C) → ℕ → List UInt8 → Items layout t
  | .primitive p, n + 1, bytes =>
    if h : (bytes.take p.width).length = p.width then
      .cons (.primitive p (bytes.take p.width) h) (Items.ofData (.primitive p) n
        (bytes.drop p.width))
    else .nil
  | _, _, _ => .nil

/-- `sizeof` for the elements of a vector of primitives. -/
def MemberType.width : MemberType C → ℕ
  | .primitive p => p.width
  | _ => 0

/-! ## Writing -/

section Operations

variable (fresh : ℕ → UInt8)

/-- A child is contracted and added to the children of its parent. -/
def pushContracted (child parent : StreamBuffer) : Except Fault StreamBuffer := do
  let child ← child.contract fresh
  .ok { parent with children := parent.children ++ [child] }

mutual

/-- `serializeMember`, for each type: one child is added to the buffer. -/
def serializeMember : {t : MemberType C} → Value layout t → StreamBuffer →
    Except Fault StreamBuffer
  | _, .primitive p bytes _, buffer => buffer.add fresh bytes p.width
  | _, .string chars _, buffer => buffer.add fresh (chars ++ [0]) (chars.length + 1)
  | _, .vector (t := t) items, buffer =>
    if t.isFundamental then buffer.add fresh items.data (items.length * t.width)
    else do
      let child ← serializeItems items .empty
      pushContracted fresh child buffer
  | _, .list items, buffer => do
    let child ← serializeItems items .empty
    pushContracted fresh child buffer
  | _, .object members, buffer => do
    let child ← serializeMembers members .empty
    pushContracted fresh child buffer
  | _, .null, buffer => pushContracted fresh .empty buffer
  | _, .pointer members, buffer => do
    let child ← serializeMembers members .empty
    pushContracted fresh child buffer

/-- The loop over the elements of a container. -/
def serializeItems : {t : MemberType C} → Items layout t → StreamBuffer →
    Except Fault StreamBuffer
  | _, .nil, buffer => .ok buffer
  | _, .cons v vs, buffer => do
    let buffer ← serializeMember v buffer
    serializeItems vs buffer

/-- The method `serialize` of a class. -/
def serializeMembers : {ts : List (MemberType C)} → Members layout ts → StreamBuffer →
    Except Fault StreamBuffer
  | _, .nil, buffer => .ok buffer
  | _, .cons v vs, buffer => do
    let buffer ← serializeMember v buffer
    serializeMembers vs buffer

end

/-- `operator<<`: the bytes written for an object. -/
def serialize {ts : List (MemberType C)} (members : Members layout ts) :
    Except Fault (List UInt8) := do
  let buffer ← serializeMembers fresh members .empty
  let buffer ← buffer.contract fresh
  .ok buffer.write

/-! ## Reading -/

/-- `children.front()` and `children.pop_front()`. -/
def popFront (buffer : StreamBuffer) : Option (StreamBuffer × StreamBuffer) :=
  match buffer.children with
  | [] => none
  | child :: children => some (child, { buffer with children := children })

variable (construct : (c : C) → Members layout (layout c))

/-- `T()`: objects are made by the default constructor of their class. -/
def default : (t : MemberType C) → Value layout t
  | .primitive p => .primitive p (List.replicate p.width 0) (List.length_replicate)
  | .string => .string [] (List.not_mem_nil)
  | .vector _ => .vector .nil
  | .list _ => .list .nil
  | .object c => .object (construct c)
  | .pointer _ => .null

mutual

/-- `deserializeMember`, for each type: a child is taken off the buffer and read into the target.
The result is missing if an access leaves the memory, or if the fuel runs out. -/
def deserializeMember : ℕ → {t : MemberType C} → Value layout t → StreamBuffer →
    Option (Value layout t × StreamBuffer)
  | 0, _, _, _ => none
  | _ + 1, _, .primitive p bytes h, buffer =>
    match hcopy : buffer.copyTo bytes with
    | none => none
    | some (data, buffer) =>
      some (.primitive p data ((StreamBuffer.length_copyTo hcopy).trans h), buffer)
  | _ + 1, _, .string _ _, buffer => do
    let (child, buffer) ← popFront buffer
    match hchars : ByteMemory.cString child.buffer with
    | none => none
    | some chars => some (.string chars (ByteMemory.zero_notMem_of_cString hchars), buffer)
  | fuel + 1, _, .vector (t := t) items, buffer => do
    let (child, buffer) ← popFront buffer
    if t.isFundamental then
      some (.vector (Items.ofData t (child.size / t.width) child.bytes), buffer)
    else
      let child ← (child.expand fresh).toOption
      let items ← deserializeItems fuel items child
      some (.vector items, buffer)
  | fuel + 1, _, .list items, buffer => do
    let (child, buffer) ← popFront buffer
    let child ← (child.expand fresh).toOption
    let items ← deserializeItems fuel items child
    some (.list items, buffer)
  | fuel + 1, _, .object members, buffer =>
    match popFront buffer with
    | none => some (.object members, buffer)
    | some (child, buffer) => do
      let child ← (child.expand fresh).toOption
      let (members, _) ← deserializeMembers fuel members child
      some (.object members, buffer)
  | fuel + 1, _, .null (c := c), buffer => deserializePointer fuel c buffer
  | fuel + 1, _, .pointer (c := c) _, buffer => deserializePointer fuel c buffer

/-- `deserializeMember` for pointers: whatever the target points to is given up, and a child that
is not empty is read into a new object. -/
def deserializePointer : ℕ → (c : C) → StreamBuffer →
    Option (Value layout (.pointer c) × StreamBuffer)
  | 0, _, _ => none
  | fuel + 1, c, buffer =>
    match popFront buffer with
    | none => some (.null, buffer)
    | some (child, buffer) => do
      let child ← (child.expand fresh).toOption
      if child.children.length = 0 then some (.null, buffer)
      else
        let (members, _) ← deserializeMembers fuel (construct c) child
        some (.pointer members, buffer)

/-- The loop of a container: elements are appended until the child has no children left. -/
def deserializeItems : ℕ → {t : MemberType C} → Items layout t → StreamBuffer →
    Option (Items layout t)
  | 0, _, _, _ => none
  | fuel + 1, t, items, child =>
    match child.children with
    | [] => some items
    | _ :: _ => do
      let (item, child) ← deserializeMember fuel (default construct t) child
      deserializeItems fuel (items.pushBack item) child

/-- The method `deserialize` of a class. -/
def deserializeMembers : ℕ → {ts : List (MemberType C)} → Members layout ts → StreamBuffer →
    Option (Members layout ts × StreamBuffer)
  | 0, _, _, _ => none
  | _ + 1, _, .nil, buffer => some (.nil, buffer)
  | fuel + 1, _, .cons v vs, buffer => do
    let (v, buffer) ← deserializeMember fuel v buffer
    let (vs, buffer) ← deserializeMembers fuel vs buffer
    some (.cons v vs, buffer)

end

/-- `operator>>`: an object is read from a stream into the members of the target. -/
def deserialize (fuel : ℕ) {ts : List (MemberType C)} (target : Members layout ts)
    (is : InputStream) : Option (Members layout ts) := do
  let buffer ← ((StreamBuffer.empty.readStream fresh is).1.expand fresh).toOption
  let (members, _) ← deserializeMembers fresh construct fuel target buffer
  some members

end Operations

end NaoSoccer
