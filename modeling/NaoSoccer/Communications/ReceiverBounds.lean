import NaoSoccer.Communications.MessageDelivery

/-!
# What the receiver does with a header

The two lengths in the header of a message are `int32_t`s that anybody can have sent.  The receiver
compares the first one to the maximum and otherwise computes with both.  `accesses` lists what it
does to its memory for a header and the stream behind it: how much it stores in `data_`, which
vector it asks for, and which source it hands to zlib.

A compressed length below `8` becomes a payload of almost `2 ^ 64` bytes, a negative message length
a vector of as many, and the source handed to zlib is always eight bytes longer than what was
received.  So nothing goes wrong only if no message is received at all.
-/

namespace NaoSoccer

open StreamingMessage

namespace TCPConnection

/-- What the receiver does to its memory. -/
inductive Access
  /-- The first bytes of `data_` are overwritten by bytes of the stream. -/
  | store (count : ℕ)
  /-- A vector is made with a number of bytes. -/
  | allocate (n : ℤ)
  /-- `uncompress` is told the length of its source, of which some bytes have been received. -/
  | uncompress (sourceLen received : ℕ)
  deriving DecidableEq

/-- Bytes are stored inside `data_`, vectors have a size, and a source has been received. -/
def Access.Safe : Access → Prop
  | store count => count ≤ maxStreamingMessageLen
  | allocate n => 0 ≤ n
  | uncompress sourceLen received => sourceLen ≤ received

/-- What `postReceive` does to the memory after `received` bytes. -/
def postReceiveAccesses (sendLen origLen : ℤ) (received : ℕ) : List Access :=
  .allocate origLen ::
    if origLen < 0 ∨ toInt32 received ≠ toInt32 (toSizeT (sendLen - 8)) then []
    else [.uncompress (toSizeT sendLen) received]

/-- What the receiver does to its memory after the header. -/
def accesses (compressedLen messageLen : ℤ) (stream : List UInt8) : List Access :=
  if compressedLen > maxStreamingMessageLen then []
  else
    let payloadLen := toSizeT (toSizeT compressedLen - 8)
    .store (min payloadLen stream.length) ::
      if stream.length < payloadLen then []
      else postReceiveAccesses compressedLen messageLen payloadLen

/-! ## The payload length -/

/-- A length that counts its header leaves that much for the payload. -/
lemma payloadLen_eq {c : ℤ} (hc : 8 ≤ c) (hhi : c < 2 ^ 31) :
    toSizeT (toSizeT c - 8) = (c - 8).toNat := by
  have hcast : c = (c.toNat : ℤ) := by omega
  rw [hcast, toSizeT_eq (by omega)]
  have hsub : ((c.toNat : ℤ) - 8) = ((c.toNat - 8 : ℕ) : ℤ) := by omega
  rw [hsub, toSizeT_eq (by omega)]
  omega

/-- A length that is too small for its header wraps around. -/
lemma lt_payloadLen {c : ℤ} (hlo : -2 ^ 31 ≤ c) (hc : c < 8) :
    2 ^ 63 < toSizeT (toSizeT c - 8) := by
  unfold toSizeT
  omega

/-! ## The accesses for each kind of header -/

/-- A length above the maximum is refused. -/
lemma accesses_of_gt {c : ℤ} (hc : c > maxStreamingMessageLen) (m : ℤ) (stream : List UInt8) :
    accesses c m stream = [] := if_pos hc

/-- In the place of a payload whose length has wrapped around, the rest of the stream is stored. -/
lemma accesses_of_lt {c : ℤ} (hlo : -2 ^ 31 ≤ c) (hc : c < 8) (m : ℤ) {stream : List UInt8}
    (hstream : stream.length ≤ 2 ^ 63) : accesses c m stream = [.store stream.length] := by
  have hwrapped := lt_payloadLen hlo hc
  have hle : ¬ c > maxStreamingMessageLen := by unfold maxStreamingMessageLen; omega
  have hshort : stream.length < toSizeT (toSizeT c - 8) := by omega
  simp only [accesses, if_neg hle, if_pos hshort, Nat.min_eq_right hshort.le]

/-- If the stream ends before the payload, what is there is stored. -/
lemma accesses_of_short {c : ℤ} (hc : 8 ≤ c) (hle : ¬ c > maxStreamingMessageLen) (m : ℤ)
    {stream : List UInt8} (hshort : stream.length < (c - 8).toNat) :
    accesses c m stream = [.store stream.length] := by
  have hpayload : toSizeT (toSizeT c - 8) = (c - 8).toNat :=
    payloadLen_eq hc (by unfold maxStreamingMessageLen at hle; omega)
  simp only [accesses, if_neg hle, hpayload, if_pos hshort, Nat.min_eq_right hshort.le]

/-- A complete payload is stored and handed to zlib, with the eight bytes behind it. -/
lemma accesses_of_complete {c : ℤ} (hc : 8 ≤ c) (hle : ¬ c > maxStreamingMessageLen) (m : ℤ)
    {stream : List UInt8} (hcomplete : (c - 8).toNat ≤ stream.length) :
    accesses c m stream = .store (c - 8).toNat :: .allocate m ::
      if m < 0 then [] else [.uncompress c.toNat (c - 8).toNat] := by
  have hhi : c < 2 ^ 31 := by
    unfold maxStreamingMessageLen at hle
    omega
  have hsource : toSizeT c = c.toNat := by
    have hcast : c = (c.toNat : ℤ) := by omega
    conv_lhs => rw [hcast, toSizeT_eq (by omega)]
  have hpayload : toSizeT (c - 8) = (c - 8).toNat := by
    have hcast : c - 8 = ((c - 8).toNat : ℤ) := by omega
    conv_lhs => rw [hcast, toSizeT_eq (by omega)]
  simp only [accesses, if_neg hle, payloadLen_eq hc hhi, if_neg (Nat.not_lt.mpr hcomplete),
    Nat.min_eq_left hcomplete, postReceiveAccesses, hpayload, ne_eq, not_true, or_false]
  rw [hsource]

/-- What is stored comes first. -/
lemma store_mem_accesses {c : ℤ} (hle : ¬ c > maxStreamingMessageLen) (m : ℤ)
    (stream : List UInt8) :
    .store (min (toSizeT (toSizeT c - 8)) stream.length) ∈ accesses c m stream := by
  simp only [accesses, if_neg hle]
  exact List.mem_cons_self

/-! ## Headers for which nothing goes wrong -/

/-- No message is received for a header: it is refused, or the stream ends before the payload and,
if the payload length has wrapped around, before `data_` is full. -/
def NotReceived (c : ℤ) (stream : List UInt8) : Prop :=
  c > maxStreamingMessageLen ∨ (8 ≤ c ∧ (stream.length : ℤ) < c - 8) ∨
    (c < 8 ∧ stream.length ≤ maxStreamingMessageLen)

/-- Without a message nothing goes wrong. -/
lemma safe_of_notReceived {c : ℤ} (hlo : -2 ^ 31 ≤ c) (m : ℤ) {stream : List UInt8}
    (h : NotReceived c stream) : ∀ access ∈ accesses c m stream, access.Safe := by
  have hmax : maxStreamingMessageLen = 6000000 := rfl
  by_cases hgt : c > maxStreamingMessageLen
  · rw [accesses_of_gt hgt]
    simp
  · rcases h with hrefused | ⟨hlarge, hshort⟩ | ⟨hsmall, hends⟩
    · exact absurd hrefused hgt
    · rw [accesses_of_short hlarge hgt m (by omega)]
      refine List.forall_mem_singleton.mpr ?_
      change stream.length ≤ maxStreamingMessageLen
      omega
    · rw [accesses_of_lt hlo hsmall m (by omega)]
      exact List.forall_mem_singleton.mpr hends

/-- With a message something goes wrong: at the latest, zlib is handed more than was received. -/
lemma notReceived_of_safe {c : ℤ} (hlo : -2 ^ 31 ≤ c) {m : ℤ} {stream : List UInt8}
    (hsafe : ∀ access ∈ accesses c m stream, access.Safe) : NotReceived c stream := by
  have hmax : maxStreamingMessageLen = 6000000 := rfl
  by_cases hgt : c > maxStreamingMessageLen
  · exact Or.inl hgt
  rcases lt_or_ge c 8 with hsmall | hlarge
  · have hstore : min (toSizeT (toSizeT c - 8)) stream.length ≤ maxStreamingMessageLen :=
      hsafe _ (store_mem_accesses hgt m stream)
    have hwrapped := lt_payloadLen hlo hsmall
    exact Or.inr (Or.inr ⟨hsmall, by omega⟩)
  · rcases Nat.lt_or_ge stream.length (c - 8).toNat with hshort | hcomplete
    · exact Or.inr (Or.inl ⟨hlarge, by omega⟩)
    · rw [accesses_of_complete hlarge hgt m hcomplete] at hsafe
      have hallocate : 0 ≤ m := hsafe (.allocate m) (by simp)
      have huncompress : c.toNat ≤ (c - 8).toNat :=
        hsafe (.uncompress c.toNat (c - 8).toNat) (by simp [not_lt.mpr hallocate])
      omega

/-- **Nothing goes wrong exactly if no message is received.** -/
theorem accesses_safe_iff {c : ℤ} (hlo : -2 ^ 31 ≤ c) (m : ℤ) (stream : List UInt8) :
    (∀ access ∈ accesses c m stream, access.Safe) ↔ NotReceived c stream :=
  ⟨notReceived_of_safe hlo, safe_of_notReceived hlo m⟩

/-- A header that is refused. -/
theorem accesses_safe_refused :
    NotReceived 6000001 [] ∧ ∀ access ∈ accesses 6000001 1 [], access.Safe := by
  have hrefused : NotReceived 6000001 [] := Or.inl (by decide)
  exact ⟨hrefused, (accesses_safe_iff (by decide) 1 []).mpr hrefused⟩

/-- **A message without payload**: zlib is handed eight bytes, none of which have been received. -/
theorem not_accesses_safe_empty :
    .uncompress 8 0 ∈ accesses 8 0 [] ∧ ¬ ∀ access ∈ accesses 8 0 [], access.Safe := by
  have hmem : Access.uncompress 8 0 ∈ accesses 8 0 [] := by
    rw [accesses_of_complete (by decide) (by decide) 0 (by decide)]
    decide
  exact ⟨hmem, fun h => absurd (h _ hmem) (by unfold Access.Safe; decide)⟩

/-! ## Accesses and results -/

section Results

variable (z : Zlib) (smessage : StreamingMessage) {bs₁ bs₂ stream : List UInt8}

/-- A message whose header is read goes on with the payload. -/
lemma receiveMessage_payload (h₁ : bs₁.length = 4) (h₂ : bs₂.length = 4)
    (hle : ¬ ByteMemory.decodeInt bs₁ > maxStreamingMessageLen) {payloadLen : ℕ}
    (hpayload : toSizeT (toSizeT (ByteMemory.decodeInt bs₁) - 8) = payloadLen)
    (hends : stream.length < payloadLen) :
    receiveMessage z smessage (bs₁ ++ (bs₂ ++ stream)) =
      if stream.length > maxStreamingMessageLen then .error .outOfBounds
      else .error .endOfStream := by
  have hread : readStream stream payloadLen = .error .endOfStream :=
    if_neg (Nat.not_le.mpr hends)
  rw [receiveMessage, readStream_append h₁.symm, Outcome.ok_bind]
  simp only [if_neg hle]
  rw [readStream_append h₂.symm, Outcome.ok_bind]
  simp only [hpayload, Nat.min_eq_right hends.le, hread, Outcome.error_bind]

/-- In the place of a payload of negative length a stream is stored beyond `data_`. -/
theorem receiveMessage_outOfBounds (h₁ : bs₁.length = 4) (h₂ : bs₂.length = 4)
    (hlo : -2 ^ 31 ≤ ByteMemory.decodeInt bs₁) (hsmall : ByteMemory.decodeInt bs₁ < 8)
    (hlong : maxStreamingMessageLen < stream.length) (hstream : stream.length ≤ 2 ^ 63) :
    receiveMessage z smessage (bs₁ ++ (bs₂ ++ stream)) = .error .outOfBounds := by
  have hwrapped := lt_payloadLen hlo hsmall
  rw [receiveMessage_payload z smessage h₁ h₂ (by unfold maxStreamingMessageLen; omega) rfl
    (by omega), if_pos hlong]

/-- A complete message of negative length ends the receiver with an exception that it does not
catch. -/
theorem receiveMessage_negative (h₁ : bs₁.length = 4) (h₂ : bs₂.length = 4)
    (hlarge : 8 ≤ ByteMemory.decodeInt bs₁)
    (hle : ¬ ByteMemory.decodeInt bs₁ > maxStreamingMessageLen)
    (hcomplete : (ByteMemory.decodeInt bs₁ - 8).toNat ≤ stream.length)
    (hneg : ByteMemory.decodeInt bs₂ < 0) :
    receiveMessage z smessage (bs₁ ++ (bs₂ ++ stream)) = .error .lengthError := by
  set c := ByteMemory.decodeInt bs₁ with hc
  have htake : (stream.take (c - 8).toNat).length = (c - 8).toNat :=
    List.length_take_of_le hcomplete
  unfold maxStreamingMessageLen at hle
  have hpayload : toSizeT (toSizeT (ByteMemory.decodeInt bs₁) - 8) =
      (stream.take (c - 8).toNat).length := by
    rw [htake, ← hc, payloadLen_eq hlarge (by omega)]
  obtain ⟨sm, -, horig, -, hreceive⟩ := receiveMessage_eq z smessage
    (stream.drop (c - 8).toNat) h₁ h₂ (by rw [← hc]; exact hle) hpayload
    (by rw [htake]; unfold maxStreamingMessageLen; omega)
  rw [List.take_append_drop] at hreceive
  rw [hreceive, postReceive, horig, if_pos hneg, Outcome.error_bind]

/-- **Where nothing goes wrong no message is received**: it is refused, or the stream ends. -/
theorem receiveMessage_of_safe (h₁ : bs₁.length = 4) (h₂ : bs₂.length = 4)
    (hlo : -2 ^ 31 ≤ ByteMemory.decodeInt bs₁)
    (hsafe : ∀ access ∈ accesses (ByteMemory.decodeInt bs₁) (ByteMemory.decodeInt bs₂) stream,
      access.Safe) :
    receiveMessage z smessage (bs₁ ++ (bs₂ ++ stream)) = .error .rejected ∨
      receiveMessage z smessage (bs₁ ++ (bs₂ ++ stream)) = .error .endOfStream := by
  by_cases hgt : ByteMemory.decodeInt bs₁ > maxStreamingMessageLen
  · exact Or.inl (receiveMessage_rejected z smessage h₁ hgt)
  · have hmax : maxStreamingMessageLen = 6000000 := rfl
    rcases notReceived_of_safe hlo hsafe with hrefused | ⟨hlarge, hshort⟩ | ⟨hsmall, hends⟩
    · exact absurd hrefused hgt
    · refine Or.inr ((receiveMessage_payload z smessage h₁ h₂ hgt
        (payloadLen_eq hlarge (by omega)) (by omega)).trans (if_neg (by omega)))
    · have hwrapped := lt_payloadLen hlo hsmall
      exact Or.inr ((receiveMessage_payload z smessage h₁ h₂ hgt rfl (by omega)).trans
        (if_neg (by omega)))

end Results

end TCPConnection

end NaoSoccer
