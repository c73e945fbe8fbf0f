import NaoSoccer.Communications.LogSelection
import NaoSoccer.Foundation.Outcome

/-!
# The messages of the tool

`CommunicationModule` scans the data of a `ToolPacket` in two places: for the settings of a camera,
`name value ` for each and `|` at the end, and for the selection of blocks to log.  Both scans go on
until they meet the `|`, wherever that is.

`CameraText` and `LoggingText` say which data the two scans survive.
-/

namespace NaoSoccer

namespace ToolMessages

open LogSelection

/-! ## The settings of a camera -/

/-- What can go wrong in `CommunicationModule::handleCameraParamsMessage`. -/
inductive Fault
  | outOfBounds
  | invalidArgument
  | outOfRange
  | badIndex
  deriving DecidableEq, Repr

/-- The bytes of a literal. -/
def bytes (s : String) : List UInt8 := s.toList.map fun c => UInt8.ofNat c.toNat

/-- `isspace` of the C locale -/
def isSpace (c : UInt8) : Bool := c = space || (9 ≤ c && c ≤ 13)

/-- `isdigit` -/
def isDigit (c : UInt8) : Bool := zero ≤ c && c ≤ 57

/-- The number that a row of digits stands for. -/
def numeral (digits : List UInt8) : ℕ :=
  digits.foldl (fun n d => 10 * n + (d.toNat - zero.toNat)) 0

/-- The sign in front of a number: whether it is a minus, and what is behind it. -/
def takeSign : List UInt8 → Bool × List UInt8
  | 45 :: text => (true, text)
  | 43 :: text => (false, text)
  | text => (false, text)

/-- `std::stoi`: blanks, a sign and digits are read, and what is behind them is left. -/
def stoi (token : List UInt8) : Except Fault ℤ :=
  let (negative, text) := takeSign (token.dropWhile isSpace)
  let digits := text.takeWhile isDigit
  let value : ℤ := if negative then -(numeral digits : ℤ) else numeral digits
  if digits = [] then .error .invalidArgument
  else if -2 ^ 31 ≤ value ∧ value < 2 ^ 31 then .ok value
  else .error .outOfRange

/-- The fields of `CameraParams`. -/
structure CameraParams where
  kCameraAutoWhiteBalance : ℤ
  kCameraExposureAuto : ℤ
  kCameraBacklightCompensation : ℤ
  kCameraBrightness : ℤ
  kCameraContrast : ℤ
  kCameraSaturation : ℤ
  kCameraHue : ℤ
  kCameraExposure : ℤ
  kCameraGain : ℤ
  kCameraSharpness : ℤ
  deriving DecidableEq, Repr

/-- The field that `CommunicationModule::handleCameraParamsMessage` sets for a name. -/
def setField (name : List UInt8) : Option (CameraParams → ℤ → CameraParams) :=
  if name = bytes "AutoWhiteBalance" then
    some fun params value => { params with kCameraAutoWhiteBalance := value }
  else if name = bytes "ExposureAuto" then
    some fun params value => { params with kCameraExposureAuto := value }
  else if name = bytes "BacklightCompensation" then
    some fun params value => { params with kCameraBacklightCompensation := value }
  else if name = bytes "Brightness" then
    some fun params value => { params with kCameraBrightness := value }
  else if name = bytes "Contrast" then
    some fun params value => { params with kCameraContrast := value }
  else if name = bytes "Saturation" then
    some fun params value => { params with kCameraSaturation := value }
  else if name = bytes "Hue" then
    some fun params value => { params with kCameraHue := value }
  else if name = bytes "Exposure" then
    some fun params value => { params with kCameraExposure := value }
  else if name = bytes "Gain" then
    some fun params value => { params with kCameraGain := value }
  else if name = bytes "Sharpness" then
    some fun params value => { params with kCameraSharpness := value }
  else none

/-- The first loop of `CommunicationModule::handleCameraParamsMessage` from a place of the data on.
-/
def scanParams : List UInt8 → Bool → List UInt8 → List (List UInt8) → List ℤ →
    Except Fault (List (List UInt8) × List ℤ)
  | [], _, _, _, _ => .error .outOfBounds
  | c :: msg, tokenIsParamName, currentToken, paramNames, paramValues =>
    if c = bar then .ok (paramNames, paramValues)
    else if c = space then
      if tokenIsParamName then scanParams msg false [] (paramNames ++ [currentToken]) paramValues
      else do
        let value ← stoi currentToken
        scanParams msg true [] paramNames (paramValues ++ [value])
    else scanParams msg tokenIsParamName (currentToken ++ [c]) paramNames paramValues

/-- The second loop of `CommunicationModule::handleCameraParamsMessage` from the index `i` on, over
the names that are left. -/
def setParams (paramValues : List ℤ) : List (List UInt8) → ℕ → CameraParams →
    Except Fault CameraParams
  | [], _, params => .ok params
  | name :: paramNames, i, params =>
    match setField name with
    | none => setParams paramValues paramNames (i + 1) params
    | some set =>
      match paramValues[i]? with
      | none => .error .badIndex
      | some value => setParams paramValues paramNames (i + 1) (set params value)

/-- `CommunicationModule::handleCameraParamsMessage` -/
def handleCameraParamsMessage (params : CameraParams) (msg : List UInt8) :
    Except Fault CameraParams := do
  let (paramNames, paramValues) ← scanParams msg true [] [] []
  setParams paramValues paramNames 0 params

/-! ## The data that the scans survive -/

/-- The names that have a field. -/
def settingNames : List (List UInt8) :=
  [bytes "AutoWhiteBalance", bytes "ExposureAuto", bytes "BacklightCompensation",
    bytes "Brightness", bytes "Contrast", bytes "Saturation", bytes "Hue", bytes "Exposure",
    bytes "Gain", bytes "Sharpness"]

/-- The bytes contain neither a space nor a bar. -/
structure IsToken (token : List UInt8) : Prop where
  space_notMem : space ∉ token
  bar_notMem : bar ∉ token

/-- Pairs of a name and a number, and then the bar: right behind them, after a token that is not
ended, or after one more name that has no field. -/
inductive CameraText : List UInt8 → Prop
  | last {token : List UInt8} (htoken : IsToken token) (rest : List UInt8) :
      CameraText (token ++ bar :: rest)
  | unpaired {name token : List UInt8} (hname : IsToken name) (hfield : name ∉ settingNames)
      (htoken : IsToken token) (rest : List UInt8) :
      CameraText (name ++ space :: (token ++ bar :: rest))
  | pair {name token msg : List UInt8} (hname : IsToken name) (htoken : IsToken token)
      {value : ℤ} (hvalue : stoi token = .ok value) (hmsg : CameraText msg) :
      CameraText (name ++ space :: (token ++ space :: msg))

/-- Names with a flag and a comma, and then the bar after a name that is not ended, or a name with
something else than a flag. -/
inductive LoggingText : List UInt8 → Prop
  | last {name : List UInt8} (hname : IsToken name) (rest : List UInt8) :
      LoggingText (name ++ bar :: rest)
  | badFlag {name : List UInt8} (hname : IsToken name) {c : UInt8} (hzero : c ≠ zero)
      (hone : c ≠ one) (rest : List UInt8) : LoggingText (name ++ space :: c :: rest)
  | entry {name msg : List UInt8} (hname : IsToken name) {c : UInt8} (hflag : c = zero ∨ c = one)
      (hmsg : LoggingText msg) : LoggingText (name ++ space :: c :: comma :: msg)

/-- The data of a `ToolPacket`. -/
structure PacketData where
  data : List UInt8
  length_data : data.length = dataLength

/-- `handleCameraParamsMessage` comes to its end. -/
def CameraSafe (params : CameraParams) (msg : List UInt8) : Prop :=
  ∃ params', handleCameraParamsMessage params msg = .ok params'

/-- `handleLoggingBlocksMessage` comes to its end or to its `return`. -/
def LoggingSafe (hasBehavior : Bool) (msg : List UInt8) : Prop :=
  (handleLoggingBlocksMessage hasBehavior msg []).ending ∈ [ScanEnd.done, .badLoggingInfo]

/-! ## Tokens -/

/-- A byte of a token is in front of a token. -/
lemma IsToken.cons {c : UInt8} {token : List UInt8} (hspace : c ≠ space) (hbar : c ≠ bar)
    (htoken : IsToken token) : IsToken (c :: token) where
  space_notMem := fun h => (List.mem_cons.mp h).elim (fun h => hspace h.symm) htoken.space_notMem
  bar_notMem := fun h => (List.mem_cons.mp h).elim (fun h => hbar h.symm) htoken.bar_notMem

/-- No bytes are a token. -/
lemma isToken_nil : IsToken [] := ⟨List.not_mem_nil, List.not_mem_nil⟩

/-- The data is one token, or a token ends in it. -/
lemma isToken_or_ends (msg : List UInt8) :
    IsToken msg ∨ ∃ token rest, IsToken token ∧
      (msg = token ++ bar :: rest ∨ msg = token ++ space :: rest) := by
  induction msg with
  | nil => exact .inl isToken_nil
  | cons c msg ih =>
    by_cases hbar : c = bar
    · exact .inr ⟨[], msg, isToken_nil, .inl (by rw [hbar]; rfl)⟩
    by_cases hspace : c = space
    · exact .inr ⟨[], msg, isToken_nil, .inr (by rw [hspace]; rfl)⟩
    rcases ih with htoken | ⟨token, rest, htoken, hends⟩
    · exact .inl (htoken.cons hspace hbar)
    · refine .inr ⟨c :: token, rest, htoken.cons hspace hbar, ?_⟩
      rcases hends with rfl | rfl
      · exact .inl rfl
      · exact .inr rfl

/-! ## The scan for the settings -/

section Scan

variable {b : Bool} {paramNames : List (List UInt8)} {paramValues : List ℤ}

/-- The scan collects a token. -/
lemma scan_token {token : List UInt8} (htoken : IsToken token) (msg currentToken : List UInt8) :
    scanParams (token ++ msg) b currentToken paramNames paramValues =
      scanParams msg b (currentToken ++ token) paramNames paramValues := by
  induction token generalizing currentToken with
  | nil => rw [List.nil_append, List.append_nil]
  | cons c token ih =>
    have hspace := htoken.space_notMem
    have hbar := htoken.bar_notMem
    rw [List.mem_cons, not_or] at hspace hbar
    rw [List.cons_append, scanParams, if_neg (Ne.symm hbar.1), if_neg (Ne.symm hspace.1),
      ih ⟨hspace.2, hbar.2⟩, List.append_assoc]
    rfl

/-- The scan of a token without an end leaves the data. -/
lemma scan_isToken {token : List UInt8} (htoken : IsToken token) (currentToken : List UInt8) :
    scanParams token b currentToken paramNames paramValues = .error .outOfBounds := by
  have h : scanParams (token ++ []) b currentToken paramNames paramValues = _ :=
    scan_token htoken [] currentToken
  rw [List.append_nil] at h
  rw [h, scanParams]

/-- The scan ends at the bar. -/
lemma scan_bar {token : List UInt8} (htoken : IsToken token) (rest currentToken : List UInt8) :
    scanParams (token ++ bar :: rest) b currentToken paramNames paramValues =
      .ok (paramNames, paramValues) := by
  rw [scan_token htoken, scanParams, if_pos rfl]

/-- A space ends a name. -/
lemma scan_name {name : List UInt8} (hname : IsToken name) (msg : List UInt8) :
    scanParams (name ++ space :: msg) true [] paramNames paramValues =
      scanParams msg false [] (paramNames ++ [name]) paramValues := by
  rw [scan_token hname, scanParams, if_neg (by decide : space ≠ bar), if_pos rfl, if_pos rfl]
  rfl

/-- A space ends a value. -/
lemma scan_value {token : List UInt8} (htoken : IsToken token) (msg : List UInt8) :
    scanParams (token ++ space :: msg) false [] paramNames paramValues =
      stoi token >>= fun value =>
        scanParams msg true [] paramNames (paramValues ++ [value]) := by
  rw [scan_token htoken, scanParams, if_neg (by decide : space ≠ bar), if_pos rfl,
    if_neg Bool.false_ne_true]
  rfl

end Scan

/-! ## The fields -/

/-- A chain of conditions has no answer if none of them is met. -/
lemma ite_some_eq_none_iff {α : Type} {p : Prop} [Decidable p] {a : α} {o : Option α} :
    (if p then some a else o) = none ↔ ¬ p ∧ o = none := by
  split <;> simp [*]

/-- A name has a field if it is one of the ten. -/
lemma setField_eq_none_iff {name : List UInt8} : setField name = none ↔ name ∉ settingNames := by
  simp only [setField, settingNames, ite_some_eq_none_iff, List.mem_cons, List.not_mem_nil,
    or_false, not_or, and_true]

/-- **The second loop comes to its end exactly if every name that has a field has a value.** -/
lemma setParams_ok_iff {paramValues : List ℤ} {paramNames : List (List UInt8)} {i : ℕ}
    {params : CameraParams} :
    (∃ params', setParams paramValues paramNames i params = .ok params') ↔
      ∀ j name, paramNames[j]? = some name → name ∈ settingNames → i + j < paramValues.length := by
  induction paramNames generalizing i params with
  | nil => exact ⟨fun _ j name h => by simp at h, fun _ => ⟨params, rfl⟩⟩
  | cons name paramNames ih =>
    have hsplit : (∀ j name', (name :: paramNames)[j]? = some name' → name' ∈ settingNames →
        i + j < paramValues.length) ↔ (name ∈ settingNames → i < paramValues.length) ∧
          ∀ j name', paramNames[j]? = some name' → name' ∈ settingNames →
            i + 1 + j < paramValues.length := by
      constructor
      · intro h
        exact ⟨h 0 name rfl, fun j name' hj hmem => by
          have := h (j + 1) name' hj hmem
          omega⟩
      · rintro ⟨hhead, htail⟩ (_ | j) name' hj hmem
        · obtain rfl : name = name' := Option.some.inj hj
          exact hhead hmem
        · have := htail j name' hj hmem
          omega
    rw [hsplit, setParams]
    split
    · next hnone =>
      have hname := setField_eq_none_iff.mp hnone
      exact ih.trans ⟨fun h => ⟨fun hmem => absurd hmem hname, h⟩, And.right⟩
    · next set hset =>
      have hname : name ∈ settingNames := by
        by_contra hnot
        rw [setField_eq_none_iff.mpr hnot] at hset
        exact absurd hset nofun
      split
      · next hvalue =>
        have hlen := List.getElem?_eq_none_iff.mp hvalue
        refine ⟨fun h => absurd h.choose_spec nofun, fun h => ?_⟩
        have := h.1 hname
        omega
      · next value hvalue =>
        have hlen := (List.getElem?_eq_some_iff.mp hvalue).1
        exact ih.trans ⟨fun h => ⟨fun _ => hlen, h⟩, And.right⟩


/-! ## The two handlers -/

section Camera

variable {params : CameraParams} {paramNames : List (List UInt8)} {paramValues : List ℤ}

/-- The rest of `handleCameraParamsMessage` from a name on. -/
def CameraSafeFrom (params : CameraParams) (paramNames : List (List UInt8))
    (paramValues : List ℤ) (msg : List UInt8) : Prop :=
  ∃ params', (scanParams msg true [] paramNames paramValues >>= fun tokens =>
    setParams tokens.2 tokens.1 0 params) = .ok params'

/-- With a value for each name all fields are set. -/
lemma setParams_ok_of_length_eq (h : paramNames.length = paramValues.length) :
    ∃ params', setParams paramValues paramNames 0 params = .ok params' := by
  refine setParams_ok_iff.mpr fun j name hj _ => ?_
  have := (List.getElem?_eq_some_iff.mp hj).1
  omega

/-- A last name without a value must not have a field. -/
lemma setParams_ok_append_iff (h : paramNames.length = paramValues.length) {name : List UInt8} :
    (∃ params', setParams paramValues (paramNames ++ [name]) 0 params = .ok params') ↔
      name ∉ settingNames := by
  rw [setParams_ok_iff]
  constructor
  · intro hall hmem
    have := hall paramNames.length name List.getElem?_concat_length hmem
    omega
  · intro hnot j name' hj hmem
    rcases Nat.lt_or_ge j paramNames.length with hlt | hge
    · omega
    · rw [List.getElem?_append_right hge] at hj
      rcases hk : j - paramNames.length with _ | k
      · rw [hk] at hj
        obtain rfl : name = name' := Option.some.inj hj
        exact absurd hmem hnot
      · rw [hk] at hj
        exact absurd hj nofun

/-- Data that ends right behind the pairs. -/
lemma cameraSafeFrom_last (h : paramNames.length = paramValues.length) {token : List UInt8}
    (htoken : IsToken token) (rest : List UInt8) :
    CameraSafeFrom params paramNames paramValues (token ++ bar :: rest) := by
  rw [CameraSafeFrom, scan_bar htoken]
  exact setParams_ok_of_length_eq h

/-- Data that ends behind a name. -/
lemma cameraSafeFrom_unpaired_iff (h : paramNames.length = paramValues.length)
    {name token : List UInt8} (hname : IsToken name) (htoken : IsToken token)
    (rest : List UInt8) :
    CameraSafeFrom params paramNames paramValues (name ++ space :: (token ++ bar :: rest)) ↔
      name ∉ settingNames := by
  rw [CameraSafeFrom, scan_name hname, scan_bar htoken]
  exact setParams_ok_append_iff h

/-- Data with one more pair. -/
lemma cameraSafeFrom_pair_iff {name token : List UInt8} (hname : IsToken name)
    (htoken : IsToken token) (msg : List UInt8) :
    CameraSafeFrom params paramNames paramValues (name ++ space :: (token ++ space :: msg)) ↔
      ∃ value, stoi token = .ok value ∧
        CameraSafeFrom params (paramNames ++ [name]) (paramValues ++ [value]) msg := by
  rw [CameraSafeFrom, scan_name hname, scan_value htoken]
  cases stoi token with
  | error e => exact ⟨fun h => absurd h.choose_spec nofun, fun ⟨_, h, _⟩ => absurd h nofun⟩
  | ok value =>
    exact ⟨fun h => ⟨value, rfl, h⟩, fun ⟨_, hvalue, h⟩ => Except.ok.inj hvalue ▸ h⟩

/-- The handler survives what `CameraText` says, from any pair on. -/
lemma cameraSafeFrom_of_cameraText {msg : List UInt8} (hmsg : CameraText msg)
    (h : paramNames.length = paramValues.length) :
    CameraSafeFrom params paramNames paramValues msg := by
  induction hmsg generalizing paramNames paramValues with
  | last htoken rest => exact cameraSafeFrom_last h htoken rest
  | unpaired hname hfield htoken rest =>
    exact (cameraSafeFrom_unpaired_iff h hname htoken rest).mpr hfield
  | @pair name token msg hname htoken value hvalue hmsg ih =>
    have hlength : (paramNames ++ [name]).length = (paramValues ++ [value]).length := by
      rw [List.length_append, List.length_append, h]
      rfl
    exact (cameraSafeFrom_pair_iff hname htoken msg).mpr ⟨value, hvalue, ih hlength⟩

/-- The handler survives nothing else. -/
lemma cameraText_of_cameraSafeFrom {msg : List UInt8}
    (hsafe : CameraSafeFrom params paramNames paramValues msg)
    (h : paramNames.length = paramValues.length) : CameraText msg := by
  induction hn : msg.length using Nat.strongRecOn generalizing msg paramNames paramValues with
  | ind n ih =>
    rcases isToken_or_ends msg with htoken | ⟨name, rest, hname, rfl | rfl⟩
    · rw [CameraSafeFrom, scan_isToken htoken] at hsafe
      exact absurd hsafe.choose_spec nofun
    · exact .last hname rest
    rcases isToken_or_ends rest with htoken | ⟨token, rest, htoken, rfl | rfl⟩
    · rw [CameraSafeFrom, scan_name hname, scan_isToken htoken] at hsafe
      exact absurd hsafe.choose_spec nofun
    · exact .unpaired hname ((cameraSafeFrom_unpaired_iff h hname htoken rest).mp hsafe) htoken rest
    · obtain ⟨value, hvalue, hrest⟩ := (cameraSafeFrom_pair_iff hname htoken rest).mp hsafe
      have hlength : (paramNames ++ [name]).length = (paramValues ++ [value]).length := by
        rw [List.length_append, List.length_append, h]
        rfl
      have hlt : rest.length < n := by
        rw [← hn]
        simp only [List.length_append, List.length_cons]
        omega
      exact .pair hname htoken hvalue (ih rest.length hlt hrest hlength rfl)

/-- **The camera's handler comes to its end exactly on a `CameraText`.** -/
lemma cameraSafe_iff {msg : List UInt8} : CameraSafe params msg ↔ CameraText msg :=
  ⟨fun h => cameraText_of_cameraSafeFrom h rfl, fun h => cameraSafeFrom_of_cameraText h rfl⟩

end Camera

section Logging

variable {hasBehavior : Bool}

/-- The scan of a token without an end leaves the data. -/
lemma handle_isToken {token : List UInt8} (htoken : IsToken token) (blockName : List UInt8) :
    handleLoggingBlocksMessage hasBehavior token blockName = ⟨[], .outOfBounds⟩ := by
  have h : handleLoggingBlocksMessage hasBehavior (token ++ []) blockName = _ :=
    handle_name htoken.space_notMem htoken.bar_notMem [] blockName
  rw [List.append_nil] at h
  rw [h, handleLoggingBlocksMessage]

/-- The bar after a token. -/
lemma loggingSafe_last {name : List UInt8} (hname : IsToken name) (rest : List UInt8) :
    LoggingSafe hasBehavior (name ++ bar :: rest) := by
  rw [LoggingSafe, handle_name hname.space_notMem hname.bar_notMem, handle_bar]
  exact List.mem_cons_self

/-- What may stand behind a space. -/
lemma loggingSafe_space_iff {name : List UInt8} (hname : IsToken name) (msg : List UInt8) :
    LoggingSafe hasBehavior (name ++ space :: msg) ↔
      ∃ c rest, msg = c :: rest ∧ (c ≠ zero ∧ c ≠ one ∨ (c = zero ∨ c = one) ∧
        ∃ rest', rest = comma :: rest' ∧ LoggingSafe hasBehavior rest') := by
  rw [LoggingSafe, handle_name hname.space_notMem hname.bar_notMem, List.nil_append,
    handleLoggingBlocksMessage.eq_def]
  simp only [show space ≠ bar by decide, if_false, if_true]
  rcases msg with _ | ⟨c, rest⟩
  · simp
  by_cases hzero : c = zero
  · rcases rest with _ | ⟨c', rest⟩
    · simp [hzero]
    by_cases hcomma : c' = comma <;> simp [hzero, hcomma, LoggingSafe]
  by_cases hone : c = one
  · rcases rest with _ | ⟨c', rest⟩
    · simp [hone]
    by_cases hcomma : c' = comma <;> simp [hone, hcomma, LoggingSafe]
  · simp [hzero, hone]

/-- The handler survives what `LoggingText` says. -/
lemma loggingSafe_of_loggingText {msg : List UInt8} (hmsg : LoggingText msg) :
    LoggingSafe hasBehavior msg := by
  induction hmsg with
  | last hname rest => exact loggingSafe_last hname rest
  | badFlag hname hzero hone rest =>
    exact (loggingSafe_space_iff hname _).mpr ⟨_, rest, rfl, .inl ⟨hzero, hone⟩⟩
  | entry hname hflag hmsg ih =>
    exact (loggingSafe_space_iff hname _).mpr ⟨_, _, rfl, .inr ⟨hflag, _, rfl, ih⟩⟩

/-- The handler survives nothing else. -/
lemma loggingText_of_loggingSafe {msg : List UInt8} (hsafe : LoggingSafe hasBehavior msg) :
    LoggingText msg := by
  induction hn : msg.length using Nat.strongRecOn generalizing msg with
  | ind n ih =>
    rcases isToken_or_ends msg with htoken | ⟨name, rest, hname, rfl | rfl⟩
    · rw [LoggingSafe, handle_isToken htoken] at hsafe
      exact absurd hsafe (by decide)
    · exact .last hname rest
    obtain ⟨c, rest, rfl, ⟨hzero, hone⟩ | ⟨hflag, rest, rfl, hrest⟩⟩ :=
      (loggingSafe_space_iff hname rest).mp hsafe
    · exact .badFlag hname hzero hone rest
    · have hlt : rest.length < n := by
        rw [← hn]
        simp only [List.length_append, List.length_cons]
        omega
      exact .entry hname hflag (ih rest.length hlt hrest rfl)

/-- **The selection's handler comes to its end exactly on a `LoggingText`.** -/
lemma loggingSafe_iff {msg : List UInt8} : LoggingSafe hasBehavior msg ↔ LoggingText msg :=
  ⟨loggingText_of_loggingSafe, loggingSafe_of_loggingText⟩

end Logging


end ToolMessages

open ToolMessages LogSelection

/-- **The robot survives exactly the data that is well formed**: the camera's handler stays in the
data, in its lists and without an exception exactly on a `CameraText`, and the selection's handler
stays in the data and keeps its assertion exactly on a `LoggingText`. -/
theorem toolMessages_safe_iff (packet : PacketData) (params : CameraParams) (hasBehavior : Bool) :
    (CameraSafe params packet.data ↔ CameraText packet.data) ∧
      (LoggingSafe hasBehavior packet.data ↔ LoggingText packet.data) :=
  ⟨cameraSafe_iff, loggingSafe_iff⟩

namespace ToolMessages

/-- A packet with a short text in front of zeros. -/
def packetOf (text : List UInt8) (h : text.length ≤ dataLength) : PacketData where
  data := text ++ List.replicate (dataLength - text.length) 0
  length_data := by
    rw [List.length_append, List.length_replicate]
    omega

/-- Parameters that are all zero. -/
def zeroParams : CameraParams := ⟨0, 0, 0, 0, 0, 0, 0, 0, 0, 0⟩

end ToolMessages

/-- Not every packet is survived: a setting without a number makes `std::stoi` throw, a setting
without a value has no place in the list of values, a packet of zeros has no end, and a flag without
a comma fails the assertion. -/
theorem not_toolMessages_safe :
    (¬ ∀ packet : PacketData, CameraSafe zeroParams packet.data ∧ LoggingSafe true packet.data) ∧
      handleCameraParamsMessage zeroParams (packetOf (bytes "Gain x |") (by decide)).data =
        .error .invalidArgument ∧
      handleCameraParamsMessage zeroParams (packetOf (bytes "Gain |") (by decide)).data =
        .error .badIndex ∧
      handleCameraParamsMessage zeroParams (packetOf [] (by decide)).data = .error .outOfBounds ∧
      (handleLoggingBlocksMessage true
        (packetOf (bytes "ball 1|") (by decide)).data []).ending = .assertFailed := by
  have hassert : (handleLoggingBlocksMessage true
      (packetOf (bytes "ball 1|") (by decide)).data []).ending = .assertFailed := by decide +kernel
  have hzeros : IsToken (packetOf [] (by decide)).data := by
    constructor <;> exact fun h => absurd (List.mem_replicate.mp h).2 (by decide)
  refine ⟨fun h => ?_, by decide +kernel, by decide +kernel, ?_, hassert⟩
  · have hsafe := (h (packetOf (bytes "ball 1|") (by decide))).2
    rw [LoggingSafe, hassert] at hsafe
    exact absurd hsafe (by decide)
  · rw [handleCameraParamsMessage, scan_isToken hzeros]
    rfl

end NaoSoccer
