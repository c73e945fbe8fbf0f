import Mathlib.Algebra.Order.Ring.Nat
import Mathlib.Algebra.BigOperators.Group.List.Basic

/-!
# The selection of blocks to log

The tool writes the names of the modules and their flags into a text, `name 1,` or `name 0,` for
each and `|` at the end, and copies `DATA_LENGTH` bytes of it into the data of a `ToolPacket`.  The
robot scans the data for the end and sets the flags of the blocks as it goes.

Neither side looks at a length.  A text that is too long loses its end, and the scan leaves the
data.
-/

namespace NaoSoccer

namespace LogSelection

/-! ## The two sides -/

/-- `ToolPacket::DATA_LENGTH` -/
def dataLength : ℕ := 1024

/-- `' '` -/
def space : UInt8 := 32

/-- `','` -/
def comma : UInt8 := 44

/-- `'0'` -/
def zero : UInt8 := 48

/-- `'1'` -/
def one : UInt8 := 49

/-- `'|'` -/
def bar : UInt8 := 124

/-- A module of the selection window: the bytes of its label, and whether its box is checked. -/
structure SelectedModule where
  name : List UInt8
  checked : Bool
  deriving DecidableEq, Repr

/-- What `LogSelectWindow::sendLogSettings` appends for one module. -/
def SelectedModule.text (m : SelectedModule) : List UInt8 :=
  m.name ++ [space, if m.checked then one else zero, comma]

/-- The text of `LogSelectWindow::sendLogSettings`. -/
def settingsText (modules : List SelectedModule) : List UInt8 :=
  modules.flatMap SelectedModule.text ++ [bar]

/-- The data of the packet that `LogSelectWindow::sendLogSettings` builds.  `memcpy` goes on behind
the text and the zero at its end to what lies `beyond`. -/
def sendLogSettings (beyond : ℕ → UInt8) (modules : List SelectedModule) : List UInt8 :=
  (List.range dataLength).map fun i => (settingsText modules ++ [0])[i]?.getD (beyond i)

/-- What `CommunicationModule::handleLoggingBlocksMessage` does for a name. -/
inductive LogCall
  | setBlockLogging (name : List UInt8) (logBlock : Bool)
  | logBehaviorTrace (logBlock : Bool)
  deriving DecidableEq, Repr

/-- How the scan ends. -/
inductive ScanEnd
  | done
  | badLoggingInfo
  | assertFailed
  | outOfBounds
  deriving DecidableEq, Repr

/-- The calls of `CommunicationModule::handleLoggingBlocksMessage` and how it ends. -/
structure Scan where
  calls : List LogCall
  ending : ScanEnd
  deriving DecidableEq, Repr

/-- `"behavior_trace"` -/
def behaviorTrace : List UInt8 :=
  [98, 101, 104, 97, 118, 105, 111, 114, 95, 116, 114, 97, 99, 101]

/-- The call for a name; `hasBehavior` says that `behavior_` is not null. -/
def logCall (hasBehavior : Bool) (name : List UInt8) (logBlock : Bool) : List LogCall :=
  if name = behaviorTrace then if hasBehavior then [.logBehaviorTrace logBlock] else []
  else [.setBlockLogging name logBlock]

/-- The loop of `CommunicationModule::handleLoggingBlocksMessage` from a place of the data on, with
the name that it has collected. -/
def handleLoggingBlocksMessage (hasBehavior : Bool) : List UInt8 → List UInt8 → Scan
  | [], _ => ⟨[], .outOfBounds⟩
  | c :: msg, blockName =>
    if c = bar then ⟨[], .done⟩
    else if c = space then
      match msg with
      | [] => ⟨[], .outOfBounds⟩
      | flag :: msg =>
        if flag = zero || flag = one then
          match msg with
          | [] => ⟨logCall hasBehavior blockName (flag = one), .outOfBounds⟩
          | c :: msg =>
            if c = comma then
              let rest := handleLoggingBlocksMessage hasBehavior msg []
              ⟨logCall hasBehavior blockName (flag = one) ++ rest.calls, rest.ending⟩
            else ⟨logCall hasBehavior blockName (flag = one), .assertFailed⟩
        else ⟨[], .badLoggingInfo⟩
    else handleLoggingBlocksMessage hasBehavior msg (blockName ++ [c])

/-! ## The scan of a text -/

/-- The name contains no space, comma or bar. -/
structure WellNamed (name : List UInt8) : Prop where
  space_notMem : space ∉ name
  comma_notMem : comma ∉ name
  bar_notMem : bar ∉ name

variable {hasBehavior : Bool}

/-- The scan of a byte of a name. -/
lemma handle_cons {c : UInt8} (hbar : c ≠ bar) (hspace : c ≠ space) (msg blockName : List UInt8) :
    handleLoggingBlocksMessage hasBehavior (c :: msg) blockName =
      handleLoggingBlocksMessage hasBehavior msg (blockName ++ [c]) := by
  rw [handleLoggingBlocksMessage.eq_def]
  exact (if_neg hbar).trans (if_neg hspace)

/-- The scan of the bar. -/
lemma handle_bar (msg blockName : List UInt8) :
    handleLoggingBlocksMessage hasBehavior (bar :: msg) blockName = ⟨[], .done⟩ := by
  rw [handleLoggingBlocksMessage.eq_def]
  exact if_pos rfl

/-- The scan of a flag and the comma behind it. -/
lemma handle_flag (checked : Bool) (msg blockName : List UInt8) :
    handleLoggingBlocksMessage hasBehavior
        (space :: (if checked then one else zero) :: comma :: msg) blockName =
      ⟨logCall hasBehavior blockName checked ++
          (handleLoggingBlocksMessage hasBehavior msg []).calls,
        (handleLoggingBlocksMessage hasBehavior msg []).ending⟩ := by
  rw [handleLoggingBlocksMessage.eq_def]
  cases checked <;> rfl

/-- The scan collects a name. -/
lemma handle_name {name : List UInt8} (hspace : space ∉ name) (hbar : bar ∉ name)
    (msg blockName : List UInt8) :
    handleLoggingBlocksMessage hasBehavior (name ++ msg) blockName =
      handleLoggingBlocksMessage hasBehavior msg (blockName ++ name) := by
  induction name generalizing blockName with
  | nil => rw [List.nil_append, List.append_nil]
  | cons c name ih =>
    rw [List.mem_cons, not_or] at hspace hbar
    rw [List.cons_append, handle_cons (Ne.symm hbar.1) (Ne.symm hspace.1), ih hspace.2 hbar.2,
      List.append_assoc]
    rfl

/-- **The scan of one module** makes its call and goes on. -/
lemma handle_text {m : SelectedModule} (hname : WellNamed m.name) (msg : List UInt8) :
    handleLoggingBlocksMessage hasBehavior (m.text ++ msg) [] =
      ⟨logCall hasBehavior m.name m.checked ++
          (handleLoggingBlocksMessage hasBehavior msg []).calls,
        (handleLoggingBlocksMessage hasBehavior msg []).ending⟩ := by
  rw [SelectedModule.text, List.append_assoc, handle_name hname.space_notMem hname.bar_notMem]
  exact handle_flag m.checked msg m.name

/-- The calls for a list of modules. -/
def callsFor (hasBehavior : Bool) (modules : List SelectedModule) : List LogCall :=
  modules.flatMap fun m => logCall hasBehavior m.name m.checked

/-- **The scan of a text** makes the calls of all its modules and ends at the bar. -/
lemma handle_settingsText {modules : List SelectedModule}
    (hnames : ∀ m ∈ modules, WellNamed m.name) (rest : List UInt8) :
    handleLoggingBlocksMessage hasBehavior (settingsText modules ++ rest) [] =
      ⟨callsFor hasBehavior modules, .done⟩ := by
  induction modules with
  | nil => exact handle_bar rest []
  | cons m modules ih =>
    have hrest := ih fun m hm => hnames m (List.mem_cons_of_mem _ hm)
    have htext : settingsText (m :: modules) ++ rest = m.text ++ (settingsText modules ++ rest) := by
      simp only [settingsText, List.flatMap_cons, List.append_assoc]
    rw [htext, handle_text (hnames m List.mem_cons_self), hrest]
    rfl

/-- The scan of a text that breaks off inside a module leaves the data. -/
lemma handle_take_text {m : SelectedModule} (hname : WellNamed m.name) {k : ℕ}
    (hk : k < m.text.length) :
    (handleLoggingBlocksMessage hasBehavior (m.text.take k) []).ending = .outOfBounds := by
  have htake : m.text.take k = m.name.take k ++
      [space, if m.checked then one else zero, comma].take (k - m.name.length) := List.take_append
  have hspace : space ∉ m.name.take k := fun h => hname.space_notMem (List.mem_of_mem_take h)
  have hbar : bar ∉ m.name.take k := fun h => hname.bar_notMem (List.mem_of_mem_take h)
  rw [htake, handle_name hspace hbar]
  rw [SelectedModule.text, List.length_append] at hk
  have hcases : k - m.name.length = 0 ∨ k - m.name.length = 1 ∨ k - m.name.length = 2 := by
    simp only [List.length_cons, List.length_nil] at hk
    omega
  rcases hcases with h | h | h <;> rw [h, handleLoggingBlocksMessage.eq_def] <;>
    cases m.checked <;> rfl

/-- **The scan of a text that has lost its end** leaves the data. -/
lemma handle_take_outOfBounds {modules : List SelectedModule}
    (hnames : ∀ m ∈ modules, WellNamed m.name) {k : ℕ} (hk : k < (settingsText modules).length) :
    (handleLoggingBlocksMessage hasBehavior ((settingsText modules).take k) []).ending =
      .outOfBounds := by
  induction modules generalizing k with
  | nil =>
    obtain rfl : k = 0 := Nat.lt_one_iff.mp hk
    rfl
  | cons m modules ih =>
    have hm := hnames m List.mem_cons_self
    have htext : settingsText (m :: modules) = m.text ++ settingsText modules := by
      simp only [settingsText, List.flatMap_cons, List.append_assoc]
    rw [htext] at hk ⊢
    rw [List.length_append] at hk
    by_cases hlt : k < m.text.length
    · rw [List.take_append_of_le_length (Nat.le_of_lt hlt)]
      exact handle_take_text hm hlt
    · have htake : (m.text ++ settingsText modules).take k =
          m.text ++ (settingsText modules).take (k - m.text.length) := by
        rw [List.take_append, List.take_of_length_le (Nat.le_of_not_lt hlt)]
      rw [htake, handle_text hm]
      exact ih (fun m hm => hnames m (List.mem_cons_of_mem _ hm)) (by omega)

/-! ## The packet -/

/-- The length of the text: three bytes for each module besides its name, and the bar. -/
lemma length_settingsText (modules : List SelectedModule) :
    (settingsText modules).length = (modules.map fun m => m.name.length + 3).sum + 1 := by
  have hlength : List.length ∘ SelectedModule.text = fun m => m.name.length + 3 := by
    funext m
    exact List.length_append
  rw [settingsText, List.length_append, List.length_flatMap, ← hlength]
  rfl

/-- A text that fits is copied whole. -/
lemma sendLogSettings_of_le (beyond : ℕ → UInt8) {modules : List SelectedModule}
    (h : (settingsText modules).length ≤ dataLength) :
    ∃ rest, sendLogSettings beyond modules = settingsText modules ++ rest := by
  refine ⟨(sendLogSettings beyond modules).drop (settingsText modules).length, ?_⟩
  have htake : (sendLogSettings beyond modules).take (settingsText modules).length =
      settingsText modules := by
    apply List.ext_getElem
    · rw [List.length_take, sendLogSettings, List.length_map, List.length_range]
      omega
    · intro i hi hi'
      rw [List.getElem_take]
      simp only [sendLogSettings, List.getElem_map, List.getElem_range]
      rw [List.getElem?_append_left hi', List.getElem?_eq_getElem hi', Option.getD_some]
  calc sendLogSettings beyond modules
      = (sendLogSettings beyond modules).take (settingsText modules).length ++
          (sendLogSettings beyond modules).drop (settingsText modules).length :=
        (List.take_append_drop _ _).symm
    _ = settingsText modules ++
          (sendLogSettings beyond modules).drop (settingsText modules).length := by rw [htake]

/-- Of a text that does not fit the first bytes are copied. -/
lemma sendLogSettings_of_lt (beyond : ℕ → UInt8) {modules : List SelectedModule}
    (h : dataLength < (settingsText modules).length) :
    sendLogSettings beyond modules = (settingsText modules).take dataLength := by
  apply List.ext_getElem
  · rw [List.length_take, sendLogSettings, List.length_map, List.length_range]
    omega
  · intro i hi hi'
    rw [List.length_take] at hi'
    have hlt : i < (settingsText modules).length := by omega
    rw [List.getElem_take]
    simp only [sendLogSettings, List.getElem_map, List.getElem_range]
    rw [List.getElem?_append_left hlt, List.getElem?_eq_getElem hlt, Option.getD_some]

/-- A text that does not fit makes the scan leave the data. -/
lemma handle_long {modules : List SelectedModule} (hnames : ∀ m ∈ modules, WellNamed m.name)
    (h : dataLength < (settingsText modules).length) (beyond : ℕ → UInt8) :
    (handleLoggingBlocksMessage hasBehavior (sendLogSettings beyond modules) []).ending =
      .outOfBounds := by
  rw [sendLogSettings_of_lt beyond h]
  exact handle_take_outOfBounds hnames h

/-- The calls of a robot that has its behavior block: one for every module, in order. -/
lemma callsFor_true (modules : List SelectedModule) :
    callsFor true modules = modules.map fun m =>
      if m.name = behaviorTrace then .logBehaviorTrace m.checked
      else .setBlockLogging m.name m.checked := by
  rw [callsFor, List.map_eq_flatMap]
  refine congrArg (List.flatMap · modules) (funext fun m => ?_)
  rw [logCall]
  split <;> rfl

end LogSelection

open LogSelection

/-- **The selection reaches the robot intact exactly if its text fits into the packet**: the robot
makes one call for every module, with its name and flag and in order, and reads nothing but the
data. -/
theorem logSelection_intact_iff (beyond : ℕ → UInt8) (modules : List SelectedModule)
    (hnames : ∀ m ∈ modules, WellNamed m.name) :
    handleLoggingBlocksMessage true (sendLogSettings beyond modules) [] =
        ⟨modules.map fun m =>
          if m.name = behaviorTrace then .logBehaviorTrace m.checked
          else .setBlockLogging m.name m.checked, .done⟩ ↔
      (modules.map fun m => m.name.length + 3).sum + 1 ≤ dataLength := by
  rw [← length_settingsText, ← callsFor_true]
  constructor
  · intro h
    by_contra hlong
    have hleft : (handleLoggingBlocksMessage true (sendLogSettings beyond modules) []).ending =
        .outOfBounds := handle_long hnames (Nat.lt_of_not_le hlong) beyond
    rw [h] at hleft
    exact absurd hleft nofun
  · intro hfits
    obtain ⟨rest, hdata⟩ := sendLogSettings_of_le beyond hfits
    rw [hdata]
    exact handle_settingsText hnames rest

namespace LogSelection

instance (name : List UInt8) : Decidable (WellNamed name) :=
  decidable_of_iff (space ∉ name ∧ comma ∉ name ∧ bar ∉ name)
    ⟨fun h => ⟨h.1, h.2.1, h.2.2⟩, fun h => ⟨h.space_notMem, h.comma_notMem, h.bar_notMem⟩⟩

/-- A hundred modules with different names of eight bytes. -/
def hundredModules : List SelectedModule :=
  (List.range 100).map fun i =>
    ⟨[98, 108, 111, 99, 107, 95, 48 + (i / 10).toUInt8, 48 + (i % 10).toUInt8], true⟩

end LogSelection

/-- Two modules reach the robot. -/
theorem logSelection_intact_two :
    handleLoggingBlocksMessage true
        (sendLogSettings (fun _ => 0) [⟨[97, 98], true⟩, ⟨behaviorTrace, false⟩]) [] =
      ⟨[.setBlockLogging [97, 98] true, .logBehaviorTrace false], .done⟩ :=
  (logSelection_intact_iff (fun _ => 0) [⟨[97, 98], true⟩, ⟨behaviorTrace, false⟩]
    (by decide)).mpr (by decide)

/-- With a hundred modules the end of the text is lost, and the robot reads on behind the data. -/
theorem logSelection_hundred :
    (∀ m ∈ hundredModules, WellNamed m.name) ∧
      (handleLoggingBlocksMessage true (sendLogSettings (fun _ => 0) hundredModules) []).ending =
        .outOfBounds := by
  have hnames : ∀ m ∈ hundredModules, WellNamed m.name := by decide +kernel
  have hlong : dataLength < (settingsText hundredModules).length := by
    rw [length_settingsText]
    decide +kernel
  exact ⟨hnames, handle_long hnames hlong _⟩

end NaoSoccer
