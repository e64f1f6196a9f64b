import Mathlib.Data.List.Infix
import Mathlib.Algebra.Order.Ring.Int
import SecondScreen.Conc.Changes
import SecondScreen.Conc.Runs
import SecondScreen.Wire.RoundTrip

/-!
# The cursor tracker

The tracker is polled every few milliseconds.  A poll looks for the monitor of the stream
once a second, asks where the cursor is, and maps its position to the stream if it is on
that monitor.  What the system answers, and when, is open.

Whatever it answers, the updates are in range, numbered without gaps, and the last of them
is what the last poll has seen (`cursor_lossless`).
-/

namespace SecondScreen.Host

open SecondScreen.Conc SecondScreen.Wire SecondScreen.Client Relation

/-! ## What the system answers -/

/-- A monitor handle other than null. -/
abbrev HMONITOR := Nat

def CURSOR_SHOWING : UInt32 := 1
def DISPLAY_DEVICE_PRIMARY_DEVICE : UInt32 := 4

structure POINT where
  x : Int32
  y : Int32
deriving DecidableEq, Repr

structure RECT where
  left : Int32 := 0
  top : Int32 := 0
  right : Int32 := 0
  bottom : Int32 := 0
deriving DecidableEq, Repr

/-- What `EnumDisplayDevicesW` fills in. -/
structure DisplayDevice where
  deviceString : List UInt16
  stateFlags : UInt32
deriving DecidableEq

/-- A monitor that `EnumDisplayMonitors` shows, with the answers about it. -/
structure Monitor where
  monitor : HMONITOR
  rcMonitor : Option RECT
  displayDevice : Option DisplayDevice
deriving DecidableEq

/-- What one poll is answered. -/
structure PollAnswer where
  nowUs : UInt64
  /-- What `EnumDisplayMonitors` shows, if it is asked. -/
  monitors : List Monitor
  /-- The flags that `GetCursorInfo` fills in. -/
  cursorInfo : Option UInt32
  cursorPosition : Option POINT
  monitorFromPoint : Option HMONITOR
deriving DecidableEq

/-! ## Coordinates -/

/-- The difference of two coordinates is a `LONG`. -/
def Fits (a b : Int32) : Prop := -2 ^ 31 ≤ a.toInt - b.toInt ∧ a.toInt - b.toInt < 2 ^ 31

instance (a b : Int32) : Decidable (Fits a b) := inferInstanceAs (Decidable (_ ∧ _))

/-- The difference of two coordinates, undefined if it overflows. -/
def longSub (a b : Int32) : Option Int32 :=
  if Fits a b then some (a - b) else none

def clamp (value low high : Int32) : Int32 :=
  if value < low then low else if high < value then high else value

/-- `value * size / extent` in 64 bits. -/
def scale (value : Int32) (size : UInt32) (extent : Int32) : Int32 :=
  (value.toInt64 * size.toUInt64.toInt64 / extent.toInt64).toInt32

/-- One coordinate in the stream, of a position on a monitor from `start` to `stop`. -/
def mapCoordinate (position start stop : Int32) (size : UInt32) : Option Int32 :=
  (longSub stop start).bind fun difference ↦
    (longSub position start).bind fun offset ↦
      let monitorExtent := max 1 difference
      some (scale (clamp offset 0 (monitorExtent - 1)) size monitorExtent)

/-! ## The tracker -/

/-- What the monitors that have been shown were found to be. -/
structure MonitorSearch where
  namedMonitor : Option HMONITOR := none
  namedRect : RECT := {}
  fallbackMonitor : Option HMONITOR := none
  fallbackRect : RECT := {}
deriving DecidableEq, Repr

structure CursorUpdate where
  visible : Bool
  x : Int32
  y : Int32
  width : UInt32
  height : UInt32
  sequence : UInt64
deriving DecidableEq, Repr

structure CursorTracker where
  width : UInt32
  height : UInt32
  targetMonitor : Option HMONITOR := none
  targetRect : RECT := {}
  nextMonitorRefreshUs : UInt64 := 0
  sequence : UInt64 := 0
  hasState : Bool := false
  lastVisible : Bool := false
  lastX : Int32 := 0
  lastY : Int32 := 0
deriving DecidableEq, Repr

/-- What a poll computes: the position in the stream, zero if the cursor is hidden. -/
structure CursorView where
  visible : Bool
  x : Int32
  y : Int32
deriving DecidableEq, Repr

/-- The view that an update tells. -/
def CursorUpdate.view (u : CursorUpdate) : CursorView where
  visible := u.visible
  x := u.x
  y := u.y

namespace CursorTracker

def targetDevice : List UInt16 :=
  "USB Monitor Transport".toList.map fun c ↦ c.val.toUInt16

variable (t : CursorTracker) (a : PollAnswer)

/-- `FindMonitor`, with whether the enumeration goes on. -/
def findMonitor (search : MonitorSearch) (shown : Monitor) : Option (MonitorSearch × Bool) :=
  match shown.rcMonitor with
  | none => some (search, true)
  | some rcMonitor =>
      let deviceText := (shown.displayDevice.map DisplayDevice.deviceString).getD []
      let isTargetDevice := targetDevice <:+: deviceText
      (longSub rcMonitor.right rcMonitor.left).bind fun monitorWidth ↦
        (longSub rcMonitor.bottom rcMonitor.top).bind fun monitorHeight ↦
          let hasExpectedSize := monitorWidth = t.width.toInt32 ∧ monitorHeight = t.height.toInt32
          let isPrimary := shown.displayDevice.any fun displayDevice ↦
            displayDevice.stateFlags &&& DISPLAY_DEVICE_PRIMARY_DEVICE ≠ 0
          if isTargetDevice then
            some ({ search with namedMonitor := shown.monitor, namedRect := rcMonitor }, false)
          else if search.fallbackMonitor = none ∧ hasExpectedSize ∧ isPrimary = false then
            some ({ search with
              fallbackMonitor := shown.monitor, fallbackRect := rcMonitor }, true)
          else some (search, true)

/-- `EnumDisplayMonitors`, which shows the monitors until it is told to stop. -/
def enumDisplayMonitors (search : MonitorSearch) : List Monitor → Option MonitorSearch
  | [] => some search
  | shown :: rest =>
      (t.findMonitor search shown).bind fun (search', goesOn) ↦
        if goesOn then enumDisplayMonitors search' rest else some search'

/-- `RefreshTargetMonitor`. -/
def refreshTargetMonitor (nowUs : UInt64) (monitors : List Monitor) : Option CursorTracker :=
  (t.enumDisplayMonitors {} monitors).map fun search ↦
    { t with
      targetMonitor :=
        if search.namedMonitor ≠ none then search.namedMonitor else search.fallbackMonitor
      targetRect := if search.namedMonitor ≠ none then search.namedRect else search.fallbackRect
      nextMonitorRefreshUs := nowUs + 1000000 }

/-- The monitor is looked for if it is time. -/
def refreshed : Option CursorTracker :=
  if a.nowUs ≥ t.nextMonitorRefreshUs then t.refreshTargetMonitor a.nowUs a.monitors else some t

/-- Where the cursor is shown on the target monitor, if it is. -/
def visibleAt : Option POINT :=
  match a.cursorInfo, a.cursorPosition with
  | some flags, some position =>
      if flags &&& CURSOR_SHOWING ≠ 0 ∧ t.targetMonitor ≠ none ∧
          a.monitorFromPoint = t.targetMonitor then
        some position
      else none
  | _, _ => none

/-- What the poll computes. -/
def view : Option CursorView :=
  match t.visibleAt a with
  | none => some ⟨false, 0, 0⟩
  | some cursorPosition =>
      (mapCoordinate cursorPosition.x t.targetRect.left t.targetRect.right t.width).bind fun x ↦
        (mapCoordinate cursorPosition.y t.targetRect.top t.targetRect.bottom t.height).map fun y ↦
          ⟨true, x, y⟩

/-- The end of `Poll`: the view is emitted if it has changed. -/
def emit (v : CursorView) : CursorTracker × Option CursorUpdate :=
  if t.hasState = false ∨ v.visible ≠ t.lastVisible ∨ v.x ≠ t.lastX ∨ v.y ≠ t.lastY then
    let sequence := t.sequence + 1
    ({ t with
        hasState := true, lastVisible := v.visible, lastX := v.x, lastY := v.y, sequence },
      some ⟨v.visible, v.x, v.y, t.width, t.height, sequence⟩)
  else (t, none)

end CursorTracker

/-- A tracker with what its polls have computed and emitted. -/
structure CursorRun where
  tracker : CursorTracker
  views : List CursorView := []
  updates : List CursorUpdate := []
deriving DecidableEq

namespace CursorRun

def initial (width height : UInt32) : CursorRun where
  tracker := { width, height }

/-- `Poll`, undefined if a difference overflows. -/
def poll (s : CursorRun) (a : PollAnswer) : Option CursorRun :=
  (s.tracker.refreshed a).bind fun tracker ↦
    (tracker.view a).map fun v ↦
      { tracker := (tracker.emit v).1
        views := s.views ++ [v]
        updates := s.updates ++ (tracker.emit v).2.toList }

end CursorRun

/-! ## The mapping -/

/-- One coordinate in the stream, in whole numbers. -/
def mapped (position start stop size : Int) : Int :=
  let extent := max 1 (stop - start)
  max 0 (min (position - start) (extent - 1)) * size / extent

section mapped

variable {position position' start stop size : Int}

theorem mapped_nonneg (hsize : 1 ≤ size) : 0 ≤ mapped position start stop size := by
  apply Int.ediv_nonneg
  · exact Int.mul_nonneg (le_max_left _ _) (by omega)
  · omega

theorem mapped_lt (hsize : 1 ≤ size) : mapped position start stop size < size := by
  have hextent : 0 < max 1 (stop - start) := by omega
  apply Int.ediv_lt_of_lt_mul hextent
  rw [Int.mul_comm]
  apply Int.mul_lt_mul_of_pos_left _ (by omega)
  omega

theorem mapped_mono (hsize : 1 ≤ size) (h : position ≤ position') :
    mapped position start stop size ≤ mapped position' start stop size := by
  apply Int.ediv_le_ediv (by omega)
  apply Int.mul_le_mul_of_nonneg_right _ (by omega)
  omega

/-- On a monitor of the stream's size a position is mapped to its offset. -/
theorem mapped_offset (hextent : stop - start = size) (hstart : start ≤ position)
    (hstop : position < stop) : mapped position start stop size = position - start := by
  have hmax : max 1 (stop - start) = size := by omega
  have hoffset : max 0 (min (position - start) (size - 1)) = position - start := by omega
  show max 0 (min (position - start) (max 1 (stop - start) - 1)) * size / max 1 (stop - start) = _
  rw [hmax, hoffset]
  exact Int.mul_ediv_cancel _ (by omega)

end mapped

theorem longSub_eq_some {a b d : Int32} (h : longSub a b = some d) :
    Fits a b ∧ d.toInt = a.toInt - b.toInt := by
  rw [longSub] at h
  split_ifs at h with hfits
  cases h
  refine ⟨hfits, ?_⟩
  rw [Int32.toInt_sub]
  obtain ⟨hlow, hhigh⟩ := hfits
  exact Int.bmod_eq_of_le (by omega) (by omega)

theorem toInt_max_one (a : Int32) : (max 1 a).toInt = max 1 a.toInt := by
  show (if (1 : Int32) ≤ a then a else 1).toInt = _
  split_ifs with h <;> rw [Int32.le_iff_toInt_le, Int32.toInt_one] at h
  · exact (max_eq_right h).symm
  · rw [Int32.toInt_one]
    exact (max_eq_left (by omega)).symm

theorem toInt_clamp {value high : Int32} (h : 0 ≤ high.toInt) :
    (clamp value 0 high).toInt = max 0 (min value.toInt high.toInt) := by
  rw [clamp]
  simp only [Int32.lt_iff_toInt_lt, Int32.toInt_zero]
  split_ifs with hlow hhigh
  · rw [Int32.toInt_zero]
    omega
  · omega
  · omega

/-- No product or quotient overflows. -/
theorem toInt_scale {value extent : Int32} {size : UInt32} (hsize : size.toNat < 2 ^ 31)
    (hvalue : 0 ≤ value.toInt) (hlt : value.toInt < extent.toInt) :
    (scale value size extent).toInt = value.toInt * size.toNat / extent.toInt := by
  have hsize' : size.toUInt64.toInt64.toInt = size.toNat := by
    show size.toUInt64.toBitVec.toInt = size.toUInt64.toBitVec.toNat
    apply BitVec.toInt_eq_toNat_of_lt
    show 2 * size.toNat < 2 ^ 64
    omega
  have hvalue' := value.toInt_lt
  have hproduct : 0 ≤ value.toInt * size.toNat := Int.mul_nonneg hvalue (by omega)
  have hbound : value.toInt * size.toNat < 2 ^ 31 * 2 ^ 31 :=
    mul_lt_mul'' hvalue' (by omega) hvalue (by omega)
  have hquotient : value.toInt * size.toNat / extent.toInt < 2 ^ 31 := by
    apply Int.ediv_lt_of_lt_mul (by omega)
    rw [Int.mul_comm (2 ^ 31)]
    exact mul_lt_mul'' hlt (by omega) hvalue (by omega)
  have hquotient' : 0 ≤ value.toInt * size.toNat / extent.toInt :=
    Int.ediv_nonneg hproduct (by omega)
  have hmul : (value.toInt64 * size.toUInt64.toInt64).toInt = value.toInt * size.toNat := by
    rw [Int64.toInt_mul, Int32.toInt_toInt64, hsize']
    exact Int.bmod_eq_of_le (by omega) (by omega)
  rw [scale, Int64.toInt_toInt32, Int64.toInt_div, hmul, Int32.toInt_toInt64,
    Int.tdiv_eq_ediv_of_nonneg hproduct,
    @Int.bmod_eq_of_le _ (2 ^ 64) (by omega) (by omega),
    @Int.bmod_eq_of_le _ (2 ^ 32) (by omega) (by omega)]

/-- What the code computes is the mapping in whole numbers. -/
theorem toInt_mapCoordinate {position start stop m : Int32} {size : UInt32}
    (hsize : size.toNat < 2 ^ 31) (h : mapCoordinate position start stop size = some m) :
    m.toInt = mapped position.toInt start.toInt stop.toInt size.toNat := by
  obtain ⟨difference, hdifference, h⟩ := Option.bind_eq_some_iff.1 h
  obtain ⟨offset, hoffset, h⟩ := Option.bind_eq_some_iff.1 h
  cases h
  have hextent : (max 1 difference).toInt = max 1 (stop.toInt - start.toInt) := by
    rw [toInt_max_one, (longSub_eq_some hdifference).2]
  have hlast : (max 1 difference - 1).toInt = max 1 (stop.toInt - start.toInt) - 1 := by
    have hlt := (max 1 difference).toInt_lt
    rw [Int32.toInt_sub, Int32.toInt_one, hextent]
    exact Int.bmod_eq_of_le (by omega) (by omega)
  have hclamp := @toInt_clamp offset (max 1 difference - 1) (by omega)
  rw [hlast, (longSub_eq_some hoffset).2] at hclamp
  rw [toInt_scale hsize (by omega) (by omega), hclamp, hextent]
  rfl

/-- The mapping is defined if the differences are. -/
theorem exists_mapCoordinate {position start stop : Int32} {size : UInt32}
    (hextent : Fits stop start) (hoffset : Fits position start) :
    ∃ m, mapCoordinate position start stop size = some m := by
  rw [mapCoordinate, longSub, if_pos hextent, longSub, if_pos hoffset]
  exact ⟨_, rfl⟩

/-! ## The target monitor -/

/-- The extents of a rectangle are `LONG`s. -/
def RECT.Fits (r : RECT) : Prop := Host.Fits r.right r.left ∧ Host.Fits r.bottom r.top

/-- So are those of the monitors that are shown, and the offset of the cursor from the
corner of the target. -/
structure PollAnswer.Fits (a : PollAnswer) (t : CursorTracker) : Prop where
  monitors : ∀ m ∈ a.monitors, ∀ r, m.rcMonitor = some r → r.Fits
  position : ∀ t', t.refreshed a = some t' → ∀ p, a.cursorPosition = some p →
    Host.Fits p.x t'.targetRect.left ∧ Host.Fits p.y t'.targetRect.top

/-- The rectangles that a search has found are of monitors that it was shown. -/
structure MonitorSearch.Fits (search : MonitorSearch) : Prop where
  named : search.namedRect.Fits
  fallback : search.fallbackRect.Fits

theorem RECT.Fits.empty : RECT.Fits {} :=
  ⟨(by decide : Host.Fits 0 0), (by decide : Host.Fits 0 0)⟩

theorem MonitorSearch.Fits.initial : MonitorSearch.Fits {} :=
  ⟨RECT.Fits.empty, RECT.Fits.empty⟩

namespace CursorTracker

variable {t t' : CursorTracker} {a : PollAnswer}

/-- A monitor is looked at if its extents are `LONG`s. -/
theorem findMonitor_isSome {search : MonitorSearch} {shown : Monitor}
    (h : ∀ r, shown.rcMonitor = some r → r.Fits) : (t.findMonitor search shown).isSome := by
  rw [findMonitor]
  cases hrect : shown.rcMonitor with
  | none => rfl
  | some r =>
      obtain ⟨hwidth, hheight⟩ := h r hrect
      show ((longSub r.right r.left).bind fun _ ↦ _).isSome
      rw [longSub, if_pos hwidth, longSub, if_pos hheight]
      rw [Option.bind_some, Option.bind_some]
      dsimp only
      split_ifs <;> rfl

theorem findMonitor_fits {search search' : MonitorSearch} {shown : Monitor} {goesOn : Bool}
    (hfits : search.Fits) (h : t.findMonitor search shown = some (search', goesOn)) :
    search'.Fits := by
  rw [findMonitor] at h
  cases hrect : shown.rcMonitor with
  | none =>
      rw [hrect] at h
      cases h
      exact hfits
  | some r =>
      rw [hrect] at h
      obtain ⟨monitorWidth, hwidth, h⟩ := Option.bind_eq_some_iff.1 h
      obtain ⟨monitorHeight, hheight, h⟩ := Option.bind_eq_some_iff.1 h
      have hr : r.Fits := ⟨(longSub_eq_some hwidth).1, (longSub_eq_some hheight).1⟩
      dsimp only at h
      split_ifs at h <;> cases h
      · exact ⟨hr, hfits.fallback⟩
      · exact ⟨hfits.named, hr⟩
      · exact hfits

theorem enumDisplayMonitors_isSome {monitors : List Monitor} {search : MonitorSearch}
    (h : ∀ m ∈ monitors, ∀ r, m.rcMonitor = some r → r.Fits) :
    (t.enumDisplayMonitors search monitors).isSome := by
  induction monitors generalizing search with
  | nil => rfl
  | cons shown rest ih =>
      obtain ⟨⟨search', goesOn⟩, hfound⟩ := Option.isSome_iff_exists.1
        (@findMonitor_isSome t search shown (h shown List.mem_cons_self))
      rw [enumDisplayMonitors, hfound]
      cases goesOn with
      | true => exact ih fun m hm ↦ h m (List.mem_cons_of_mem _ hm)
      | false => rfl

theorem enumDisplayMonitors_fits {monitors : List Monitor} {search search' : MonitorSearch}
    (hfits : search.Fits) (h : t.enumDisplayMonitors search monitors = some search') :
    search'.Fits := by
  induction monitors generalizing search with
  | nil =>
      cases h
      exact hfits
  | cons shown rest ih =>
      obtain ⟨⟨found, goesOn⟩, hfound, h⟩ := Option.bind_eq_some_iff.1 h
      have hfits' := findMonitor_fits hfits hfound
      cases goesOn with
      | true => exact ih hfits' h
      | false =>
          cases h
          exact hfits'

/-- A refresh changes the target and the time of the next one. -/
theorem refreshed_eq (hrect : t.targetRect.Fits) (h : t.refreshed a = some t') :
    t'.targetRect.Fits ∧
      t' = { t with
        targetMonitor := t'.targetMonitor
        targetRect := t'.targetRect
        nextMonitorRefreshUs := t'.nextMonitorRefreshUs } := by
  rw [refreshed] at h
  split_ifs at h
  · obtain ⟨search, hsearch, rfl⟩ := Option.map_eq_some_iff.1 h
    have hfits : search.Fits := enumDisplayMonitors_fits .initial hsearch
    refine ⟨?_, rfl⟩
    show (ite _ _ _ : RECT).Fits
    split_ifs
    · exact hfits.named
    · exact hfits.fallback
  · cases h
    exact ⟨hrect, rfl⟩

theorem exists_refreshed (h : a.Fits t) : ∃ t', t.refreshed a = some t' := by
  rw [refreshed]
  split_ifs
  · obtain ⟨search, hsearch⟩ := Option.isSome_iff_exists.1
      (@enumDisplayMonitors_isSome t a.monitors {} h.monitors)
    rw [refreshTargetMonitor, hsearch]
    exact ⟨_, rfl⟩
  · exact ⟨t, rfl⟩

/-! ## The view -/

/-- The cursor is shown at the position that `GetCursorPos` fills in. -/
theorem cursorPosition_of_visibleAt {p : POINT} (h : t.visibleAt a = some p) :
    a.cursorPosition = some p := by
  rw [visibleAt] at h
  split at h
  · split_ifs at h
    cases h
    assumption
  · cases h

theorem view_eq_some {v : CursorView} (h : t.view a = some v) :
    t.visibleAt a = none ∧ v = ⟨false, 0, 0⟩ ∨
      ∃ p, t.visibleAt a = some p ∧ v.visible = true ∧
        mapCoordinate p.x t.targetRect.left t.targetRect.right t.width = some v.x ∧
        mapCoordinate p.y t.targetRect.top t.targetRect.bottom t.height = some v.y := by
  rw [view] at h
  cases hvisible : t.visibleAt a with
  | none =>
      rw [hvisible] at h
      exact .inl ⟨rfl, (Option.some.inj h).symm⟩
  | some p =>
      rw [hvisible] at h
      obtain ⟨x, hx, h⟩ := Option.bind_eq_some_iff.1 h
      obtain ⟨y, hy, rfl⟩ := Option.map_eq_some_iff.1 h
      exact .inr ⟨p, rfl, rfl, hx, hy⟩

theorem exists_view (hrect : t.targetRect.Fits)
    (h : ∀ p, a.cursorPosition = some p → Fits p.x t.targetRect.left ∧ Fits p.y t.targetRect.top) :
    ∃ v, t.view a = some v := by
  rw [view]
  cases hvisible : t.visibleAt a with
  | none => exact ⟨_, rfl⟩
  | some p =>
      obtain ⟨hx, hy⟩ := h p (cursorPosition_of_visibleAt hvisible)
      obtain ⟨x, hx⟩ := @exists_mapCoordinate _ _ _ t.width hrect.1 hx
      obtain ⟨y, hy⟩ := @exists_mapCoordinate _ _ _ t.height hrect.2 hy
      refine ⟨⟨true, x, y⟩, ?_⟩
      show (Option.bind _ _) = _
      rw [hx, Option.bind_some, hy]
      rfl

/-- A poll finds the cursor shown at a position on the rectangle, and computes the view. -/
def Maps (width height : UInt32) (rect : RECT) (p : POINT) (v : CursorView) : Prop :=
  ∃ (t : CursorTracker) (a : PollAnswer), t.width = width ∧ t.height = height ∧
    t.targetRect = rect ∧ t.visibleAt a = some p ∧ t.view a = some v

section Maps

variable {width height : UInt32} {rect : RECT} {p p' : POINT} {v v' : CursorView}

theorem Maps.coordinates (h : Maps width height rect p v) :
    mapCoordinate p.x rect.left rect.right width = some v.x ∧
      mapCoordinate p.y rect.top rect.bottom height = some v.y := by
  obtain ⟨t, a, rfl, rfl, rfl, hp, hv⟩ := h
  rcases view_eq_some hv with ⟨hnone, -⟩ | ⟨q, hq, -, hx, hy⟩
  · cases hp.symm.trans hnone
  · cases hp.symm.trans hq
    exact ⟨hx, hy⟩

/-- On one rectangle the view follows the cursor. -/
theorem Maps.mono (hwidth : 1 ≤ width.toNat ∧ width.toNat ≤ 16384)
    (hheight : 1 ≤ height.toNat ∧ height.toNat ≤ 16384) (h : Maps width height rect p v)
    (h' : Maps width height rect p' v') :
    (p.x ≤ p'.x → v.x ≤ v'.x) ∧ (p.y ≤ p'.y → v.y ≤ v'.y) := by
  obtain ⟨hx, hy⟩ := h.coordinates
  obtain ⟨hx', hy'⟩ := h'.coordinates
  simp only [Int32.le_iff_toInt_le]
  rw [toInt_mapCoordinate (by omega) hx, toInt_mapCoordinate (by omega) hx',
    toInt_mapCoordinate (by omega) hy, toInt_mapCoordinate (by omega) hy']
  exact ⟨mapped_mono (by omega), mapped_mono (by omega)⟩

/-- On a rectangle of the stream's size the view is the offset of the cursor. -/
theorem Maps.offset (hwidth : width.toNat ≤ 16384) (hheight : height.toNat ≤ 16384)
    (h : Maps width height rect p v) :
    (rect.right.toInt - rect.left.toInt = width.toNat → rect.left ≤ p.x → p.x < rect.right →
      v.x.toInt = p.x.toInt - rect.left.toInt) ∧
    (rect.bottom.toInt - rect.top.toInt = height.toNat → rect.top ≤ p.y → p.y < rect.bottom →
      v.y.toInt = p.y.toInt - rect.top.toInt) := by
  obtain ⟨hx, hy⟩ := h.coordinates
  rw [toInt_mapCoordinate (by omega) hx, toInt_mapCoordinate (by omega) hy]
  simp only [Int32.le_iff_toInt_le, Int32.lt_iff_toInt_lt]
  exact ⟨mapped_offset, mapped_offset⟩

end Maps

/-- The view is a place in the stream. -/
theorem view_inRange {v : CursorView} (hwidth : 1 ≤ t.width.toNat ∧ t.width.toNat ≤ 16384)
    (hheight : 1 ≤ t.height.toNat ∧ t.height.toNat ≤ 16384) (h : t.view a = some v) :
    (0 ≤ v.x.toInt ∧ v.x.toInt < t.width.toNat) ∧ 0 ≤ v.y.toInt ∧ v.y.toInt < t.height.toNat := by
  rcases view_eq_some h with ⟨-, rfl⟩ | ⟨p, -, -, hx, hy⟩
  · rw [Int32.toInt_zero]
    omega
  · rw [toInt_mapCoordinate (by omega) hx, toInt_mapCoordinate (by omega) hy]
    exact ⟨⟨mapped_nonneg (by omega), mapped_lt (by omega)⟩, mapped_nonneg (by omega),
      mapped_lt (by omega)⟩

/-! ## What a poll emits -/

/-- The view that was emitted last. -/
def last (t : CursorTracker) : Option CursorView :=
  if t.hasState then some ⟨t.lastVisible, t.lastX, t.lastY⟩ else none

theorem emit_of_last {v : CursorView} (h : t.last = some v) : t.emit v = (t, none) := by
  rw [last] at h
  split_ifs at h with hstate
  cases h
  rw [emit, if_neg]
  rintro (h | h | h | h)
  · exact Bool.noConfusion (h.symm.trans hstate)
  · exact h rfl
  · exact h rfl
  · exact h rfl

theorem emit_of_ne {v : CursorView} (h : t.last ≠ some v) :
    t.emit v =
      ({ t with
          hasState := true
          lastVisible := v.visible
          lastX := v.x
          lastY := v.y
          sequence := t.sequence + 1 },
        some ⟨v.visible, v.x, v.y, t.width, t.height, t.sequence + 1⟩) := by
  rw [emit, if_pos]
  by_contra hsame
  simp only [not_or, not_not, Bool.not_eq_false] at hsame
  obtain ⟨hstate, hvisible, hx, hy⟩ := hsame
  apply h
  rw [last, if_pos hstate, ← hvisible, ← hx, ← hy]

end CursorTracker

/-! ## Runs of polls -/

/-- The update tells a place in the stream. -/
structure CursorUpdate.InRange (width height : UInt32) (u : CursorUpdate) : Prop where
  width_eq : u.width = width
  height_eq : u.height = height
  x : 0 ≤ u.x.toInt ∧ u.x.toInt < width.toNat
  y : 0 ≤ u.y.toInt ∧ u.y.toInt < height.toNat

namespace CursorRun

/-- The updates are the changes of the views, numbered from one. -/
structure Sound (width height : UInt32) (s : CursorRun) : Prop where
  width_eq : s.tracker.width = width
  height_eq : s.tracker.height = height
  rect : s.tracker.targetRect.Fits
  faithful : Reporter.Faithful ⟨s.views, s.updates.map CursorUpdate.view⟩
  last : s.tracker.last = s.views.getLast?
  sequence : s.tracker.sequence = UInt64.ofNat s.updates.length
  numbered : ∀ (i : Nat) (u : CursorUpdate), s.updates[i]? = some u →
    u.sequence = UInt64.ofNat (i + 1)
  inRange : ∀ u ∈ s.updates, u.InRange width height

variable {width height : UInt32} {s t : CursorRun} {a : PollAnswer}

theorem Sound.initial (width height : UInt32) : Sound width height (initial width height) where
  width_eq := rfl
  height_eq := rfl
  rect := RECT.Fits.empty
  faithful := Reporter.Faithful.initial
  last := rfl
  sequence := rfl
  numbered i u h := by cases h
  inRange u h := by cases h

/-- The view is recorded, and the tracker emits it if it is new. -/
def Polled (s : CursorRun) (v : CursorView) (t : CursorRun) : Prop :=
  t.views = s.views ++ [v] ∧
    t.updates =
      if s.views.getLast? = some v then s.updates
      else s.updates ++ [⟨v.visible, v.x, v.y, s.tracker.width, s.tracker.height,
        UInt64.ofNat (s.updates.length + 1)⟩]

/-- The part of the invariant that a refresh leaves as it is. -/
theorem Sound.refreshed {tracker : CursorTracker} (h : Sound width height s)
    (hrefreshed : s.tracker.refreshed a = some tracker) :
    Sound width height { s with tracker } := by
  obtain ⟨hrect, heq⟩ := CursorTracker.refreshed_eq h.rect hrefreshed
  rw [heq]
  exact ⟨h.width_eq, h.height_eq, hrect, h.faithful, h.last, h.sequence, h.numbered, h.inRange⟩

/-- A view that has not changed is not emitted. -/
theorem Sound.repeated {v : CursorView} (h : Sound width height s)
    (hlast : s.tracker.last = some v) : Sound width height { s with views := s.views ++ [v] } where
  width_eq := h.width_eq
  height_eq := h.height_eq
  rect := h.rect
  faithful := by
    have hreport := h.faithful.report v
    rwa [Reporter.report, if_pos (h.faithful.getLast?.trans (h.last.symm.trans hlast))] at hreport
  last := hlast.trans List.getLast?_concat.symm
  sequence := h.sequence
  numbered := h.numbered
  inRange := h.inRange

/-- A view that has changed is emitted with the next number. -/
theorem Sound.emitted {v : CursorView} (h : Sound width height s) (hlast : s.tracker.last ≠ some v)
    (hx : 0 ≤ v.x.toInt ∧ v.x.toInt < width.toNat)
    (hy : 0 ≤ v.y.toInt ∧ v.y.toInt < height.toNat) :
    Sound width height
      { tracker := (s.tracker.emit v).1
        views := s.views ++ [v]
        updates := s.updates ++ (s.tracker.emit v).2.toList } := by
  rw [CursorTracker.emit_of_ne hlast, Option.toList_some]
  refine ⟨h.width_eq, h.height_eq, h.rect, ?_, List.getLast?_concat.symm, ?_, fun i u hu ↦ ?_,
    fun u hu ↦ ?_⟩
  · have hreport := h.faithful.report v
    rw [Reporter.report, if_neg] at hreport
    · rwa [List.map_append]
    · rw [h.faithful.getLast?, ← h.last]
      exact hlast
  · rw [List.length_append, h.sequence, UInt64.ofNat_add]
    rfl
  · rcases Nat.lt_trichotomy i s.updates.length with hi | rfl | hi
    · rw [List.getElem?_append_left hi] at hu
      exact h.numbered i u hu
    · rw [List.getElem?_concat_length] at hu
      cases hu
      rw [h.sequence, UInt64.ofNat_add]
      rfl
    · rw [List.getElem?_append_right hi.le, List.getElem?_singleton, if_neg (by omega)] at hu
      cases hu
  · rcases List.mem_append.1 hu with hu | hu
    · exact h.inRange u hu
    · obtain rfl := List.mem_singleton.1 hu
      exact ⟨h.width_eq, h.height_eq, hx, hy⟩

/-- One poll. -/
theorem Sound.poll (hwidth : 1 ≤ width.toNat ∧ width.toNat ≤ 16384)
    (hheight : 1 ≤ height.toNat ∧ height.toNat ≤ 16384) (h : Sound width height s)
    (hpoll : s.poll a = some t) : Sound width height t := by
  obtain ⟨tracker, hrefreshed, hpoll⟩ := Option.bind_eq_some_iff.1 hpoll
  obtain ⟨v, hview, rfl⟩ := Option.map_eq_some_iff.1 hpoll
  have hsound := h.refreshed hrefreshed
  obtain ⟨hx, hy⟩ :=
    CursorTracker.view_inRange (hsound.width_eq ▸ hwidth) (hsound.height_eq ▸ hheight) hview
  by_cases hlast : tracker.last = some v
  · rw [CursorTracker.emit_of_last hlast, Option.toList_none, List.append_nil]
    exact hsound.repeated hlast
  · exact hsound.emitted hlast (hsound.width_eq ▸ hx) (hsound.height_eq ▸ hy)

/-- A poll is defined if the differences are. -/
theorem Sound.exists_poll (h : Sound width height s) (hfits : a.Fits s.tracker) :
    (s.poll a).isSome := by
  obtain ⟨tracker, hrefreshed⟩ := CursorTracker.exists_refreshed hfits
  obtain ⟨v, hview⟩ :=
    CursorTracker.exists_view (h.refreshed hrefreshed).rect (hfits.position tracker hrefreshed)
  rw [CursorRun.poll, hrefreshed, Option.bind_some, hview]
  rfl

/-- A poll emits its view exactly if it is not that of the poll before. -/
theorem Sound.polled (h : Sound width height s) (hpoll : s.poll a = some t) :
    ∃ tracker v, s.tracker.refreshed a = some tracker ∧ tracker.view a = some v ∧
      s.Polled v t := by
  obtain ⟨tracker, hrefreshed, hpoll⟩ := Option.bind_eq_some_iff.1 hpoll
  obtain ⟨v, hview, rfl⟩ := Option.map_eq_some_iff.1 hpoll
  have hsound := h.refreshed hrefreshed
  refine ⟨tracker, v, hrefreshed, hview, rfl, ?_⟩
  have hlast : tracker.last = s.views.getLast? := hsound.last
  by_cases hsame : tracker.last = some v
  · rw [if_pos (hlast ▸ hsame), CursorTracker.emit_of_last hsame]
    exact List.append_nil _
  · have hsequence : tracker.sequence + 1 = UInt64.ofNat (s.updates.length + 1) := by
      rw [UInt64.ofNat_add, hsound.sequence]
      rfl
    rw [if_neg (hlast ▸ hsame), CursorTracker.emit_of_ne hsame, hsequence, hsound.width_eq,
      hsound.height_eq, h.width_eq, h.height_eq]
    rfl

theorem sound_of_run (hwidth : 1 ≤ width.toNat ∧ width.toNat ≤ 16384)
    (hheight : 1 ≤ height.toNat ∧ height.toNat ≤ 16384)
    (hrun : ReflTransGen (Moves poll fun _ _ ↦ True) (initial width height) s) :
    Sound width height s := by
  apply run_preserves _ (Sound.initial width height) hrun
  rintro s t hs ⟨a, -, hpoll⟩
  exact hs.poll hwidth hheight hpoll

/-- **The cursor is followed without loss.**  The updates are in range, numbered from one, and
reach the client as they are; a poll emits one exactly if what it computes is not what the
poll before it has computed, and what is mapped keeps its order. -/
theorem cursor_lossless (hwidth : 1 ≤ width.toNat ∧ width.toNat ≤ 16384)
    (hheight : 1 ≤ height.toNat ∧ height.toNat ≤ 16384)
    (hrun : ReflTransGen (Moves poll fun _ _ ↦ True) (initial width height) s) :
    (∀ (i : Nat) (u : CursorUpdate), s.updates[i]? = some u →
      u.InRange width height ∧ u.sequence = UInt64.ofNat (i + 1) ∧
        ∀ (nanoTime : Int64) (now : UInt64),
          dispatchControl (controlFrame nanoTime now
            (cursorPayload u.visible u.x u.y u.width u.height u.sequence)) =
              .ok (some { visible := u.visible, x := u.x, y := u.y
                          width := u.width.toInt32
                          height := u.height.toInt32
                          sequence := u.sequence.toInt64 })) ∧
    s.updates.map CursorUpdate.view = s.views.destutter (· ≠ ·) ∧
    (s.updates.map CursorUpdate.view).getLast? = s.views.getLast? ∧
    (∀ a : PollAnswer, a.Fits s.tracker → (s.poll a).isSome) ∧
    (∀ (a : PollAnswer) (t : CursorRun), s.poll a = some t →
      ∃ tracker v, s.tracker.refreshed a = some tracker ∧ tracker.view a = some v ∧
        s.Polled v t) ∧
    ∀ (rect : RECT) (p : POINT) (v : CursorView), CursorTracker.Maps width height rect p v →
      (∀ (p' : POINT) (v' : CursorView), CursorTracker.Maps width height rect p' v' →
        (p.x ≤ p'.x → v.x ≤ v'.x) ∧ (p.y ≤ p'.y → v.y ≤ v'.y)) ∧
      (rect.right.toInt - rect.left.toInt = width.toNat → rect.left ≤ p.x → p.x < rect.right →
        v.x.toInt = p.x.toInt - rect.left.toInt) ∧
      (rect.bottom.toInt - rect.top.toInt = height.toNat → rect.top ≤ p.y →
        p.y < rect.bottom → v.y.toInt = p.y.toInt - rect.top.toInt) := by
  have hsound := sound_of_run hwidth hheight hrun
  refine ⟨fun i u hu ↦ ?_, hsound.faithful, hsound.faithful.getLast?, fun a ↦ hsound.exists_poll,
    fun a t ↦ hsound.polled, fun rect p v h ↦ ?_⟩
  · have hrange := hsound.inRange u (List.mem_of_getElem? hu)
    refine ⟨hrange, hsound.numbered i u hu, fun nanoTime now ↦ ?_⟩
    rw [hrange.width_eq, hrange.height_eq]
    exact dispatchControl_cursor nanoTime now u.visible u.x u.y u.sequence hwidth hheight
  · exact ⟨fun p' v' ↦ h.mono hwidth hheight, h.offset hwidth.2 hheight.2⟩

/-- A monitor to the left of the primary one, with twice the size of the stream. -/
def leftMonitor : Monitor where
  monitor := 7
  rcMonitor := some ⟨-8, 0, 0, 4⟩
  displayDevice := some ⟨CursorTracker.targetDevice, 0⟩

/-- The cursor is on it, moves within a pixel of the stream, and leaves it. -/
def moves : List PollAnswer :=
  [⟨5, [leftMonitor], some 1, some ⟨-3, 2⟩, some 7⟩, ⟨6, [], some 1, some ⟨-4, 3⟩, some 7⟩,
    ⟨7, [], some 1, some ⟨3, 2⟩, some 1⟩]

theorem cursor_lossless_moves : ∃ s : CursorRun,
    s.updates = [⟨true, 2, 1, 4, 2, 1⟩, ⟨false, 0, 0, 4, 2, 2⟩] ∧
      (s.updates.map CursorUpdate.view).getLast? = s.views.getLast? ∧
      ∃ u, s.updates[1]? = some u ∧ u.sequence = UInt64.ofNat 2 := by
  obtain ⟨s, hrun, hupdates⟩ :
      ∃ s, ReflTransGen (Moves poll fun _ _ ↦ True) (initial 4 2) s ∧
        s.updates = [⟨true, 2, 1, 4, 2, 1⟩, ⟨false, 0, 0, 4, 2, 2⟩] :=
    exists_run moves (by decide +kernel)
  obtain ⟨hnumbered, -, hlast, -⟩ := cursor_lossless (by decide) (by decide) hrun
  have hu : s.updates[1]? = some ⟨false, 0, 0, 4, 2, 2⟩ := by
    rw [hupdates]
    rfl
  exact ⟨s, hupdates, hlast, _, hu, (hnumbered 1 _ hu).2.1⟩

end CursorRun

end SecondScreen.Host
