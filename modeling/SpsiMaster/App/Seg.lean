import SpsiMaster.App.World

/-!
# Signal counters

`applications/seg.c`, with the `rssi_level_select` functions of `radio/Radio_Decoder.c` that call
it. The counters of the two radios are the values of one pair of functions.
-/

namespace Spsi

namespace Seg

/-- `rf433_rssi_count_increase`, `rf4068_rssi_count_increase`. -/
def rssiCountIncrease (s : Seg) (r : Radio) : Seg :=
  if s.rssiCount r < 5 then
    { s with rssiCount := Function.update s.rssiCount r (s.rssiCount r + 1) }
  else s

/-- `rf433_rssi_count_resume`, `rf4068_rssi_count_resume`. -/
def rssiCountResume (s : Seg) (r : Radio) : Seg :=
  { s with rssiCount := Function.update s.rssiCount r 0 }

/-- `rf433_alive_count_increase`, `rf4068_alive_count_increase`. -/
def rfAliveCountIncrease (s : Seg) (r : Radio) : Seg :=
  let s := if s.aliveConut r < 2 then
      { s with aliveConut := Function.update s.aliveConut r (s.aliveConut r + 1) }
    else s
  { s with rssiCount := Function.update s.rssiCount r 0 }

/-- `rf433_alive_count_resume`, `rf4068_alive_count_resume`. -/
def aliveCountResume (s : Seg) (r : Radio) : Seg :=
  { s with aliveConut := Function.update s.aliveConut r 0 }

/-- `alive_count_increase`. -/
def aliveCountIncrease (s : Seg) (select : Nat) : Seg :=
  if select ≠ 0 then s.rfAliveCountIncrease .rf433 else s.rfAliveCountIncrease .rf4068

/-- `rf433_rssi_level_select`, `rf4068_rssi_level_select`: the level and the counters. -/
def rssiLevelSelect (s : Seg) (r : Radio) (rssi : Int) : Nat × Seg :=
  if rssi > -68 then (5, (s.rssiCountResume r).aliveCountResume r)
  else if rssi ≤ -68 ∧ rssi > -81 then (4, (s.rssiCountResume r).aliveCountResume r)
  else if rssi ≤ -81 ∧ rssi > -90 then (3, (s.rssiCountResume r).aliveCountResume r)
  else (2, (s.rssiCountIncrease r).aliveCountResume r)

def seg1Control (s : Seg) (level : Nat) : Seg :=
  if s.seg1Level ≠ level then { s with seg1Level := level, out1 := level } else s

def seg2Control (s : Seg) (level : Nat) : Seg :=
  if s.seg2Level ≠ level then { s with seg2Level := level, out2 := level } else s

/-- One turn of the loop of `seg_callback`. -/
def callback (s : Seg) : Seg :=
  let s := if s.rssiCount .rf4068 > 4 ∨ s.rssiCount .rf433 > 4 then s.seg1Control 1
    else s.seg1Control 0
  if s.aliveConut .rf4068 > 1 ∨ s.aliveConut .rf433 > 1 then s.seg2Control 1 else s.seg2Control 0

/-- The level of an accepted frame is one of the four display modes that show a link. -/
theorem rssiLevelSelect_mem (s : Seg) (r : Radio) (rssi : Int) :
    2 ≤ (s.rssiLevelSelect r rssi).1 ∧ (s.rssiLevelSelect r rssi).1 ≤ 5 := by
  unfold rssiLevelSelect
  split
  · simp
  · split
    · simp
    · split <;> simp

end Seg

/-- `alive_count_increase`, with the radio it charges. -/
def World.aliveCountIncrease (w : World) (select : Nat) : World :=
  (w.onSeg fun s => s.aliveCountIncrease select).log (.charged (Radio.select select))

end Spsi
