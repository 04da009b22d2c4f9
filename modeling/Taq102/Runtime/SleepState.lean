import Mathlib.Algebra.Group.Int.Defs
import Mathlib.Data.Int.Notation

/-! The idle timer and the pick-up detector (`sleep_state.c`). -/
namespace Taq102.Runtime

def int64Max : Int := 2 ^ 63 - 1
def int64Min : Int := -2 ^ 63

structure SleepTimer where
  deadlineMs : Int
  minutes : Int
  deriving DecidableEq, Repr

def addDurationSaturated (now duration : Int) : Int :=
  if now > int64Max - duration then int64Max else now + duration

def resetDeadline (timer : SleepTimer) (now : Int) : SleepTimer :=
  { timer with
    deadlineMs :=
      if timer.minutes ≤ 0 then int64Max else addDurationSaturated now (timer.minutes * 60000) }

def sleepTimerInit (minutes now : Int) : SleepTimer :=
  resetDeadline { deadlineMs := 0, minutes } now

def sleepTimerTouch (timer : SleepTimer) (now : Int) : SleepTimer := resetDeadline timer now

def sleepTimerSetMinutes (timer : SleepTimer) (minutes now : Int) : SleepTimer :=
  resetDeadline { timer with minutes } now

def sleepTimerDue (timer : SleepTimer) (now : Int) : Bool :=
  0 < timer.minutes && timer.deadlineMs ≤ now

structure Pickup where
  haveBase : Bool
  bx : Int
  «by» : Int
  bz : Int
  votes : Int
  /-- Whether there is a previous sample to settle against. -/
  haveSettle : Bool
  sx : Int
  sy : Int
  sz : Int
  settleVotes : Int
  sleptAtMs : Int
  lastSampleMs : Int
  deriving DecidableEq, Repr

def pickupStart (now : Int) : Pickup :=
  { haveBase := false, bx := 0, «by» := 0, bz := 0, votes := 0, haveSettle := false, sx := 0, sy := 0,
    sz := 0, settleVotes := 0, sleptAtMs := now, lastSampleMs := int64Min }

def baselineDue (pickup : Pickup) (now : Int) : Bool :=
  addDurationSaturated pickup.sleptAtMs 2000 ≤ now

def differsBy (sample reference limit : Int) : Bool :=
  let delta := sample - reference
  delta > limit || delta < -limit

def movedBeyondThreshold (sample baseline : Int) : Bool := differsBy sample baseline 150

/-- Whether enough samples in a row agreed with the one before them, and the sample remembered. -/
def settled (pickup : Pickup) (x y z : Int) : Bool × Pickup :=
  let pickup :=
    if !pickup.haveSettle then { pickup with haveSettle := true, settleVotes := 1 }
    else if differsBy x pickup.sx 60 || differsBy y pickup.sy 60 || differsBy z pickup.sz 60 then
      { pickup with settleVotes := 1 }
    else { pickup with settleVotes := pickup.settleVotes + 1 }
  let pickup := { pickup with sx := x, sy := y, sz := z }
  (pickup.settleVotes ≥ 3, pickup)

/-- Whether the tablet was picked up, and the detector after the sample. -/
def pickupFeed (pickup : Pickup) (x y z now : Int) : Bool × Pickup :=
  if !pickup.haveBase then
    if !baselineDue pickup now then (false, pickup)
    else if now ≤ pickup.lastSampleMs then (false, pickup)
    else
      let still := settled { pickup with lastSampleMs := now } x y z
      if !still.1 then (false, still.2)
      else (false, { still.2 with bx := x, «by» := y, bz := z, haveBase := true })
  else if now ≤ pickup.lastSampleMs then (false, pickup)
  else
    let pickup := { pickup with lastSampleMs := now }
    let pickup :=
      if movedBeyondThreshold x pickup.bx || movedBeyondThreshold y pickup.by ||
          movedBeyondThreshold z pickup.bz then
        { pickup with votes := pickup.votes + 1 }
      else { pickup with votes := 0 }
    (pickup.votes ≥ 3, pickup)

end Taq102.Runtime
