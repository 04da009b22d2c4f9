import Mathlib.Logic.Function.Basic
import Taq102.Lib.CString

/-! The brightness that the supply sustains (`power_policy.c`): three current readings make a
window, and a full window decides the level of the supply it was measured on. Sums and
differences are those of C where these do not overflow. -/
namespace Taq102.Runtime
open Taq102.Lib

/-- A sample of the battery, the supplies and the link (`status.h`). -/
structure Status where
  haveBatt : Bool
  cap : Int
  mv : Int
  ma : Int
  plugged : Bool
  word : CStr
  haveWifi : Bool
  level : Int
  quality : Int
  addr : CStr
  usbOnline : Int
  acOnline : Int
  usbValid : Bool
  acValid : Bool
  onlineValid : Bool
  currentUa : Int
  currentValid : Bool
  capValid : Bool
  wordValid : Bool
  readMs : Int
  deriving DecidableEq, Repr

/-- What the policy has learned of one supply; a level of 0 is none. -/
structure SourcePolicy where
  level : Int
  failedLevel : Int
  failedAtMs : Int
  lastUpAtMs : Int
  lastUpLevel : Int
  deriving DecidableEq, Repr

structure PowerPolicy where
  maxLevel : Int
  effectiveLevel : Int
  effectiveSource : Int
  source : Fin 2 → SourcePolicy
  samples : Nat
  currentSum : Int
  currentUa : Fin 3 → Int
  nextSample : Fin 3
  windowStartedMs : Int
  lastReadMs : Int
  windowSource : Int
  windowFull : Int
  note : CStr

def minimum (value maximum : Int) : Int := if value < maximum then value else maximum

def resetWindow (policy : PowerPolicy) (now : Int) : PowerPolicy :=
  { policy with
    samples := 0
    currentSum := 0
    nextSample := 0
    windowStartedMs := now
    windowSource := -2
    windowFull := -1 }

/-- The level in effect: -1 unless it changes. -/
def applyLevel (policy : PowerPolicy) (level source : Int) : Int × PowerPolicy :=
  (if level ≠ policy.effectiveLevel then level else -1,
    { policy with effectiveLevel := level, effectiveSource := source })

def powerPolicyNew (maxLevel now : Int) : Option PowerPolicy :=
  if maxLevel < 8 then none
  else some {
    maxLevel
    effectiveLevel := 0
    effectiveSource := -2
    source := fun _ =>
      { level := 0, failedLevel := 0, failedAtMs := 0, lastUpAtMs := 0, lastUpLevel := 0 }
    samples := 0
    currentSum := 0
    currentUa := fun _ => 0
    nextSample := 0
    windowStartedMs := now
    lastReadMs := 0
    windowSource := -2
    windowFull := -1
    note := [] }

/-- A step down; one that takes back a recent step up marks that level as failed. -/
def lower (state : SourcePolicy) (floor now : Int) : SourcePolicy :=
  let lowered := { state with level := if state.level - 16 < floor then floor else state.level - 16 }
  if state.lastUpLevel = state.level ∧ now - state.lastUpAtMs ≤ 60000 then
    { lowered with failedLevel := state.lastUpLevel, failedAtMs := now, lastUpLevel := 0 }
  else lowered

def candidateUp (level maxLevel : Int) : Int := if level + 16 > maxLevel then maxLevel else level + 16

/-- A step up, unless its level failed not long ago. -/
def raise (state : SourcePolicy) (maxLevel now : Int) : SourcePolicy :=
  let candidate := candidateUp state.level maxLevel
  if candidate = state.failedLevel ∧ now - state.failedAtMs < 600000 then state
  else { state with level := candidate, lastUpAtMs := now, lastUpLevel := candidate }

/-- The supply's state and the note after a decision on it. -/
def learn (state : SourcePolicy) (maxLevel average now : Int) : SourcePolicy × CStr :=
  let floor := minimum 40 maxLevel
  if state.level = 0 then ({ state with level := floor }, [])
  else if average < -50000 then
    if state.level = floor then (state, cstr "cannot sustain") else (lower state floor now, [])
  else if average > 100000 ∧ state.level < maxLevel then (raise state maxLevel now, [])
  else (state, [])

def decideLevel (policy : PowerPolicy) (source : Fin 2) (average now : Int) : Int × PowerPolicy :=
  let learned := learn (policy.source source) policy.maxLevel average now
  applyLevel { policy with
    source := Function.update policy.source source learned.1
    note := learned.2 } learned.1.level source.val

/-- The reading is complete, fresh and newer than the last one. -/
def validReading (policy : PowerPolicy) (status : Status) (now : Int) : Bool :=
  status.onlineValid && status.usbValid && status.acValid && status.currentValid &&
    status.capValid && status.wordValid && 0 ≤ now - status.readMs && now - status.readMs ≤ 10000 &&
    (policy.lastReadMs = 0 || policy.lastReadMs < status.readMs)

/-- The supply the reading was taken on; `none` is the battery. -/
def supplyOf (status : Status) : Option (Fin 2) :=
  if status.usbOnline = 0 ∧ status.acOnline = 0 then none
  else if status.acOnline ≠ 0 then some 1
  else some 0

def supplyCode : Option (Fin 2) → Int
  | none => -1
  | some i => i.val

def isFull (status : Status) : Bool := (supplyOf status).isSome && status.word = cstr "Full"

/-- The state "Full" of a reading, as the window keeps it. -/
def fullCode (status : Status) : Int := if isFull status then 1 else 0

/-- The window a reading goes into: readings of another kind start it anew. -/
def windowFor (policy : PowerPolicy) (source full now : Int) : PowerPolicy :=
  if (policy.windowSource ≠ -2 ∧ policy.windowSource ≠ source) ∨
      (0 ≤ policy.windowFull ∧ policy.windowFull ≠ full) then resetWindow policy (now - 10000)
  else policy

/-- A window with one more reading of its kind. -/
def insertReading (window : PowerPolicy) (status : Status) : PowerPolicy :=
  { window with
    windowSource := supplyCode (supplyOf status)
    windowFull := fullCode status
    samples := if window.samples = 3 then 3 else window.samples + 1
    currentSum := (if window.samples = 3 then window.currentSum - window.currentUa window.nextSample
      else window.currentSum) + status.currentUa
    currentUa := Function.update window.currentUa window.nextSample status.currentUa
    nextSample := window.nextSample + 1 }

/-- The reading in the window it goes into. -/
def addReading (policy : PowerPolicy) (status : Status) (now : Int) : PowerPolicy :=
  insertReading (windowFor policy (supplyCode (supplyOf status)) (fullCode status) now) status

/-- The decision of a window that is full. -/
def closeWindow (policy : PowerPolicy) (status : Status) (now : Int) : Int × PowerPolicy :=
  let average := policy.currentSum.tdiv policy.samples
  let policy := resetWindow policy now
  match supplyOf status with
  | none => applyLevel { policy with note := [] } (minimum 128 policy.maxLevel) (-1)
  | some source =>
    if isFull status then applyLevel { policy with note := [] } policy.maxLevel (source.val + 2)
    else decideLevel policy source average now

/-- A reading that continues the readings before it. -/
def sampled (policy : PowerPolicy) (status : Status) (now : Int) : Int × PowerPolicy :=
  let policy := addReading { policy with lastReadMs := status.readMs } status now
  if policy.samples < 3 ∨ now - policy.windowStartedMs < 30000 then (-1, policy)
  else closeWindow policy status now

def powerPolicyStep (policy : PowerPolicy) (status : Status) (now : Int) (asleep : Bool) :
    Int × PowerPolicy :=
  let gap := status.readMs - policy.lastReadMs
  if asleep then (-1, { resetWindow policy now with lastReadMs := 0 })
  else if validReading policy status now = false then (-1, resetWindow policy now)
  else if policy.lastReadMs ≠ 0 ∧ 15000 < gap then sampled (resetWindow policy (now - 10000)) status now
  else if policy.lastReadMs ≠ 0 ∧ gap < 5000 then
    (-1, { resetWindow policy now with lastReadMs := status.readMs })
  else sampled policy status now

def powerPolicyLevel (policy : PowerPolicy) : Int := policy.effectiveLevel

def powerPolicyNote (policy : PowerPolicy) : CStr := policy.note

/-- The policy has decided on a level. -/
def PowerPolicy.Decided (policy : PowerPolicy) : Prop := policy.effectiveSource ≠ -2

/-- The levels learned and in effect lie between 8 and the maximum. -/
structure PowerPolicy.Sound (policy : PowerPolicy) : Prop where
  maximum : 8 ≤ policy.maxLevel
  learned : ∀ i, (policy.source i).level = 0 ∨
    8 ≤ (policy.source i).level ∧ (policy.source i).level ≤ policy.maxLevel
  idle : ¬ policy.Decided → policy.effectiveLevel = 0
  effective : policy.Decided →
    8 ≤ policy.effectiveLevel ∧ policy.effectiveLevel ≤ policy.maxLevel

/-- The windows aside, the policy is as it was. -/
structure SameLevels (policy policy' : PowerPolicy) : Prop where
  maximum : policy'.maxLevel = policy.maxLevel
  level : policy'.effectiveLevel = policy.effectiveLevel
  source : policy'.effectiveSource = policy.effectiveSource
  learned : policy'.source = policy.source

section Levels
variable {policy policy' : PowerPolicy} {status : Status} {level source now : Int}

theorem SameLevels.trans {policy'' : PowerPolicy} (h : SameLevels policy policy')
    (h' : SameLevels policy' policy'') : SameLevels policy policy'' :=
  ⟨h'.maximum.trans h.maximum, h'.level.trans h.level, h'.source.trans h.source,
    h'.learned.trans h.learned⟩

theorem SameLevels.decided (h : SameLevels policy policy') : policy'.Decided ↔ policy.Decided := by
  rw [PowerPolicy.Decided, PowerPolicy.Decided, h.source]

theorem SameLevels.sound (h : SameLevels policy policy') (hp : policy.Sound) : policy'.Sound where
  maximum := by rw [h.maximum]; exact hp.maximum
  learned i := by rw [h.learned, h.maximum]; exact hp.learned i
  idle hd := by rw [h.level]; exact hp.idle fun hd' => hd (h.decided.mpr hd')
  effective hd := by rw [h.level, h.maximum]; exact hp.effective (h.decided.mp hd)

theorem resetWindow_same (policy : PowerPolicy) (now : Int) :
    SameLevels policy (resetWindow policy now) := ⟨rfl, rfl, rfl, rfl⟩

theorem windowFor_same (policy : PowerPolicy) (source full now : Int) :
    SameLevels policy (windowFor policy source full now) := by
  rw [windowFor]
  split
  · exact resetWindow_same policy _
  · exact ⟨rfl, rfl, rfl, rfl⟩

theorem addReading_same (policy : PowerPolicy) (status : Status) (now : Int) :
    SameLevels policy (addReading policy status now) :=
  (windowFor_same policy _ _ now).trans ⟨rfl, rfl, rfl, rfl⟩

theorem minimum_mem {n m : Int} (hn : 8 ≤ n) (hm : 8 ≤ m) : 8 ≤ minimum n m ∧ minimum n m ≤ m := by
  rw [minimum]
  split <;> omega

/-- What a step answers: nothing happened to the level, or the new level. -/
structure Answers (policy : PowerPolicy) (answer : Int × PowerPolicy) : Prop where
  sound : answer.2.Sound
  maximum : answer.2.maxLevel = policy.maxLevel
  cases : (answer.1 = -1 ∧ answer.2.effectiveLevel = policy.effectiveLevel ∧
      (answer.2.Decided → policy.Decided)) ∨
    answer.1 = answer.2.effectiveLevel ∧ answer.2.Decided

theorem SameLevels.answers (h : SameLevels policy policy') (hp : policy.Sound) :
    Answers policy (-1, policy') :=
  ⟨h.sound hp, h.maximum, .inl ⟨rfl, h.level, h.decided.mp⟩⟩

theorem Answers.of_same {answer : Int × PowerPolicy} (h : SameLevels policy policy')
    (ha : Answers policy' answer) : Answers policy answer := by
  refine ⟨ha.sound, ha.maximum.trans h.maximum, ?_⟩
  rcases ha.cases with ⟨hr, hl, hd⟩ | hnew
  · exact .inl ⟨hr, hl.trans h.level, fun hd' => h.decided.mp (hd hd')⟩
  · exact .inr hnew

theorem applyLevel_answers (hp : policy.Sound) (hlow : 8 ≤ level) (hhigh : level ≤ policy.maxLevel)
    (hsource : source ≠ -2) : Answers policy (applyLevel policy level source) := by
  refine ⟨⟨hp.maximum, hp.learned, fun hd => absurd hsource hd, fun _ => ⟨hlow, hhigh⟩⟩, rfl, ?_⟩
  by_cases hsame : level = policy.effectiveLevel
  · refine .inl ⟨if_neg (not_not.mpr hsame), hsame, fun _ hsrc => ?_⟩
    have hidle := hp.idle (not_not.mpr hsrc)
    omega
  · exact .inr ⟨if_pos hsame, hsource⟩

theorem lower_mem {state : SourcePolicy} {floor maximum : Int} (hfloor : 8 ≤ floor)
    (hmax : floor ≤ maximum) (hstate : state.level ≤ maximum) :
    8 ≤ (lower state floor now).level ∧ (lower state floor now).level ≤ maximum := by
  have hlevel : (lower state floor now).level =
      if state.level - 16 < floor then floor else state.level - 16 := by
    rw [lower]
    split <;> rfl
  rw [hlevel]
  split <;> omega

theorem raise_mem {state : SourcePolicy} {maximum : Int} (hlow : 8 ≤ state.level)
    (hhigh : state.level ≤ maximum) :
    8 ≤ (raise state maximum now).level ∧ (raise state maximum now).level ≤ maximum := by
  have hcandidate : 8 ≤ candidateUp state.level maximum ∧ candidateUp state.level maximum ≤ maximum := by
    rw [candidateUp]
    split <;> omega
  rw [raise]
  split
  · exact ⟨hlow, hhigh⟩
  · exact hcandidate

theorem learn_mem {state : SourcePolicy} {maximum average : Int} (hmax : 8 ≤ maximum)
    (hstate : state.level = 0 ∨ 8 ≤ state.level ∧ state.level ≤ maximum) :
    8 ≤ (learn state maximum average now).1.level ∧
      (learn state maximum average now).1.level ≤ maximum := by
  have hfloor := minimum_mem (n := 40) (by omega) hmax
  rw [learn]
  split
  · exact hfloor
  rename_i hlearned
  have hrange := hstate.resolve_left hlearned
  split
  · split
    · exact hrange
    · exact lower_mem hfloor.1 hfloor.2 hrange.2
  · split
    · exact raise_mem hrange.1 hrange.2
    · exact hrange

theorem decideLevel_answers {supply : Fin 2} {average : Int} (hp : policy.Sound) :
    Answers policy (decideLevel policy supply average now) := by
  have hmem : 8 ≤ (learn (policy.source supply) policy.maxLevel average now).1.level ∧
      (learn (policy.source supply) policy.maxLevel average now).1.level ≤ policy.maxLevel :=
    learn_mem hp.maximum (hp.learned supply)
  have hsound : PowerPolicy.Sound { policy with
      source := Function.update policy.source supply
        (learn (policy.source supply) policy.maxLevel average now).1
      note := (learn (policy.source supply) policy.maxLevel average now).2 } := by
    refine ⟨hp.maximum, fun i => ?_, hp.idle, hp.effective⟩
    rcases eq_or_ne i supply with rfl | hne
    · dsimp only
      rw [Function.update_self]
      exact .inr hmem
    · dsimp only
      rw [Function.update_of_ne hne]
      exact hp.learned i
  have happly : Answers _ (applyLevel _ _ (supply.val : Int)) :=
    applyLevel_answers hsound hmem.1 hmem.2 (by omega)
  exact ⟨happly.sound, happly.maximum, happly.cases⟩

theorem closeWindow_answers (hp : policy.Sound) : Answers policy (closeWindow policy status now) := by
  have hreset := resetWindow_same policy now
  have hsound := hreset.sound hp
  have hquiet : PowerPolicy.Sound { resetWindow policy now with note := [] } :=
    ⟨hsound.maximum, hsound.learned, hsound.idle, hsound.effective⟩
  refine Answers.of_same hreset ?_
  rw [closeWindow]
  split
  · have hmem := minimum_mem (n := 128) (by omega) hsound.maximum
    have happly : Answers _ (applyLevel _ _ (-1)) :=
      applyLevel_answers hquiet hmem.1 hmem.2 (by decide)
    exact ⟨happly.sound, happly.maximum, happly.cases⟩
  · rename_i supply _
    split
    · have happly : Answers _ (applyLevel _ _ (supply.val + 2)) :=
        applyLevel_answers hquiet hsound.maximum le_rfl (by omega)
      exact ⟨happly.sound, happly.maximum, happly.cases⟩
    · exact decideLevel_answers hsound

theorem sampled_answers (hp : policy.Sound) : Answers policy (sampled policy status now) := by
  have hread : SameLevels policy { policy with lastReadMs := status.readMs } := ⟨rfl, rfl, rfl, rfl⟩
  have hadd : SameLevels policy (addReading { policy with lastReadMs := status.readMs } status now) :=
    hread.trans (addReading_same _ status now)
  rw [sampled]
  split
  · exact hadd.answers hp
  · exact (closeWindow_answers (hadd.sound hp)).of_same hadd

/-- A step keeps the levels in range, and answers with the level when it changes. -/
theorem powerPolicyStep_answers (hp : policy.Sound) (status : Status) (now : Int) (asleep : Bool) :
    Answers policy (powerPolicyStep policy status now asleep) := by
  rw [powerPolicyStep]
  dsimp only
  split
  · exact SameLevels.answers ⟨rfl, rfl, rfl, rfl⟩ hp
  split
  · exact (resetWindow_same policy now).answers hp
  split
  · have hreset := resetWindow_same policy (now - 10000)
    exact (sampled_answers (hreset.sound hp)).of_same hreset
  split
  · exact SameLevels.answers ⟨rfl, rfl, rfl, rfl⟩ hp
  · exact sampled_answers hp

theorem powerPolicyStep_asleep (policy : PowerPolicy) (status : Status) (now : Int) :
    SameLevels policy (powerPolicyStep policy status now true).2 := ⟨rfl, rfl, rfl, rfl⟩

theorem powerPolicyNew_sound (h : powerPolicyNew level now = some policy) :
    policy.Sound ∧ policy.maxLevel = level ∧ ¬ policy.Decided := by
  rw [powerPolicyNew] at h
  split at h
  · cases h
  · cases h
    exact ⟨⟨not_lt.mp ‹_›, fun _ => .inl rfl, fun _ => rfl, fun hd => absurd rfl hd⟩, rfl,
      not_not.mpr rfl⟩

end Levels

end Taq102.Runtime
