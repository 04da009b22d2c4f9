import Mathlib.Analysis.Real.Pi.Bounds
import Mathlib.Analysis.SpecialFunctions.Trigonometric.Bounds
import Taq102.Graphics.Arcball
import Taq102.Lib.CAngle
import Taq102.Touch.Router

/-! The cube in the hand (`glcube.c`): what one frame of the main loop makes of the fingers, exact over
the reals. -/
namespace Taq102.App
open Taq102.Lib CFloat
open Graphics Touch

/-- The ball, and the gesture that is under way; a pinch is when `pinchRef` is not zero. -/
structure Hand (F : Type) where
  ball : Arcball F
  touching : Bool
  pinchRef : F
  distRef : F
  prevTwist : F
  loneFrames : Int
  cam : F

section Model
variable {F : Type} [CFloat F] [CMath F]

/-- `(float)M_PI`. -/
def halfTurn : F := lit (13176795 / 4194304)

def pinchGrace : Int := 4
def pinchMinSpan : F := lit 40
def camNear : F := lit (16 / 5)
def camFar : F := lit 14
def idleHalf : F := lit (1 / 250)

/-- A comparison of floats with `==`. -/
def isZero (x : F) : Bool := decide (x ≤ lit 0) && decide (lit 0 ≤ x)

def idleSpin (ball : Arcball F) : Arcball F :=
  { ball with spin :=
      ⟨CMath.cos idleHalf, lit (7 / 20) * CMath.sin idleHalf, lit (9 / 10) * CMath.sin idleHalf,
        lit (1 / 4) * CMath.sin idleHalf⟩ }

/-- The cube before the first frame. -/
def handStart (staticScene : Bool) : Hand F :=
  let ball := arcballTwist arcballInit (lit (3 / 10))
  { ball := if staticScene then { ball with spin := ⟨lit 1, lit 0, lit 0, lit 0⟩ } else idleSpin ball
    touching := false
    pinchRef := lit 0
    distRef := lit 6
    prevTwist := lit 0
    loneFrames := 0
    cam := lit 6 }

/-- The active slots, in slot order. -/
def activeSlots (cube : CubeContacts F) : List (CubeSlot F) :=
  ((List.finRange touchMaxSlots).map cube).filter CubeSlot.active

variable [CAngle F]

def span (a b : CubeSlot F) : F :=
  CMath.sqrt ((a.x - b.x) * (a.x - b.x) + (a.y - b.y) * (a.y - b.y))

/-- The pinch begins, or goes on from where the fingers were. -/
def grip (hand : Hand F) (a b : CubeSlot F) (w h : Int) : Hand F :=
  let cx := (a.x + b.x) * lit (1 / 2)
  let cy := (a.y + b.y) * lit (1 / 2)
  let twist := CAngle.atan2 (a.y - b.y) (a.x - b.x)
  if isZero hand.pinchRef then
    { hand with
      pinchRef := span a b
      distRef := hand.cam
      prevTwist := twist
      ball := arcballBegin hand.ball cx cy w h }
  else
    { hand with
      prevTwist := twist
      ball := arcballTwist (arcballDrag hand.ball cx cy w h)
        (Angle.unwrap halfTurn (twist - hand.prevTwist)) }

/-- The distance of the camera; held against a limit, the pinch starts over there. -/
def zoom (hand : Hand F) (d : F) : Hand F :=
  let cam := hand.distRef * (hand.pinchRef / d)
  if cam < camNear ∨ camFar < cam then
    let cam := if cam < camNear then camNear else camFar
    { hand with cam, pinchRef := d, distRef := cam }
  else { hand with cam }

/-- Two fingers. -/
def pinch (hand : Hand F) (a b : CubeSlot F) (w h : Int) : Hand F :=
  let hand := { hand with loneFrames := 0 }
  let hand := if pinchMinSpan < span a b then zoom (grip hand a b w h) (span a b) else hand
  { hand with touching := false }

/-- One finger that is not a pinch's. -/
def drag (hand : Hand F) (a : CubeSlot F) (w h : Int) : Hand F :=
  let hand := { hand with pinchRef := lit 0 }
  if hand.touching then { hand with ball := arcballDrag hand.ball a.x a.y w h }
  else { hand with ball := arcballBegin hand.ball a.x a.y w h, touching := true }

/-- One finger: a pinch survives a few frames of it. -/
def lone (hand : Hand F) (a : CubeSlot F) (w h : Int) : Hand F :=
  if isZero hand.pinchRef then drag hand a w h
  else
    let held := { hand with loneFrames := hand.loneFrames + 1 }
    if hand.loneFrames < pinchGrace then held else drag held a w h

/-- On entering sleep and when the picture turns, as when no finger is left. -/
def letGo (hand : Hand F) : Hand F :=
  { hand with touching := false, pinchRef := lit 0, loneFrames := 0, ball := arcballEnd hand.ball }

/-- The rotation goes on by itself; without a finger it does not fall below the resting rate. -/
def coast (hand : Hand F) : Hand F :=
  let ball := arcballCoast hand.ball (lit (197 / 200))
  let w := if lit 1 < ball.spin.w then lit 1 else ball.spin.w
  let ball :=
    if !hand.touching && !ball.dragging && decide (CMath.acos w ≤ idleHalf) then idleSpin ball else ball
  { hand with ball }

/-- The gestures of one frame. -/
def handFrame (hand : Hand F) (cube : CubeContacts F) (w h : Int) : Hand F :=
  coast (match activeSlots cube with
    | a :: b :: _ => pinch hand a b w h
    | [a] => lone hand a w h
    | [] => letGo hand)

/-- What happens to the cube in the main loop. -/
inductive HandOp (F : Type) where
  | frame (cube : CubeContacts F)
  /-- A finger of the cube was lifted. -/
  | released
  /-- Sleep, or the picture turned. -/
  | letGo

def handStep (w h : Int) (hand : Hand F) : HandOp F → Hand F
  | .frame cube => handFrame hand cube w h
  | .released => { hand with touching := false }
  | .letGo => letGo hand

end Model

/-! Over the reals. -/
section Exact
variable {hand : Hand ℝ}

theorem camNear_eq : (camNear : ℝ) = 16 / 5 := by
  rw [camNear, lit_real]
  norm_num

theorem camFar_eq : (camFar : ℝ) = 14 := by
  rw [camFar, lit_real]
  norm_num

theorem pinchMinSpan_eq : (pinchMinSpan : ℝ) = 40 := by
  rw [pinchMinSpan, lit_real]
  norm_num

theorem idleHalf_eq : (idleHalf : ℝ) = 1 / 250 := by
  rw [idleHalf, lit_real]
  norm_num

theorem lit_zero_eq : (lit 0 : ℝ) = 0 := by
  rw [lit_real, Rat.cast_zero]

theorem isZero_iff {x : ℝ} : isZero x = true ↔ x = 0 := by
  unfold isZero
  rw [Bool.and_eq_true, decide_eq_true_iff, decide_eq_true_iff, lit_zero_eq]
  exact ⟨fun h => le_antisymm h.1 h.2, fun h => ⟨h.le, h.ge⟩⟩

/-- What holds of the hand in every frame. -/
structure Sane (hand : Hand ℝ) : Prop where
  cam : 16 / 5 ≤ hand.cam ∧ hand.cam ≤ 14
  dist : 16 / 5 ≤ hand.distRef ∧ hand.distRef ≤ 14
  ref : hand.pinchRef = 0 ∨ 40 < hand.pinchRef
  twist : |hand.prevTwist| ≤ Real.pi
  lone : 0 ≤ hand.loneFrames ∧ hand.loneFrames ≤ 5
  grace : hand.pinchRef ≠ 0 → hand.loneFrames ≤ 4
  versor : Versor hand.ball.q
  dragging : hand.pinchRef ≠ 0 ∨ hand.touching = true → hand.ball.dragging = true
  exclusive : hand.touching = true → hand.pinchRef = 0

/-- The zoom follows the fingers, and stops at the limits. -/
structure Zoomed (hand hand' : Hand ℝ) (d : ℝ) : Prop where
  cam : hand'.cam = max (16 / 5) (min 14 (hand.distRef * (hand.pinchRef / d)))
  anchor : hand'.distRef * hand'.pinchRef = hand'.cam * d
  dist : hand'.distRef = hand.distRef ∨ hand'.distRef = hand'.cam
  ref : hand'.pinchRef = hand.pinchRef ∨ hand'.pinchRef = d
  rest : hand'.ball = hand.ball ∧ hand'.touching = hand.touching ∧ hand'.prevTwist = hand.prevTwist ∧
    hand'.loneFrames = hand.loneFrames

theorem zoom_spec (hand : Hand ℝ) {d : ℝ} (hd : 0 < d) : Zoomed hand (zoom hand d) d := by
  have hle : (16 / 5 : ℝ) ≤ 14 := by norm_num
  obtain ⟨cam, hcam⟩ : ∃ cam, cam = hand.distRef * (hand.pinchRef / d) := ⟨_, rfl⟩
  have hdef : zoom hand d = if cam < camNear ∨ camFar < cam then
      { hand with
        cam := if cam < camNear then camNear else camFar
        pinchRef := d
        distRef := if cam < camNear then camNear else camFar }
      else { hand with cam } := by
    rw [hcam]
    rfl
  rw [hdef, camNear_eq, camFar_eq]
  have hproduct : hand.distRef * hand.pinchRef = cam * d := by
    rw [hcam]
    field_simp
  by_cases hout : cam < 16 / 5 ∨ 14 < cam
  · rw [if_pos hout]
    refine ⟨?_, rfl, .inr rfl, .inr rfl, rfl, rfl, rfl, rfl⟩
    dsimp only
    rw [← hcam]
    rcases hout with hnear | hfar
    · rw [if_pos hnear, max_eq_left]
      exact (min_le_right _ _).trans hnear.le
    · rw [if_neg (by linarith), min_eq_left hfar.le, max_eq_right hle]
  · rw [if_neg hout]
    rw [not_or, not_lt, not_lt] at hout
    refine ⟨?_, hproduct, .inl rfl, .inl rfl, rfl, rfl, rfl, rfl⟩
    rw [← hcam, min_eq_right hout.2, max_eq_right hout.1]

theorem Zoomed.bounds {hand' : Hand ℝ} {d : ℝ} (h : Zoomed hand hand' d) :
    16 / 5 ≤ hand'.cam ∧ hand'.cam ≤ 14 := by
  rw [h.cam]
  refine ⟨le_max_left _ _, max_le (by norm_num) (min_le_left _ _)⟩

theorem arcballDrag_dragging (a : Arcball ℝ) (px py : ℝ) (w h : ℤ) :
    (arcballDrag a px py w h).dragging = true := by
  unfold arcballDrag
  split
  · rfl
  · rename_i hdrag
    simpa using hdrag

theorem grip_sane (h : Sane hand) (a b : CubeSlot ℝ) (w h' : Int) (hspan : 40 < span a b) :
    Versor (grip hand a b w h').ball.q ∧ (grip hand a b w h').ball.dragging = true ∧
      40 < (grip hand a b w h').pinchRef ∧
      (16 / 5 ≤ (grip hand a b w h').distRef ∧ (grip hand a b w h').distRef ≤ 14) ∧
      |(grip hand a b w h').prevTwist| ≤ Real.pi := by
  have htwist : |(CAngle.atan2 (a.y - b.y) (a.x - b.x) : ℝ)| ≤ Real.pi := Complex.abs_arg_le_pi _
  unfold grip
  dsimp only
  split
  · exact ⟨h.versor, rfl, hspan, h.cam, htwist⟩
  · rename_i hheld
    rw [isZero_iff] at hheld
    refine ⟨?_, ?_, h.ref.resolve_left hheld, h.dist, htwist⟩
    · exact arcballTwist_versor (arcballStep_versor h.versor (.drag _ _ w h')) _
    · exact arcballDrag_dragging _ _ _ _ _

/-- The loops that unwrap a twist end after two rounds: what the cube is twisted by is the change of the
line between the fingers, whole turns aside, and at most half of one. -/
theorem twist_unwrapped (h : Sane hand) (a b : CubeSlot ℝ) :
    |Angle.unwrap halfTurn (CAngle.atan2 (a.y - b.y) (a.x - b.x) - hand.prevTwist)| ≤ halfTurn ∧
      ∃ k : ℤ, Angle.unwrap halfTurn (CAngle.atan2 (a.y - b.y) (a.x - b.x) - hand.prevTwist) =
        CAngle.atan2 (a.y - b.y) (a.x - b.x) - hand.prevTwist + k * (2 * halfTurn) := by
  -- the float is a little more than half a turn
  have hpi : Real.pi ≤ (halfTurn : ℝ) := by
    have hlt := Real.pi_lt_d20
    change Real.pi ≤ ((13176795 / 4194304 : ℚ) : ℝ)
    push_cast
    linarith
  have htwist : |(CAngle.atan2 (a.y - b.y) (a.x - b.x) : ℝ)| ≤ Real.pi := Complex.abs_arg_le_pi _
  exact Angle.unwrap_spec (htwist.trans hpi) (h.twist.trans hpi)

theorem pinch_sane (h : Sane hand) (a b : CubeSlot ℝ) (w h' : Int) : Sane (pinch hand a b w h') := by
  have hstart : Sane { hand with loneFrames := 0 } :=
    ⟨h.cam, h.dist, h.ref, h.twist, ⟨le_rfl, by norm_num⟩, fun _ => by norm_num, h.versor, h.dragging,
      h.exclusive⟩
  unfold pinch
  dsimp only
  rw [pinchMinSpan_eq]
  split
  · rename_i hspan
    obtain ⟨hversor, hdragging, href, hdist, htwist⟩ := grip_sane hstart a b w h' hspan
    have hzoomed := zoom_spec (grip { hand with loneFrames := 0 } a b w h') (by linarith : 0 < span a b)
    have hlone : (grip { hand with loneFrames := 0 } a b w h').loneFrames = 0 := by
      unfold grip
      dsimp only
      split <;> rfl
    generalize grip { hand with loneFrames := 0 } a b w h' = gripped at *
    generalize zoom gripped (span a b) = zoomed at *
    obtain ⟨hball, _, hprev, hsame⟩ := hzoomed.rest
    rw [← hball] at hversor hdragging
    rw [← hprev] at htwist
    rw [← hsame] at hlone
    refine ⟨hzoomed.bounds, ?_, .inr ?_, htwist, ⟨hlone.ge, hlone.le.trans (by norm_num)⟩,
      fun _ => hlone.le.trans (by norm_num), hversor, fun _ => hdragging, nofun⟩
    · dsimp only
      rcases hzoomed.dist with hkept | hcam
      · rw [hkept]
        exact hdist
      · rw [hcam]
        exact hzoomed.bounds
    · dsimp only
      rcases hzoomed.ref with hkept | hd
      · rw [hkept]
        exact href
      · rw [hd]
        exact hspan
  · refine ⟨h.cam, h.dist, h.ref, h.twist, ⟨le_rfl, by norm_num⟩, fun _ => by norm_num, h.versor, ?_, nofun⟩
    exact fun hpinch => h.dragging (.inl (hpinch.resolve_right nofun))

theorem drag_sane {lone : Int} (h : Sane hand) (hlone : 0 ≤ lone ∧ lone ≤ 5) (a : CubeSlot ℝ)
    (w h' : Int) : Sane (drag { hand with loneFrames := lone } a w h') := by
  unfold drag
  dsimp only
  split
  · rename_i htouching
    refine ⟨h.cam, h.dist, .inl lit_zero_eq, h.twist, hlone, fun hne => absurd lit_zero_eq hne, ?_, ?_,
      fun _ => lit_zero_eq⟩
    · exact arcballStep_versor h.versor (.drag _ _ w h')
    · exact fun _ => arcballDrag_dragging _ _ _ _ _
  · exact ⟨h.cam, h.dist, .inl lit_zero_eq, h.twist, hlone, fun hne => absurd lit_zero_eq hne, h.versor,
      fun _ => rfl, fun _ => lit_zero_eq⟩

theorem lone_sane (h : Sane hand) (a : CubeSlot ℝ) (w h' : Int) : Sane (lone hand a w h') := by
  unfold lone
  split
  · exact drag_sane h h.lone a w h'
  · rename_i hheld
    rw [isZero_iff] at hheld
    have hgrace := h.grace hheld
    have hlone := h.lone
    dsimp only
    split
    · rename_i hshort
      unfold pinchGrace at hshort
      exact ⟨h.cam, h.dist, h.ref, h.twist, ⟨by dsimp only; omega, by dsimp only; omega⟩,
        fun _ => by dsimp only; omega, h.versor, h.dragging, h.exclusive⟩
    · exact drag_sane h ⟨by omega, by omega⟩ a w h'

theorem letGo_sane (h : Sane hand) : Sane (letGo hand) := by
  refine ⟨h.cam, h.dist, .inl lit_zero_eq, h.twist, ⟨le_rfl, by norm_num [letGo]⟩, ?_, h.versor, ?_, nofun⟩
  · exact fun hne => absurd lit_zero_eq hne
  · rintro (hne | htouching)
    · exact absurd lit_zero_eq hne
    · cases htouching

theorem coast_sane (h : Sane hand) : Sane (coast hand) := by
  have hcoasted : Versor (arcballCoast hand.ball (lit (197 / 200))).q ∧
      (arcballCoast hand.ball (lit (197 / 200))).dragging = hand.ball.dragging := by
    refine ⟨arcballStep_versor h.versor (.coast _), ?_⟩
    rcases arcballCoast_cases hand.ball (lit (197 / 200)) with hsame | ⟨step, _, hstep⟩
    · rw [hsame]
    · rw [hstep]
  unfold coast
  dsimp only
  generalize (if lit 1 < (arcballCoast hand.ball (lit (197 / 200))).spin.w then lit 1
    else (arcballCoast hand.ball (lit (197 / 200))).spin.w) = cosine
  split
  · exact ⟨h.cam, h.dist, h.ref, h.twist, h.lone, h.grace, hcoasted.1,
      fun hheld => hcoasted.2.trans (h.dragging hheld), h.exclusive⟩
  · exact ⟨h.cam, h.dist, h.ref, h.twist, h.lone, h.grace, hcoasted.1,
      fun hheld => hcoasted.2.trans (h.dragging hheld), h.exclusive⟩

theorem handFrame_sane (h : Sane hand) (cube : CubeContacts ℝ) (w h' : Int) :
    Sane (handFrame hand cube w h') := by
  unfold handFrame
  apply coast_sane
  split
  · exact pinch_sane h _ _ w h'
  · exact lone_sane h _ w h'
  · exact letGo_sane h

theorem handStep_sane (h : Sane hand) (w h' : Int) (op : HandOp ℝ) : Sane (handStep w h' hand op) := by
  cases op with
  | frame cube => exact handFrame_sane h cube w h'
  | released =>
    refine ⟨h.cam, h.dist, h.ref, h.twist, h.lone, h.grace, h.versor, ?_, nofun⟩
    exact fun hheld => h.dragging (.inl (hheld.resolve_right nofun))
  | letGo => exact letGo_sane h

theorem handStart_sane (staticScene : Bool) : Sane (handStart staticScene : Hand ℝ) := by
  have hcam : (lit 6 : ℝ) = 6 := by
    rw [lit_real]
    norm_num
  have htwisted : Versor (arcballTwist arcballInit (lit (3 / 10)) : Arcball ℝ).q :=
    arcballTwist_versor quatOne_versor _
  refine ⟨?_, ?_, .inl lit_zero_eq, ?_, ⟨le_rfl, by norm_num [handStart]⟩, ?_, ?_, ?_, nofun⟩
  · change 16 / 5 ≤ (lit 6 : ℝ) ∧ (lit 6 : ℝ) ≤ 14
    rw [hcam]
    norm_num
  · change 16 / 5 ≤ (lit 6 : ℝ) ∧ (lit 6 : ℝ) ≤ 14
    rw [hcam]
    norm_num
  · change |(lit 0 : ℝ)| ≤ Real.pi
    rw [lit_zero_eq, abs_zero]
    exact Real.pi_pos.le
  · exact fun hne => absurd lit_zero_eq hne
  · cases staticScene <;> exact htwisted
  · rintro (hne | htouching)
    · exact absurd lit_zero_eq hne
    · cases htouching

/-- In every run the camera stays between its limits, the ball's orientation is a rotation, a pinch is
held and survives at most four frames with one finger, and a drag and a pinch exclude each other. -/
theorem hand_stays_sane (staticScene : Bool) (w h : Int) (ops : List (HandOp ℝ)) :
    Sane (ops.foldl (handStep w h) (handStart staticScene)) := by
  induction ops using List.reverseRecOn with
  | nil => exact handStart_sane staticScene
  | append_singleton ops op ih =>
    rw [List.foldl_append]
    exact handStep_sane ih w h op

/-! The zoom. -/

/-- Two fingers that are far enough apart for a pinch. -/
def Wide (cube : CubeContacts ℝ) (d : ℝ) : Prop :=
  ∃ a b rest, activeSlots cube = a :: b :: rest ∧ span a b = d ∧ 40 < d

def isLone : HandOp ℝ → Bool
  | .frame cube => decide ((activeSlots cube).length = 1)
  | .released | .letGo => false

/-- The controller loses a finger of the pinch, or takes the two for one that it splits. -/
def Dropout : HandOp ℝ → Prop
  | .frame cube => (∃ a, activeSlots cube = [a]) ∨
      ∃ a b rest, activeSlots cube = a :: b :: rest ∧ span a b ≤ 40
  | .released => True
  | .letGo => False

/-- A pinch with the fingers this far apart. -/
structure Pinched (hand : Hand ℝ) (d : ℝ) : Prop where
  ref : hand.pinchRef ≠ 0
  anchor : hand.distRef * hand.pinchRef = hand.cam * d

/-- A frame of a pinch: the fingers' distance has changed by the factor by which the camera's does. -/
theorem wide_frame (h : Sane hand) {cube : CubeContacts ℝ} {d : ℝ} (hwide : Wide cube d) (w h' : Int) :
    Pinched (handFrame hand cube w h') d ∧ (handFrame hand cube w h').loneFrames = 0 ∧
      (hand.pinchRef ≠ 0 → (handFrame hand cube w h').cam =
        max (16 / 5) (min 14 (hand.distRef * (hand.pinchRef / d)))) := by
  obtain ⟨a, b, rest, hslots, hd, hspan⟩ := hwide
  have hsane : Sane { hand with loneFrames := 0 } :=
    ⟨h.cam, h.dist, h.ref, h.twist, ⟨le_rfl, by norm_num⟩, fun _ => by norm_num, h.versor, h.dragging,
      h.exclusive⟩
  have hframe : handFrame hand cube w h' = coast (pinch hand a b w h') := by
    unfold handFrame
    rw [hslots]
  have hpinch : pinch hand a b w h' =
      { zoom (grip { hand with loneFrames := 0 } a b w h') (span a b) with touching := false } := by
    unfold pinch
    dsimp only
    rw [pinchMinSpan_eq, if_pos (hd ▸ hspan)]
  obtain ⟨_, _, href, _⟩ := grip_sane hsane a b w h' (hd ▸ hspan)
  have hgrip : hand.pinchRef ≠ 0 →
      (grip { hand with loneFrames := 0 } a b w h').distRef = hand.distRef ∧
        (grip { hand with loneFrames := 0 } a b w h').pinchRef = hand.pinchRef := by
    intro hheld
    unfold grip
    dsimp only
    rw [if_neg (mt isZero_iff.mp hheld)]
    exact ⟨rfl, rfl⟩
  have hlone : (grip { hand with loneFrames := 0 } a b w h').loneFrames = 0 := by
    unfold grip
    dsimp only
    split <;> rfl
  rw [hframe, hpinch, hd]
  have hzoomed := zoom_spec (grip { hand with loneFrames := 0 } a b w h') (by linarith : 0 < d)
  generalize grip { hand with loneFrames := 0 } a b w h' = gripped at *
  refine ⟨⟨?_, hzoomed.anchor⟩, hzoomed.rest.2.2.2.trans hlone, fun hheld => ?_⟩
  · change (zoom gripped d).pinchRef ≠ 0
    rcases hzoomed.ref with hkept | hnew
    · rw [hkept]
      linarith
    · rw [hnew]
      linarith
  · obtain ⟨hdist, hpinchRef⟩ := hgrip hheld
    change (zoom gripped d).cam = _
    rw [hzoomed.cam, hdist, hpinchRef]

/-- A dropout leaves the pinch as it was. -/
theorem dropout_holds {d : ℝ} (h : Pinched hand d) (w h' : Int) {gap : List (HandOp ℝ)}
    (hgap : ∀ op ∈ gap, Dropout op) (hlone : 0 ≤ hand.loneFrames)
    (hshort : hand.loneFrames + gap.countP isLone ≤ 4) :
    Pinched (gap.foldl (handStep w h') hand) d ∧ (gap.foldl (handStep w h') hand).cam = hand.cam := by
  induction gap generalizing hand with
  | nil => exact ⟨h, rfl⟩
  | cons op rest ih =>
    rw [List.foldl_cons]
    rw [List.countP_cons] at hshort
    have hrest : ∀ op ∈ rest, Dropout op := fun o ho => hgap o (List.mem_cons_of_mem op ho)
    have hop := hgap op List.mem_cons_self
    cases op with
    | letGo => exact hop.elim
    | released =>
      have hheld : Pinched (handStep w h' hand .released) d := ⟨h.ref, h.anchor⟩
      have hnone : isLone (HandOp.released : HandOp ℝ) = false := rfl
      rw [hnone] at hshort
      exact ih hheld hrest hlone hshort
    | frame cube =>
      rcases hop with ⟨a, hslots⟩ | ⟨a, b, others, hslots, hnarrow⟩
      · have hcount : isLone (.frame cube) = true := by
          change decide ((activeSlots cube).length = 1) = true
          rw [hslots]
          rfl
        rw [hcount, if_pos rfl] at hshort
        push_cast at hshort
        have hframe : handStep w h' hand (.frame cube) =
            coast { hand with loneFrames := hand.loneFrames + 1 } := by
          change handFrame hand cube w h' = _
          unfold handFrame
          rw [hslots]
          dsimp only
          unfold lone
          rw [if_neg (mt isZero_iff.mp h.ref)]
          dsimp only
          rw [if_pos (by unfold pinchGrace; omega)]
        have hheld : Pinched (coast { hand with loneFrames := hand.loneFrames + 1 }) d := ⟨h.ref, h.anchor⟩
        rw [hframe]
        refine ih hheld hrest ?_ ?_
        · exact le_trans hlone (Int.le_add_one le_rfl)
        · change hand.loneFrames + 1 + _ ≤ 4
          omega
      · have hframe : handStep w h' hand (.frame cube) =
            coast { hand with loneFrames := 0, touching := false } := by
          change handFrame hand cube w h' = _
          unfold handFrame
          rw [hslots]
          dsimp only
          unfold pinch
          dsimp only
          rw [pinchMinSpan_eq, if_neg (not_lt.mpr hnarrow)]
        have hheld : Pinched (coast { hand with loneFrames := 0, touching := false }) d := ⟨h.ref, h.anchor⟩
        rw [hframe]
        refine ih hheld hrest le_rfl ?_
        change 0 + _ ≤ (4 : Int)
        push_cast at hshort
        split at hshort <;> omega

/-- The zoom depends on the fingers alone: between two frames of a pinch, dropouts of up to four frames
aside, the camera's distance changes by the inverse of the fingers', and stops at its limits. -/
theorem zoom_follows_fingers (staticScene : Bool) (w h : Int) (before : List (HandOp ℝ))
    {first last : CubeContacts ℝ} {d d' : ℝ} {gap : List (HandOp ℝ)} (hfirst : Wide first d)
    (hlast : Wide last d') (hgap : ∀ op ∈ gap, Dropout op) (hshort : gap.countP isLone ≤ 4) :
    ((before ++ HandOp.frame first :: (gap ++ [.frame last])).foldl (handStep w h)
        (handStart staticScene)).cam =
      max (16 / 5) (min 14
        (((before ++ [HandOp.frame first]).foldl (handStep w h) (handStart staticScene)).cam * (d / d'))) := by
  obtain ⟨hand, hhand⟩ : ∃ hand, hand =
    handFrame (before.foldl (handStep w h) (handStart staticScene)) first w h := ⟨_, rfl⟩
  have hfirstFold : (before ++ [HandOp.frame first]).foldl (handStep w h) (handStart staticScene) = hand := by
    rw [List.foldl_append, hhand]
    rfl
  have hlastFold : (before ++ HandOp.frame first :: (gap ++ [.frame last])).foldl (handStep w h)
      (handStart staticScene) = handFrame (gap.foldl (handStep w h) hand) last w h := by
    rw [List.append_cons, List.foldl_append, hfirstFold, List.foldl_append]
    rfl
  have hsane := hand_stays_sane staticScene w h ((before ++ [HandOp.frame first]) ++ gap)
  obtain ⟨hpinched, hlone, _⟩ := wide_frame (hand_stays_sane staticScene w h before) hfirst w h
  rw [List.foldl_append, hfirstFold] at hsane
  rw [← hhand] at hpinched hlone
  rw [hlastFold, hfirstFold]
  obtain ⟨hheld, hcam⟩ := dropout_holds hpinched w h hgap hlone.ge (by rw [hlone]; omega)
  obtain ⟨_, _, hzoom⟩ := wide_frame hsane hlast w h
  have hfinal := hzoom hheld.ref
  obtain ⟨_, _, _, _, _, hd'⟩ := hlast
  have hfactor : (gap.foldl (handStep w h) hand).distRef * ((gap.foldl (handStep w h) hand).pinchRef / d') =
      hand.cam * (d / d') := by
    rw [← mul_div_assoc, hheld.anchor, hcam, mul_div_assoc]
  rw [hfactor] at hfinal
  exact hfinal

/-! The momentum. -/

/-- Half the angle of the ball's rotation in a frame. -/
noncomputable def turning (hand : Hand ℝ) : ℝ := Real.arccos hand.ball.spin.w

/-- A rotation of at most half a turn, its axis not much shorter than it should be. -/
structure Spins (spin : Quat ℝ) : Prop where
  cosine : 0 ≤ spin.w ∧ spin.w ≤ 1
  axis : 199 / 200 * (1 - spin.w ^ 2) ≤ spin.x * spin.x + spin.y * spin.y + spin.z * spin.z

theorem spins_of_versor {spin : Quat ℝ} (h : Versor spin) (hw : 0 ≤ spin.w) : Spins spin := by
  rw [versor_iff] at h
  have hle : spin.w ^ 2 ≤ 1 := by nlinarith [sq_nonneg spin.x, sq_nonneg spin.y, sq_nonneg spin.z]
  refine ⟨⟨hw, by nlinarith⟩, ?_⟩
  nlinarith

theorem quatOne_spins : Spins quatOne := by
  refine spins_of_versor quatOne_versor ?_
  rw [quatOne_eq]
  norm_num

theorem quatBetween_spins (p q : Vec ℝ) : Spins (quatBetween p q) := by
  refine spins_of_versor (quatBetween_versor p q) ?_
  rcases quatBetween_cases p q with ⟨_, hone⟩ | ⟨_, hroll⟩
  · rw [hone]
    exact quatOne_spins.cosine.1
  · have hcosine : (quatBetween p q).w =
        Real.cos (Real.arccos (clampCosine (p.toFun ⬝ᵥ q.toFun)) / 2) := congrArg QuaternionAlgebra.re hroll
    rw [hcosine]
    have hlow := Real.arccos_nonneg (clampCosine (p.toFun ⬝ᵥ q.toFun))
    have hhigh := Real.arccos_le_pi (clampCosine (p.toFun ⬝ᵥ q.toFun))
    exact Real.cos_nonneg_of_neg_pi_div_two_le_of_le (by linarith) (by linarith)

theorem cos_idle_nonneg : 0 ≤ Real.cos (1 / 250) :=
  Real.cos_nonneg_of_neg_pi_div_two_le_of_le (by linarith [Real.pi_gt_three]) (by linarith [Real.pi_gt_three])

theorem idleSpin_spin (ball : Arcball ℝ) : (idleSpin ball).spin =
    ⟨Real.cos (1 / 250), 7 / 20 * Real.sin (1 / 250), 9 / 10 * Real.sin (1 / 250),
      1 / 4 * Real.sin (1 / 250)⟩ := by
  have hdef : (idleSpin ball).spin = ⟨Real.cos idleHalf, ((7 / 20 : ℚ) : ℝ) * Real.sin idleHalf,
    ((9 / 10 : ℚ) : ℝ) * Real.sin idleHalf, ((1 / 4 : ℚ) : ℝ) * Real.sin idleHalf⟩ := rfl
  rw [hdef, idleHalf_eq]
  push_cast
  rfl

theorem idleSpin_spins (ball : Arcball ℝ) : Spins (idleSpin ball).spin := by
  rw [idleSpin_spin]
  refine ⟨⟨cos_idle_nonneg, Real.cos_le_one _⟩, ?_⟩
  have hone := Real.sin_sq_add_cos_sq (1 / 250)
  dsimp only
  nlinarith

/-- The axis is long enough to go on around it. -/
theorem Spins.axis_long {spin : Quat ℝ} (h : Spins spin) (hturning : 1 / 10000 ≤ Real.arccos spin.w) :
    1 / 1000000 ≤ √(spin.x * spin.x + spin.y * spin.y + spin.z * spin.z) := by
  have hright : Real.arccos spin.w ≤ Real.pi / 2 := Real.arccos_le_pi_div_two.mpr h.cosine.1
  have hsin := Real.mul_le_sin (Real.arccos_nonneg spin.w) hright
  have hcos : Real.cos (Real.arccos spin.w) = spin.w := Real.cos_arccos (by linarith [h.cosine.1]) h.cosine.2
  have hone := Real.sin_sq_add_cos_sq (Real.arccos spin.w)
  rw [hcos] at hone
  have hslope : 1 / 2 ≤ 2 / Real.pi := by
    rw [div_le_div_iff₀ two_pos Real.pi_pos]
    linarith [Real.pi_le_four]
  have hlow : 1 / 20000 ≤ Real.sin (Real.arccos spin.w) := by
    refine le_trans ?_ hsin
    nlinarith
  refine Real.le_sqrt_of_sq_le (le_trans ?_ h.axis)
  nlinarith

/-- A free ball either is almost at rest, or goes on around its axis. -/
theorem arcballCoast_spin {a : Arcball ℝ} (h : Spins a.spin) (hfree : a.dragging = false) (decay : ℝ) :
    (Real.arccos a.spin.w < 1 / 10000 ∧ arcballCoast a decay = a) ∨
      (Versor (arcballCoast a decay).spin ∧
        (arcballCoast a decay).spin.w = Real.cos (Real.arccos a.spin.w * decay)) := by
  let al := √(a.spin.x * a.spin.x + a.spin.y * a.spin.y + a.spin.z * a.spin.z)
  let half := Real.arccos (clampCosine a.spin.w)
  let step : Quat ℝ := ⟨Real.cos (half * decay), a.spin.x * (Real.sin (half * decay) / al),
    a.spin.y * (Real.sin (half * decay) / al), a.spin.z * (Real.sin (half * decay) / al)⟩
  have hdef : arcballCoast a decay = if a.dragging then a
      else if half < ((1 / 10000 : ℚ) : ℝ) then a
      else if al < ((1 / 1000000 : ℚ) : ℝ) then a
      else { a with q := quatNormalize (quatMul step a.q), spin := step } := rfl
  have hclamp : clampCosine a.spin.w = a.spin.w := clampCosine_eq (by linarith [h.cosine.1]) h.cosine.2
  have hhalf : half = Real.arccos a.spin.w := congrArg Real.arccos hclamp
  have hsmall : ((1 / 10000 : ℚ) : ℝ) = 1 / 10000 := by norm_num
  have hshort : ((1 / 1000000 : ℚ) : ℝ) = 1 / 1000000 := by norm_num
  rw [hfree, if_neg Bool.false_ne_true, hhalf, hsmall, hshort] at hdef
  rcases lt_or_ge (Real.arccos a.spin.w) (1 / 10000) with hrest | hmoves
  · rw [if_pos hrest] at hdef
    exact .inl ⟨hrest, hdef⟩
  · have hlong : 1 / 1000000 ≤ al := h.axis_long hmoves
    rw [if_neg (not_lt.mpr hmoves), if_neg (not_lt.mpr hlong)] at hdef
    refine .inr ⟨?_, ?_⟩
    · rw [hdef]
      have hsq : al * al = a.spin.x * a.spin.x + a.spin.y * a.spin.y + a.spin.z * a.spin.z := by
        refine Real.mul_self_sqrt ?_
        nlinarith [mul_self_nonneg a.spin.x, mul_self_nonneg a.spin.y, mul_self_nonneg a.spin.z]
      have hpos : 0 < al := lt_of_lt_of_le (by norm_num) hlong
      have hone := Real.sin_sq_add_cos_sq (half * decay)
      rw [versor_iff]
      change Real.cos (half * decay) ^ 2 + (a.spin.x * (Real.sin (half * decay) / al)) ^ 2 +
        (a.spin.y * (Real.sin (half * decay) / al)) ^ 2 +
        (a.spin.z * (Real.sin (half * decay) / al)) ^ 2 = 1
      have hroll : (a.spin.x * (Real.sin (half * decay) / al)) ^ 2 +
          (a.spin.y * (Real.sin (half * decay) / al)) ^ 2 +
          (a.spin.z * (Real.sin (half * decay) / al)) ^ 2 = Real.sin (half * decay) ^ 2 := by
        field_simp
        rw [sq al, hsq]
        ring
      linarith
    · rw [hdef, ← hhalf]

theorem coast_ball (hand : Hand ℝ) : (coast hand).ball = arcballCoast hand.ball (lit (197 / 200)) ∨
    (coast hand).ball = idleSpin (arcballCoast hand.ball (lit (197 / 200))) := by
  unfold coast
  dsimp only
  generalize (if lit 1 < (arcballCoast hand.ball (lit (197 / 200))).spin.w then lit 1
    else (arcballCoast hand.ball (lit (197 / 200))).spin.w) = cosine
  split
  · exact .inr rfl
  · exact .inl rfl

theorem arcballCoast_spins {a : Arcball ℝ} (h : Spins a.spin) :
    Spins (arcballCoast a (lit (197 / 200))).spin := by
  cases hfree : a.dragging with
  | true =>
    unfold arcballCoast
    rw [hfree]
    exact h
  | false =>
    rcases arcballCoast_spin h hfree (lit (197 / 200)) with ⟨_, hsame⟩ | ⟨hversor, hcosine⟩
    · rw [hsame]
      exact h
    · refine spins_of_versor hversor ?_
      have hdecay : (lit (197 / 200) : ℝ) = 197 / 200 := by
        rw [lit_real]
        norm_num
      have hlow := Real.arccos_nonneg a.spin.w
      have hhigh : Real.arccos a.spin.w ≤ Real.pi / 2 := Real.arccos_le_pi_div_two.mpr h.cosine.1
      rw [hcosine, hdecay]
      exact Real.cos_nonneg_of_neg_pi_div_two_le_of_le (by linarith) (by linarith)

theorem coast_spins (h : Spins hand.ball.spin) : Spins (coast hand).ball.spin := by
  rcases coast_ball hand with hball | hball
  · rw [hball]
    exact arcballCoast_spins h
  · rw [hball]
    exact idleSpin_spins _

/-- An untouched frame lets the rotation decay, but not below the resting rate. -/
theorem coast_turning (h : Spins hand.ball.spin) (hfree : hand.ball.dragging = false)
    (htouching : hand.touching = false) :
    turning (coast hand) = max (197 / 200 * turning hand) (1 / 250) := by
  obtain ⟨ball, hball⟩ : ∃ ball, ball = arcballCoast hand.ball (lit (197 / 200)) := ⟨_, rfl⟩
  have hspins : Spins ball.spin := by
    rw [hball]
    exact arcballCoast_spins h
  have hstill : ball.dragging = false := by
    rcases arcballCoast_cases hand.ball (lit (197 / 200)) with hsame | ⟨step, _, hstep⟩
    · rw [hball, hsame, hfree]
    · rw [hball, hstep]
      exact hfree
  have hcosine : (if lit 1 < ball.spin.w then lit 1 else ball.spin.w) = ball.spin.w := by
    refine if_neg (not_lt.mpr ?_)
    rw [lit_real, Rat.cast_one]
    exact hspins.cosine.2
  have hcoast : (coast hand).ball = if Real.arccos ball.spin.w ≤ 1 / 250 then idleSpin ball else ball := by
    unfold coast
    dsimp only
    rw [← hball, hcosine, htouching, hstill, idleHalf_eq]
    change (if decide (Real.arccos ball.spin.w ≤ 1 / 250) = true then _ else _) = _
    simp only [decide_eq_true_eq]
  have hdecay : (lit (197 / 200) : ℝ) = 197 / 200 := by
    rw [lit_real]
    norm_num
  have hlow := Real.arccos_nonneg hand.ball.spin.w
  have hhigh := Real.arccos_le_pi hand.ball.spin.w
  -- the rate the ball has before it is compared with the resting one
  have hrate : Real.arccos ball.spin.w ≤ 1 / 250 ∧ 197 / 200 * turning hand ≤ 1 / 250 ∨
      Real.arccos ball.spin.w = 197 / 200 * turning hand := by
    rcases arcballCoast_spin h hfree (lit (197 / 200)) with ⟨hrest, hsame⟩ | ⟨_, hgoes⟩
    · left
      rw [hball, hsame]
      unfold turning
      exact ⟨by linarith, by linarith⟩
    · right
      rw [hball, hgoes, hdecay, Real.arccos_cos (by linarith) (by linarith), mul_comm]
      rfl
  have hidle : Real.arccos (idleSpin ball).spin.w = 1 / 250 := by
    rw [idleSpin_spin]
    exact Real.arccos_cos (by norm_num) (by linarith [Real.pi_gt_three])
  unfold turning at hrate ⊢
  rw [hcoast]
  rcases hrate with ⟨hbelow, hdecayed⟩ | hequal
  · rw [if_pos hbelow, hidle, max_eq_right hdecayed]
  · rw [hequal]
    split
    · rename_i hbelow
      rw [hidle, max_eq_right hbelow]
    · rename_i habove
      rw [hequal, max_eq_left (not_le.mp habove).le]

theorem handFrame_spins (h : Spins hand.ball.spin) (cube : CubeContacts ℝ) (w h' : Int) :
    Spins (handFrame hand cube w h').ball.spin := by
  have hdrag (a : Arcball ℝ) (px py : ℝ) : Spins (arcballDrag a px py w h').spin := by
    unfold arcballDrag
    split
    · exact quatOne_spins
    · exact quatBetween_spins _ _
  have hdragged (hand : Hand ℝ) (a : CubeSlot ℝ) : Spins (drag hand a w h').ball.spin := by
    unfold drag
    dsimp only
    split
    · exact hdrag _ _ _
    · exact quatOne_spins
  unfold handFrame
  apply coast_spins
  split
  · unfold pinch
    dsimp only
    split
    · rename_i a b _ _ hspan
      have hgrip : Spins (grip { hand with loneFrames := 0 } a b w h').ball.spin := by
        unfold grip
        dsimp only
        split
        · exact quatOne_spins
        · exact hdrag _ _ _
      rw [pinchMinSpan_eq] at hspan
      have hrest := (zoom_spec (grip { hand with loneFrames := 0 } a b w h')
        (by linarith : 0 < span a b)).rest
      rw [hrest.1]
      exact hgrip
    · exact h
  · unfold lone
    split
    · exact hdragged _ _
    · dsimp only
      split
      · exact h
      · exact hdragged _ _
  · exact h

theorem hand_spins (staticScene : Bool) (w h : Int) (ops : List (HandOp ℝ)) :
    Spins (ops.foldl (handStep w h) (handStart staticScene)).ball.spin := by
  induction ops using List.reverseRecOn with
  | nil =>
    cases staticScene with
    | true =>
      have hone : Spins (handStart true : Hand ℝ).ball.spin := quatOne_spins
      exact hone
    | false => exact idleSpin_spins _
  | append_singleton ops op ih =>
    rw [List.foldl_append]
    cases op with
    | frame cube => exact handFrame_spins ih cube w h
    | released => exact ih
    | letGo => exact ih

/-- The cube never stops: left alone for some frames, it turns by an angle that decays with each of them
down to the resting rate, and is held there. -/
theorem untouched_cube_turns (staticScene : Bool) (w h : Int) (before : List (HandOp ℝ))
    {frames : List (CubeContacts ℝ)} (hfree : ∀ cube ∈ frames, activeSlots cube = []) (hsome : frames ≠ []) :
    turning ((before ++ frames.map HandOp.frame).foldl (handStep w h) (handStart staticScene)) =
      max ((197 / 200) ^ frames.length * turning (before.foldl (handStep w h) (handStart staticScene)))
        (1 / 250) := by
  induction frames using List.reverseRecOn with
  | nil => exact absurd rfl hsome
  | append_singleton frames cube ih =>
    have hspins := hand_spins staticScene w h (before ++ frames.map HandOp.frame)
    have hfold : (before ++ (frames ++ [cube]).map HandOp.frame).foldl (handStep w h) (handStart staticScene) =
        coast (letGo ((before ++ frames.map HandOp.frame).foldl (handStep w h) (handStart staticScene))) := by
      rw [List.map_append, ← List.append_assoc, List.foldl_append]
      change handFrame _ cube w h = _
      unfold handFrame
      rw [hfree cube (List.mem_append_right _ List.mem_cons_self)]
    have hfreed : Spins (letGo ((before ++ frames.map HandOp.frame).foldl (handStep w h)
      (handStart staticScene))).ball.spin := hspins
    have hlast := coast_turning hfreed rfl rfl
    rw [hfold, hlast]
    rcases List.eq_nil_or_concat frames with rfl | ⟨front, c, hfront⟩
    · rw [List.map_nil, List.append_nil, List.nil_append, List.length_singleton, pow_one]
      rfl
    · have hnonempty : frames ≠ [] := by
        rw [hfront]
        simp
      have hbefore := ih (fun cube hcube => hfree cube (List.mem_append_left _ hcube)) hnonempty
      have hsame : turning (letGo ((before ++ frames.map HandOp.frame).foldl (handStep w h)
          (handStart staticScene))) =
          turning ((before ++ frames.map HandOp.frame).foldl (handStep w h) (handStart staticScene)) := rfl
      rw [hsame, hbefore, List.length_append, List.length_singleton, pow_succ]
      generalize turning (before.foldl (handStep w h) (handStart staticScene)) = θ
      rw [mul_max_of_nonneg _ _ (by norm_num), max_assoc, max_eq_right (a := 197 / 200 * (1 / 250)) (by norm_num)]
      ring_nf

/-! Two fingers come apart, after one of them was lost for a frame; the cube is left alone. -/
section Fingers

def twoAt (x : ℝ) : CubeContacts ℝ := fun i =>
  if i = 0 then ⟨true, 0, 0⟩ else if i = 1 then ⟨true, x, 0⟩ else ⟨false, 0, 0⟩

def oneAt (x : ℝ) : CubeContacts ℝ := fun i => if i = 0 then ⟨true, x, 0⟩ else ⟨false, 0, 0⟩

def noneAt : CubeContacts ℝ := fun _ => ⟨false, 0, 0⟩

theorem twoAt_wide {x : ℝ} (hx : 40 < x) : Wide (twoAt x) x := by
  refine ⟨⟨true, 0, 0⟩, ⟨true, x, 0⟩, [], rfl, ?_, hx⟩
  change √((0 - x) * (0 - x) + (0 - 0) * (0 - 0)) = x
  have hsq : (0 - x) * (0 - x) + (0 - 0) * (0 - 0) = x ^ 2 := by ring
  rw [hsq, Real.sqrt_sq (by linarith)]

theorem spread_zooms :
    (([HandOp.frame (twoAt 100), .frame (oneAt 5), .frame (twoAt 150)] : List (HandOp ℝ)).foldl
        (handStep 1024 600) (handStart false)).cam =
      max (16 / 5) (min 14
        ((([HandOp.frame (twoAt 100)] : List (HandOp ℝ)).foldl (handStep 1024 600) (handStart false)).cam *
          (100 / 150))) := by
  have hgap : ∀ op ∈ [HandOp.frame (oneAt 5)], Dropout op := by
    intro op hop
    rw [List.mem_singleton.mp hop]
    exact .inl ⟨⟨true, 5, 0⟩, rfl⟩
  have hfirst : Wide (twoAt 100) 100 := twoAt_wide (by norm_num)
  have hlast : Wide (twoAt 150) 150 := twoAt_wide (by norm_num)
  exact zoom_follows_fingers false 1024 600 [] hfirst hlast hgap (List.countP_le_length.trans (by simp))

theorem left_alone_turns :
    turning (([] ++ [noneAt].map HandOp.frame).foldl (handStep 1024 600) (handStart false)) =
      max ((197 / 200) ^ 1 * turning (([] : List (HandOp ℝ)).foldl (handStep 1024 600) (handStart false)))
        (1 / 250) :=
  untouched_cube_turns false 1024 600 [] (by simp [activeSlots, noneAt]) (by simp)

end Fingers

end Exact

end Taq102.App
