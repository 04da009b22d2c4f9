import Taq102.Lib.CMath
import Taq102.Lib.Rotation

/-! The trackball that turns drags into rotations (`arcball.c`), exact over the reals. -/
namespace Taq102.Graphics
open Taq102.Lib

structure Vec (F : Type) where
  x : F
  y : F
  z : F

structure Quat (F : Type) where
  w : F
  x : F
  y : F
  z : F

structure Arcball (F : Type) where
  q : Quat F
  last : Vec F
  spin : Quat F
  dragging : Bool

section Code
variable {F : Type} [CFloat F] [CMath F]

def quatOne : Quat F := ⟨CFloat.lit 1, CFloat.lit 0, CFloat.lit 0, CFloat.lit 0⟩

def quatMul (a b : Quat F) : Quat F :=
  { w := a.w * b.w - a.x * b.x - a.y * b.y - a.z * b.z
    x := a.w * b.x + a.x * b.w + a.y * b.z - a.z * b.y
    y := a.w * b.y - a.x * b.z + a.y * b.w + a.z * b.x
    z := a.w * b.z + a.x * b.y - a.y * b.x + a.z * b.w }

def quatNormalize (q : Quat F) : Quat F :=
  let n := CMath.sqrt (q.w * q.w + q.x * q.x + q.y * q.y + q.z * q.z)
  if n < CFloat.lit (1 / 100000000) then quatOne else ⟨q.w / n, q.x / n, q.y / n, q.z / n⟩

def clampCosine (c : F) : F :=
  let c := if CFloat.lit 1 < c then CFloat.lit 1 else c
  if c < CFloat.lit (-1) then CFloat.lit (-1) else c

def quatBetween (p q : Vec F) : Quat F :=
  let n : Vec F := ⟨p.y * q.z - p.z * q.y, p.z * q.x - p.x * q.z, p.x * q.y - p.y * q.x⟩
  let nl := CMath.sqrt (n.x * n.x + n.y * n.y + n.z * n.z)
  if nl < CFloat.lit (1 / 1000000) then quatOne
  else
    let dot := clampCosine (p.x * q.x + p.y * q.y + p.z * q.z)
    let half := CMath.acos dot * CFloat.lit (1 / 2)
    let s := CMath.sin half / nl
    ⟨CMath.cos half, n.x * s, n.y * s, n.z * s⟩

def arcballInit : Arcball F :=
  { q := quatOne
    last := ⟨CFloat.lit 0, CFloat.lit 0, CFloat.lit 0⟩
    spin := quatOne
    dragging := false }

def arcballProject (px py : F) (w h : ℤ) : Vec F :=
  let s := CFloat.ofInt (if w < h then w else h) - CFloat.lit 1
  let x := (CFloat.lit 2 * px - CFloat.ofInt w + CFloat.lit 1) / s
  let y := CMath.neg (CFloat.lit 2 * py - CFloat.ofInt h + CFloat.lit 1) / s
  let d2 := x * x + y * y
  let z := if d2 ≤ CFloat.lit (1 / 2) then CMath.sqrt (CFloat.lit 1 - d2)
    else CFloat.lit (1 / 2) / CMath.sqrt d2
  let len := CMath.sqrt (x * x + y * y + z * z)
  ⟨x / len, y / len, z / len⟩

def arcballBegin (a : Arcball F) (px py : F) (w h : ℤ) : Arcball F :=
  { a with
    last := arcballProject px py w h
    dragging := true
    spin := quatOne }

def arcballDrag (a : Arcball F) (px py : F) (w h : ℤ) : Arcball F :=
  if !a.dragging then arcballBegin a px py w h
  else
    let now := arcballProject px py w h
    let delta := quatBetween a.last now
    { a with
      q := quatNormalize (quatMul delta a.q)
      spin := delta
      last := now }

def arcballEnd (a : Arcball F) : Arcball F := { a with dragging := false }

def arcballTwist (a : Arcball F) (radians : F) : Arcball F :=
  let half := radians * CFloat.lit (1 / 2)
  let t : Quat F := ⟨CMath.cos half, CFloat.lit 0, CFloat.lit 0, CMath.sin half⟩
  { a with q := quatNormalize (quatMul t a.q) }

def arcballCoast (a : Arcball F) (decay : F) : Arcball F :=
  if a.dragging then a
  else
    let half := CMath.acos (clampCosine a.spin.w)
    if half < CFloat.lit (1 / 10000) then a
    else
      let al := CMath.sqrt (a.spin.x * a.spin.x + a.spin.y * a.spin.y + a.spin.z * a.spin.z)
      if al < CFloat.lit (1 / 1000000) then a
      else
        let half := half * decay
        let s := CMath.sin half / al
        let step : Quat F := ⟨CMath.cos half, a.spin.x * s, a.spin.y * s, a.spin.z * s⟩
        { a with
          q := quatNormalize (quatMul step a.q)
          spin := step }

/-- The sixteen entries, column by column. -/
def quatMatrix (q : Quat F) : List F :=
  [CFloat.lit 1 - CFloat.lit 2 * (q.y * q.y + q.z * q.z),
    CFloat.lit 2 * (q.x * q.y + q.z * q.w),
    CFloat.lit 2 * (q.x * q.z - q.y * q.w),
    CFloat.lit 0,
    CFloat.lit 2 * (q.x * q.y - q.z * q.w),
    CFloat.lit 1 - CFloat.lit 2 * (q.x * q.x + q.z * q.z),
    CFloat.lit 2 * (q.y * q.z + q.x * q.w),
    CFloat.lit 0,
    CFloat.lit 2 * (q.x * q.z + q.y * q.w),
    CFloat.lit 2 * (q.y * q.z - q.x * q.w),
    CFloat.lit 1 - CFloat.lit 2 * (q.x * q.x + q.y * q.y),
    CFloat.lit 0,
    CFloat.lit 0, CFloat.lit 0, CFloat.lit 0, CFloat.lit 1]

def arcballMatrix (a : Arcball F) : List F := quatMatrix a.q

/-- A call that moves the ball. -/
inductive Gesture (F : Type) where
  | start (px py : F) (w h : ℤ)
  | drag (px py : F) (w h : ℤ)
  | twist (radians : F)
  | coast (decay : F)
  | finish

def arcballStep (a : Arcball F) : Gesture F → Arcball F
  | .start px py w h => arcballBegin a px py w h
  | .drag px py w h => arcballDrag a px py w h
  | .twist radians => arcballTwist a radians
  | .coast decay => arcballCoast a decay
  | .finish => arcballEnd a

end Code

section Exact
open Quaternion Matrix

def Quat.toQuaternion (q : Quat ℝ) : Quaternion ℝ := ⟨q.w, q.x, q.y, q.z⟩

def Vec.toFun (v : Vec ℝ) : Fin 3 → ℝ := ![v.x, v.y, v.z]

/-- A quaternion of length one. -/
def Versor (q : Quat ℝ) : Prop := normSq q.toQuaternion = 1

theorem versor_iff (q : Quat ℝ) : Versor q ↔ q.w ^ 2 + q.x ^ 2 + q.y ^ 2 + q.z ^ 2 = 1 := by
  rw [Versor, normSq_def']
  rfl

theorem quatOne_eq : (quatOne : Quat ℝ) = ⟨1, 0, 0, 0⟩ := by
  rw [quatOne, lit_real, lit_real, Rat.cast_one, Rat.cast_zero]

theorem quatOne_versor : Versor quatOne := by
  rw [versor_iff, quatOne_eq]
  norm_num

theorem quatMul_toQuaternion (a b : Quat ℝ) :
    (quatMul a b).toQuaternion = a.toQuaternion * b.toQuaternion := by
  ext
  · rw [re_mul]
    rfl
  · rw [imI_mul]
    rfl
  · rw [imJ_mul]
    rfl
  · rw [imK_mul]
    rfl

theorem quatMul_versor {a b : Quat ℝ} (ha : Versor a) (hb : Versor b) : Versor (quatMul a b) := by
  rw [Versor, quatMul_toQuaternion, map_mul, ha, hb, one_mul]

/-- Normalizing leaves a quaternion of length one alone. -/
theorem quatNormalize_eq {q : Quat ℝ} (h : Versor q) : quatNormalize q = q := by
  let n := √(q.w * q.w + q.x * q.x + q.y * q.y + q.z * q.z)
  have hdef : quatNormalize q = if n < ((1 / 100000000 : ℚ) : ℝ) then quatOne
      else ⟨q.w / n, q.x / n, q.y / n, q.z / n⟩ := rfl
  have hlength : n = 1 := by
    rw [versor_iff] at h
    rw [Real.sqrt_eq_one]
    linear_combination h
  rw [hdef, hlength, if_neg (by norm_num)]
  simp only [div_one]

theorem dotProduct_toFun (p q : Vec ℝ) :
    p.toFun ⬝ᵥ q.toFun = p.x * q.x + p.y * q.y + p.z * q.z := vec3_dotProduct _ _

theorem cross_toFun (p q : Vec ℝ) : p.toFun ⨯₃ q.toFun =
    ![p.y * q.z - p.z * q.y, p.z * q.x - p.x * q.z, p.x * q.y - p.y * q.x] := cross_apply _ _

theorem clampCosine_eq {c : ℝ} (hlo : -1 ≤ c) (hhi : c ≤ 1) : clampCosine c = c := by
  have hdef : clampCosine c = if (if ((1 : ℚ) : ℝ) < c then ((1 : ℚ) : ℝ) else c) < ((-1 : ℚ) : ℝ)
      then ((-1 : ℚ) : ℝ) else if ((1 : ℚ) : ℝ) < c then ((1 : ℚ) : ℝ) else c := rfl
  have hone : ¬ ((1 : ℚ) : ℝ) < c := by
    rw [Rat.cast_one]
    exact not_lt.mpr hhi
  have hminus : ¬ c < ((-1 : ℚ) : ℝ) := by
    rw [Rat.cast_neg, Rat.cast_one]
    exact not_lt.mpr hlo
  rw [hdef, if_neg hone, if_neg hminus]

/-- A quaternion as the code builds it from an angle and an axis. -/
theorem roll_toQuaternion (t x y z : ℝ) : Quat.toQuaternion
    ⟨Real.cos t, x * (Real.sin t / √(x * x + y * y + z * z)),
      y * (Real.sin t / √(x * x + y * y + z * z)), z * (Real.sin t / √(x * x + y * y + z * z))⟩ =
      Rotation.roll t ![x, y, z] := by
  rw [Rotation.roll, vec3_dotProduct]
  rfl

/-- The length of the normal of two points, as the code computes it. -/
noncomputable def normalLength (p q : Vec ℝ) : ℝ := √((p.toFun ⨯₃ q.toFun) ⬝ᵥ (p.toFun ⨯₃ q.toFun))

/-- Between two points is the identity where they almost coincide, else a roll about their normal. -/
theorem quatBetween_cases (p q : Vec ℝ) :
    (normalLength p q < 1 / 1000000 ∧ quatBetween p q = quatOne) ∨
      (1 / 1000000 ≤ normalLength p q ∧ (quatBetween p q).toQuaternion = Rotation.roll
        (Real.arccos (clampCosine (p.toFun ⬝ᵥ q.toFun)) / 2) (p.toFun ⨯₃ q.toFun)) := by
  let n : Vec ℝ := ⟨p.y * q.z - p.z * q.y, p.z * q.x - p.x * q.z, p.x * q.y - p.y * q.x⟩
  let half := Real.arccos (clampCosine (p.x * q.x + p.y * q.y + p.z * q.z)) * ((1 / 2 : ℚ) : ℝ)
  have hdef : quatBetween p q = if √(n.x * n.x + n.y * n.y + n.z * n.z) < ((1 / 1000000 : ℚ) : ℝ)
      then quatOne
      else ⟨Real.cos half, n.x * (Real.sin half / √(n.x * n.x + n.y * n.y + n.z * n.z)),
        n.y * (Real.sin half / √(n.x * n.x + n.y * n.y + n.z * n.z)),
        n.z * (Real.sin half / √(n.x * n.x + n.y * n.y + n.z * n.z))⟩ := rfl
  have hnormal : normalLength p q = √(n.x * n.x + n.y * n.y + n.z * n.z) := by
    rw [normalLength, vec3_dotProduct, cross_toFun]
    rfl
  have hhalf : half = Real.arccos (clampCosine (p.toFun ⬝ᵥ q.toFun)) / 2 := by
    rw [dotProduct_toFun]
    simp only [half]
    push_cast
    ring
  have hbound : ((1 / 1000000 : ℚ) : ℝ) = 1 / 1000000 := by norm_num
  rw [hnormal, hdef, hbound]
  by_cases hnear : √(n.x * n.x + n.y * n.y + n.z * n.z) < 1 / 1000000
  · exact Or.inl ⟨hnear, if_pos hnear⟩
  · refine Or.inr ⟨not_lt.mp hnear, ?_⟩
    rw [if_neg hnear, roll_toQuaternion, hhalf, cross_toFun]

theorem normal_pos {p q : Vec ℝ} (h : 1 / 1000000 ≤ normalLength p q) :
    0 < (p.toFun ⨯₃ q.toFun) ⬝ᵥ (p.toFun ⨯₃ q.toFun) :=
  Real.sqrt_pos.mp (lt_of_lt_of_le (by norm_num) h)

theorem quatBetween_versor (p q : Vec ℝ) : Versor (quatBetween p q) := by
  rcases quatBetween_cases p q with ⟨-, hone⟩ | ⟨hapart, hroll⟩
  · rw [hone]
    exact quatOne_versor
  · rw [Versor, hroll]
    exact Rotation.normSq_roll _ (normal_pos hapart)

/-- The turn of a column-major matrix. -/
def turn (m : List ℝ) : Matrix (Fin 3) (Fin 3) ℝ := fun i j => m.getD (4 * j + i) 0

theorem turn_quatMatrix (q : Quat ℝ) : turn (quatMatrix q) = Rotation.matrix q.toQuaternion := by
  have hone : (CFloat.lit 1 : ℝ) = 1 := Rat.cast_one
  have htwo : (CFloat.lit 2 : ℝ) = 2 := Rat.cast_ofNat 2
  rw [quatMatrix, hone, htwo, Rotation.matrix]
  simp only [Rotation.twice_eq]
  ext i j
  fin_cases i <;> fin_cases j <;> rfl

/-- The column-major matrix of a rotation: orthogonal, of determinant one, and without a part that
moves the origin. -/
structure IsRotation (m : List ℝ) : Prop where
  length : m.length = 16
  turn : turn m ∈ specialOrthogonalGroup (Fin 3) ℝ
  border : [3, 7, 11, 12, 13, 14, 15].map (m.getD · 0) = [0, 0, 0, 0, 0, 0, 1]

theorem quatMatrix_rotation {q : Quat ℝ} (h : Versor q) : IsRotation (quatMatrix q) := by
  constructor
  · rfl
  · rw [turn_quatMatrix]
    exact Rotation.matrix_mem h
  · have hone : (CFloat.lit 1 : ℝ) = 1 := Rat.cast_one
    have hzero : (CFloat.lit 0 : ℝ) = 0 := Rat.cast_zero
    rw [quatMatrix, hone, hzero]
    rfl

theorem scaled_unit {x y z : ℝ} (hz : 0 < z) :
    let len := √(x * x + y * y + z * z)
    x / len * (x / len) + y / len * (y / len) + z / len * (z / len) = 1 ∧ 0 < z / len := by
  have hsum : 0 < x * x + y * y + z * z :=
    add_pos_of_nonneg_of_pos (add_nonneg (mul_self_nonneg x) (mul_self_nonneg y)) (mul_pos hz hz)
  refine ⟨?_, div_pos hz (Real.sqrt_pos.mpr hsum)⟩
  rw [div_mul_div_comm, div_mul_div_comm, div_mul_div_comm, ← add_div, ← add_div,
    Real.mul_self_sqrt hsum.le]
  exact div_self hsum.ne'

theorem arcballProject_eq {px py x y z : ℝ} {w h : ℤ}
    (hx : x = (2 * px - w + 1) / ((min w h : ℤ) - 1)) (hy : y = -(2 * py - h + 1) / ((min w h : ℤ) - 1))
    (hz : z = if x * x + y * y ≤ 1 / 2 then √(1 - (x * x + y * y)) else 1 / 2 / √(x * x + y * y)) :
    arcballProject px py w h = ⟨x / √(x * x + y * y + z * z), y / √(x * x + y * y + z * z),
      z / √(x * x + y * y + z * z)⟩ := by
  let s : ℝ := ((if w < h then w else h : ℤ) : ℝ) - ((1 : ℚ) : ℝ)
  let x' : ℝ := (((2 : ℚ) : ℝ) * px - (w : ℝ) + ((1 : ℚ) : ℝ)) / s
  let y' : ℝ := -(((2 : ℚ) : ℝ) * py - (h : ℝ) + ((1 : ℚ) : ℝ)) / s
  let z' : ℝ := if x' * x' + y' * y' ≤ ((1 / 2 : ℚ) : ℝ) then √(((1 : ℚ) : ℝ) - (x' * x' + y' * y'))
    else ((1 / 2 : ℚ) : ℝ) / √(x' * x' + y' * y')
  let len : ℝ := √(x' * x' + y' * y' + z' * z')
  have hdef : arcballProject px py w h = ⟨x' / len, y' / len, z' / len⟩ := rfl
  have hhalf : ((1 / 2 : ℚ) : ℝ) = 1 / 2 := by norm_num
  have hmin : (if w < h then w else h) = min w h := by
    rw [min_def]
    split_ifs <;> omega
  have hs : s = (min w h : ℤ) - 1 := by
    simp only [s]
    rw [hmin, Rat.cast_one]
  have hx' : x' = x := by
    simp only [x']
    rw [hx, hs, Rat.cast_one, Rat.cast_ofNat]
  have hy' : y' = y := by
    simp only [y']
    rw [hy, hs, Rat.cast_one, Rat.cast_ofNat]
  have hz' : z' = z := by
    simp only [z']
    rw [hz, hx', hy', hhalf, Rat.cast_one]
  simp only [len] at hdef
  rw [hdef, hx', hy', hz']

/-- The points of the ball are unit vectors in front of the screen. -/
theorem arcballProject_front (px py : ℝ) (w h : ℤ) :
    (arcballProject px py w h).toFun ⬝ᵥ (arcballProject px py w h).toFun = 1 ∧
      0 < (arcballProject px py w h).z := by
  let x : ℝ := (2 * px - w + 1) / ((min w h : ℤ) - 1)
  let y : ℝ := -(2 * py - h + 1) / ((min w h : ℤ) - 1)
  let z := if x * x + y * y ≤ 1 / 2 then √(1 - (x * x + y * y)) else 1 / 2 / √(x * x + y * y)
  have hz : 0 < z := by
    simp only [z]
    split
    · exact Real.sqrt_pos.mpr (by linarith)
    · exact div_pos one_half_pos (Real.sqrt_pos.mpr (by linarith))
  have hpoint : arcballProject px py w h = _ := arcballProject_eq (x := x) (y := y) (z := z) rfl rfl rfl
  rw [hpoint, dotProduct_toFun]
  exact scaled_unit hz

/-- Within the inner disc a point is lifted straight onto the sphere. -/
theorem arcballProject_sphere {px py x y : ℝ} {w h : ℤ}
    (hx : x = (2 * px - w + 1) / ((min w h : ℤ) - 1)) (hy : y = -(2 * py - h + 1) / ((min w h : ℤ) - 1))
    (hdisc : x * x + y * y ≤ 1 / 2) : arcballProject px py w h = ⟨x, y, √(1 - (x * x + y * y))⟩ := by
  have hsquare : √(1 - (x * x + y * y)) * √(1 - (x * x + y * y)) = 1 - (x * x + y * y) :=
    Real.mul_self_sqrt (by linarith)
  have hlen : √(x * x + y * y + √(1 - (x * x + y * y)) * √(1 - (x * x + y * y))) = 1 := by
    rw [hsquare, add_sub_cancel, Real.sqrt_one]
  rw [arcballProject_eq hx hy (if_pos hdisc).symm, hlen, div_one, div_one, div_one]

/-- Two unit vectors in front of the screen are not opposite. -/
theorem not_antipodal {p q : Vec ℝ} (hp : p.toFun ⬝ᵥ p.toFun = 1) (hq : q.toFun ⬝ᵥ q.toFun = 1)
    (hpz : 0 < p.z) (hqz : 0 < q.z) : -1 < p.toFun ⬝ᵥ q.toFun := by
  rw [dotProduct_toFun] at hp hq ⊢
  have hz : 0 < (p.z + q.z) ^ 2 := pow_pos (add_pos hpz hqz) 2
  have hx := sq_nonneg (p.x + q.x)
  have hy := sq_nonneg (p.y + q.y)
  linarith

/-- The rotation between two unit vectors carries the one onto the other. -/
theorem quatBetween_carries {p q : Vec ℝ} (hp : p.toFun ⬝ᵥ p.toFun = 1)
    (hq : q.toFun ⬝ᵥ q.toFun = 1) (hapart : 1 / 1000000 ≤ normalLength p q) :
    turn (quatMatrix (quatBetween p q)) *ᵥ p.toFun = q.toFun := by
  obtain ⟨hlow, hhigh⟩ := Rotation.dot_bounds hp hq
  rcases quatBetween_cases p q with ⟨hnear, -⟩ | ⟨-, hroll⟩
  · exact absurd hapart (not_le.mpr hnear)
  · rw [turn_quatMatrix, hroll, clampCosine_eq hlow hhigh]
    exact Rotation.roll_mulVec hp hq (normal_pos hapart)

/-- Coasting replays a rotation, or does nothing. -/
theorem arcballCoast_cases (a : Arcball ℝ) (decay : ℝ) : arcballCoast a decay = a ∨
    ∃ step, Versor step ∧
      arcballCoast a decay = { a with q := quatNormalize (quatMul step a.q), spin := step } := by
  let al := √(a.spin.x * a.spin.x + a.spin.y * a.spin.y + a.spin.z * a.spin.z)
  let half := Real.arccos (clampCosine a.spin.w)
  let step : Quat ℝ := ⟨Real.cos (half * decay), a.spin.x * (Real.sin (half * decay) / al),
    a.spin.y * (Real.sin (half * decay) / al), a.spin.z * (Real.sin (half * decay) / al)⟩
  have hdef : arcballCoast a decay = if a.dragging then a
      else if half < ((1 / 10000 : ℚ) : ℝ) then a
      else if al < ((1 / 1000000 : ℚ) : ℝ) then a
      else { a with q := quatNormalize (quatMul step a.q), spin := step } := rfl
  rw [hdef]
  split
  · exact Or.inl rfl
  split
  · exact Or.inl rfl
  split
  · exact Or.inl rfl
  next haxis =>
    refine Or.inr ⟨step, ?_, rfl⟩
    have hpos : 0 < al := lt_of_lt_of_le (by norm_num) (not_lt.mp haxis)
    have hroll : step.toQuaternion = Rotation.roll (half * decay) ![a.spin.x, a.spin.y, a.spin.z] :=
      roll_toQuaternion _ _ _ _
    rw [Versor, hroll]
    apply Rotation.normSq_roll
    rw [vec3_dotProduct]
    exact Real.sqrt_pos.mp hpos

theorem arcballTwist_versor {a : Arcball ℝ} (h : Versor a.q) (radians : ℝ) :
    Versor (arcballTwist a radians).q := by
  let half := radians * ((1 / 2 : ℚ) : ℝ)
  have htwist : Versor ⟨Real.cos half, 0, 0, Real.sin half⟩ := by
    rw [versor_iff]
    linear_combination Real.sin_sq_add_cos_sq half
  have hdef : (arcballTwist a radians).q =
      quatNormalize (quatMul ⟨Real.cos half, ((0 : ℚ) : ℝ), ((0 : ℚ) : ℝ), Real.sin half⟩ a.q) := rfl
  rw [hdef, Rat.cast_zero, quatNormalize_eq (quatMul_versor htwist h)]
  exact quatMul_versor htwist h

theorem arcballDrag_q {a : Arcball ℝ} (h : Versor a.q) (hdrag : a.dragging = true) (px py : ℝ)
    (width height : ℤ) : (arcballDrag a px py width height).q =
      quatMul (quatBetween a.last (arcballProject px py width height)) a.q := by
  rw [arcballDrag, hdrag]
  exact quatNormalize_eq (quatMul_versor (quatBetween_versor _ _) h)

theorem arcballStep_versor {a : Arcball ℝ} (h : Versor a.q) (g : Gesture ℝ) :
    Versor (arcballStep a g).q := by
  cases g with
  | start px py width height => exact h
  | drag px py width height =>
    change Versor (arcballDrag a px py width height).q
    cases hdrag : a.dragging with
    | false =>
      rw [arcballDrag, hdrag]
      exact h
    | true =>
      rw [arcballDrag_q h hdrag]
      exact quatMul_versor (quatBetween_versor _ _) h
  | twist radians => exact arcballTwist_versor h radians
  | coast decay =>
    change Versor (arcballCoast a decay).q
    rcases arcballCoast_cases a decay with hstill | ⟨step, hstep, hcoast⟩
    · rw [hstill]
      exact h
    · rw [hcoast]
      dsimp only
      rw [quatNormalize_eq (quatMul_versor hstep h)]
      exact quatMul_versor hstep h
  | finish => exact h

theorem arcballRun_versor (gs : List (Gesture ℝ)) : Versor (gs.foldl arcballStep arcballInit).q := by
  induction gs using List.reverseRecOn with
  | nil => exact quatOne_versor
  | append_singleton gs g ih =>
    rw [List.foldl_append]
    exact arcballStep_versor ih g

/-- What a drag from the point of `p` to the point of `p'` owes the hand. -/
structure Rolls (a : Arcball ℝ) (p p' : Vec ℝ) (dragged : Arcball ℝ) : Prop where
  between : dragged.spin = quatBetween p p'
  versor : Versor dragged.spin
  carries : turn (quatMatrix dragged.spin) *ᵥ p.toFun = p'.toFun
  grabbed : Versor a.q → ∀ v, turn (arcballMatrix a) *ᵥ v = p.toFun →
    turn (arcballMatrix dragged) *ᵥ v = p'.toFun

/-- A drag keeps what it grabbed under the finger, and every sequence of calls leaves a rotation. -/
theorem arcball_rolls :
    (∀ w h : ℤ, 2 ≤ w → 2 ≤ h → ∀ px py px' py' : ℝ,
      let p := arcballProject px py w h
      let p' := arcballProject px' py' w h
      p.toFun ⬝ᵥ p.toFun = 1 ∧ 0 < p.z ∧ -1 < p.toFun ⬝ᵥ p'.toFun ∧
        ∀ a : Arcball ℝ, 1 / 1000000 ≤ normalLength p p' →
          Rolls a p p' (arcballDrag (arcballBegin a px py w h) px' py' w h)) ∧
      ∀ gs : List (Gesture ℝ), Versor (gs.foldl arcballStep arcballInit).q ∧
        IsRotation (arcballMatrix (gs.foldl arcballStep arcballInit)) := by
  constructor
  · intro w h _ _ px py px' py' p p'
    obtain ⟨hunit, hfront⟩ := arcballProject_front px py w h
    obtain ⟨hunit', hfront'⟩ := arcballProject_front px' py' w h
    refine ⟨hunit, hfront, not_antipodal hunit hunit' hfront hfront', fun a hapart => ?_⟩
    have hversor := quatBetween_versor p p'
    have hcarries := quatBetween_carries hunit hunit' hapart
    refine ⟨rfl, hversor, hcarries, fun ha v hv => ?_⟩
    have hbegun : Versor (arcballBegin a px py w h).q := ha
    have hq := arcballDrag_q hbegun rfl px' py' w h
    have hv' : Rotation.matrix a.q.toQuaternion *ᵥ v = p.toFun := by
      rw [← turn_quatMatrix]
      exact hv
    rw [turn_quatMatrix] at hcarries
    rw [arcballMatrix, hq, turn_quatMatrix, quatMul_toQuaternion]
    change Rotation.matrix ((quatBetween p p').toQuaternion * a.q.toQuaternion) *ᵥ v = p'.toFun
    rw [Rotation.matrix_mul hversor ha, ← mulVec_mulVec, hv', hcarries]
  · intro gs
    have hversor := arcballRun_versor gs
    exact ⟨hversor, quatMatrix_rotation hversor⟩

theorem drag_rolls_sideways :
    Rolls arcballInit (arcballProject 1 1 3 3) (arcballProject (8 / 5) 1 3 3)
      (arcballDrag (arcballBegin arcballInit 1 1 3 3) (8 / 5) 1 3 3) := by
  have hsqrt : √((16 : ℝ) / 25) = 4 / 5 := by
    rw [Real.sqrt_eq_iff_mul_self_eq (by norm_num) (by norm_num)]
    norm_num
  have hfirst : arcballProject 1 1 3 3 = (⟨0, 0, 1⟩ : Vec ℝ) := by
    rw [arcballProject_sphere (x := 0) (y := 0) (by norm_num) (by norm_num) (by norm_num)]
    norm_num
  have hsecond : arcballProject (8 / 5) 1 3 3 = (⟨3 / 5, 0, 4 / 5⟩ : Vec ℝ) := by
    rw [arcballProject_sphere (x := 3 / 5) (y := 0) (by norm_num) (by norm_num) (by norm_num), ← hsqrt]
    norm_num
  refine (arcball_rolls.1 3 3 (by decide) (by decide) 1 1 (8 / 5) 1).2.2.2 arcballInit ?_
  rw [hfirst, hsecond, normalLength, cross_toFun]
  apply Real.le_sqrt_of_sq_le
  simp [dotProduct, Fin.sum_univ_three]
  norm_num

end Exact

end Taq102.Graphics
