import Mathlib.Data.List.Basic

/-! The run-length encoder of the boot logo (`make-logo.py`), read back by the rules of the
format. -/
namespace Taq102.Tools

/-- An element of `bytes((..))`, which must fit a byte. -/
def pyByte (n : Nat) : Option UInt8 := if n < 256 then some (UInt8.ofNat n) else none

section Encoder
variable (pixels : Nat → Nat → UInt8) (width y : Nat)

/-- The inner loop: lengthens the run that starts at `x`. -/
def growRun (x run : Nat) : Nat :=
  if x + run < width ∧ pixels (x + run) y = pixels x y ∧ run < 255 then growRun x (run + 1) else run
termination_by 255 - run

theorem le_growRun (x run : Nat) : run ≤ growRun pixels width y x run := by
  fun_induction growRun pixels width y x run with
  | case1 run hgrow ih => omega
  | case2 run hstop => exact Nat.le_refl run

/-- A row from the column `x` on. -/
def encodeRow (x : Nat) : Option (List UInt8) :=
  if x < width then
    let value := pixels x y
    let run := growRun pixels width y x 1
    have : 1 ≤ run := le_growRun pixels width y x 1
    do
      let count ← pyByte run
      let rest ← encodeRow (x + run)
      pure (count :: value :: rest)
  else some []
termination_by width - x

end Encoder

/-- The rows in the order given, each with its end of line. -/
def encodeRows (pixels : Nat → Nat → UInt8) (width : Nat) : List Nat → Option (List UInt8)
  | [] => some []
  | y :: rest => do
    let row ← encodeRow pixels width y 0
    let rows ← encodeRows pixels width rest
    pure (row ++ [0, 0] ++ rows)

def rle8 (pixels : Nat → Nat → UInt8) (width height : Nat) : Option (List UInt8) := do
  let body ← encodeRows pixels width (List.range height).reverse
  pure (body ++ [0, 1])

/-- What a reader of the format has: the rows it has ended, the pixels of the row it is in and,
after the end of the bitmap, the bytes it has not read. -/
structure Bitmap where
  rows : List (List UInt8)
  row : List UInt8
  left : List UInt8
  deriving DecidableEq, Repr

/-- The rules of the format: a count and a value, the end of a row, the end of the bitmap. Every
other escape, and a stream that stops before the end of the bitmap, is refused. -/
def readRle8 (rows : List (List UInt8)) (row : List UInt8) : List UInt8 → Option Bitmap
  | count :: value :: rest =>
    if count ≠ 0 then readRle8 rows (row ++ List.replicate count.toNat value) rest
    else if value = 0 then readRle8 (rows ++ [row]) [] rest
    else if value = 1 then some { rows := rows, row := row, left := rest }
    else none
  | _ => none

/-- The image as rows from the top, as rows run bottom-up in the stream. -/
def decodeRle8 (stream : List UInt8) : Option Bitmap :=
  (readRle8 [] [] stream).map fun b => { b with rows := b.rows.reverse }

section Encoder
variable {pixels : Nat → Nat → UInt8} {width y : Nat}

/-- The pixels of a row from the column `x` on. -/
def rowFrom (pixels : Nat → Nat → UInt8) (width y x : Nat) : List UInt8 :=
  (List.range' x (width - x)).map fun i => pixels i y

/-- Equal pixels of one row, no more than a count can hold. -/
structure Run (pixels : Nat → Nat → UInt8) (width y x run : Nat) : Prop where
  inside : x + run ≤ width
  count : run ≤ 255
  same : ∀ k < run, pixels (x + k) y = pixels x y

theorem Run.grow {x run : Nat} (h : Run pixels width y x run) :
    Run pixels width y x (growRun pixels width y x run) := by
  fun_induction growRun pixels width y x run with
  | case1 run hgrow ih =>
    apply ih
    refine ⟨by omega, by omega, fun k hk => ?_⟩
    by_cases hlast : k = run
    · rw [hlast]
      exact hgrow.2.1
    · exact h.same k (by omega)
  | case2 run hstop => exact h

theorem Run.rowFrom_eq {x run : Nat} (h : Run pixels width y x run) :
    rowFrom pixels width y x =
      List.replicate run (pixels x y) ++ rowFrom pixels width y (x + run) := by
  have hinside := h.inside
  have hsplit : List.range' x (width - x) =
      List.range' x run ++ List.range' (x + run) (width - (x + run)) := by
    rw [List.range'_append_1]
    congr 1
    omega
  rw [rowFrom, rowFrom, hsplit, List.map_append]
  congr 1
  refine List.eq_replicate_iff.mpr ⟨by simp, fun v hv => ?_⟩
  obtain ⟨i, hi, rfl⟩ := List.mem_map.mp hv
  obtain ⟨k, hk, rfl⟩ := List.mem_range'.mp hi
  rw [Nat.one_mul]
  exact h.same k hk

theorem pyByte_of_lt {n : Nat} (h : n < 256) : pyByte n = some (UInt8.ofNat n) := if_pos h

theorem toNat_count {n : Nat} (h : n ≤ 255) : (UInt8.ofNat n).toNat = n := by
  rw [UInt8.toNat_ofNat']
  exact Nat.mod_eq_of_lt (by omega)

/-- A row is encoded, and whatever follows it is read after its pixels. -/
theorem readRle8_encodeRow (pixels : Nat → Nat → UInt8) (width y x : Nat) :
    ∃ bytes, encodeRow pixels width y x = some bytes ∧ ∀ rows row rest,
      readRle8 rows row (bytes ++ rest) =
      readRle8 rows (row ++ rowFrom pixels width y x) rest := by
  fun_induction encodeRow pixels width y x with
  | case1 x hx value run hpos ih =>
    have hrun : Run pixels width y x run := Run.grow ⟨by omega, by omega, fun k hk => by
      rw [Nat.lt_one_iff.mp hk, Nat.add_zero]⟩
    have hcount := hrun.count
    obtain ⟨bytes, hbytes, hread⟩ := ih
    refine ⟨UInt8.ofNat run :: value :: bytes, ?_, fun rows row rest => ?_⟩
    · rw [pyByte_of_lt (by omega), hbytes]
      rfl
    · have hnonzero : UInt8.ofNat run ≠ 0 := by
        intro hzero
        have hval := toNat_count hcount
        rw [hzero] at hval
        change 0 = run at hval
        omega
      rw [List.cons_append, List.cons_append, readRle8, if_pos hnonzero, hread, toNat_count hcount,
        hrun.rowFrom_eq, List.append_assoc]
  | case2 x hx =>
    refine ⟨[], rfl, fun rows row rest => ?_⟩
    have hempty : rowFrom pixels width y x = [] := by
      rw [rowFrom, Nat.sub_eq_zero_of_le (by omega)]
      rfl
    rw [hempty, List.nil_append, List.append_nil]

theorem readRle8_encodeRows (pixels : Nat → Nat → UInt8) (width : Nat) (ys : List Nat) :
    ∃ bytes, encodeRows pixels width ys = some bytes ∧ ∀ rows rest,
      readRle8 rows [] (bytes ++ rest) =
      readRle8 (rows ++ ys.map fun y => rowFrom pixels width y 0) [] rest := by
  induction ys with
  | nil => exact ⟨[], rfl, fun rows rest => by rw [List.map_nil, List.append_nil, List.nil_append]⟩
  | cons y ys ih =>
    obtain ⟨bytes, hbytes, hread⟩ := ih
    obtain ⟨line, hline, hrow⟩ := readRle8_encodeRow pixels width y 0
    refine ⟨line ++ [0, 0] ++ bytes, ?_, fun rows rest => ?_⟩
    · rw [encodeRows, hline, hbytes]
      rfl
    · have hend (row tail : List UInt8) : readRle8 rows row ([0, 0] ++ tail) =
          readRle8 (rows ++ [row]) [] tail := by
        simp [readRle8]
      rw [List.append_assoc, List.append_assoc, hrow, hend, hread, List.nil_append, List.map_cons,
        List.append_assoc, List.singleton_append]

/-- Reading the encoded image gives back the image: its rows from the top, each ended at the
width, with nothing after the end of the bitmap and no other escape on the way. -/
theorem decodeRle8_rle8 (pixels : Nat → Nat → UInt8) (width height : Nat) :
    ∃ stream, rle8 pixels width height = some stream ∧
      decodeRle8 stream = some
        { rows := (List.range height).map fun y => (List.range width).map fun x => pixels x y,
          row := [],
          left := [] } := by
  obtain ⟨bytes, hbytes, hread⟩ :=
    readRle8_encodeRows pixels width (List.range height).reverse
  refine ⟨bytes ++ [0, 1], ?_, ?_⟩
  · rw [rle8, hbytes]
    rfl
  · have hrow (y : Nat) : rowFrom pixels width y 0 = (List.range width).map fun x => pixels x y := by
      rw [rowFrom, Nat.sub_zero, List.range_eq_range']
    have hend (rows : List (List UInt8)) : readRle8 rows [] [0, 1] =
        some { rows := rows, row := [], left := [] } := by
      simp [readRle8]
    rw [decodeRle8, hread, hend]
    simp only [Option.map_some, List.nil_append, List.map_reverse, List.reverse_reverse, hrow]

end Encoder

end Taq102.Tools
