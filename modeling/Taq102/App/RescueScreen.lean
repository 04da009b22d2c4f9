import Mathlib.Data.Fin.Rev
import Taq102.App.Orientation
import Taq102.Graphics.Particles
import Taq102.Runtime.Status

/-! The screen of the rescue image (`rescue-screen.c`): the status and the orientation are sampled every
two seconds, and the picture is painted again when one of them has changed. -/
namespace Taq102.App.Rescue
open Taq102.Lib Streak Transition Taq102.Runtime
open Taq102.Graphics.Particles (Mode Shows byteOf copyRow foldl_copyRow)

section Turn
variable {n : Nat}

/-- One turn of the loop that turns the canvas round. -/
def swapPixel (px : Fin n → UInt32) (i : Fin n) : Fin n → UInt32 :=
  Function.update (Function.update px i (px i.rev)) i.rev (px i)

/-- The canvas turned round in place. -/
def turned (px : Fin n → UInt32) : Fin n → UInt32 :=
  ((List.finRange n).take (n / 2)).foldl swapPixel px

/-- After some swaps the pixels up to there, at both ends, have changed places. -/
theorem foldl_swapPixel (px : Fin n → UInt32) {k : Nat} (hk : k ≤ n / 2) (j : Fin n) :
    ((List.finRange n).take k).foldl swapPixel px j = if j.val < k ∨ j.rev.val < k then px j.rev else px j := by
  induction k generalizing j with
  | zero => simp
  | succ k ih =>
    have hin : k < n := by omega
    have hlast : (List.finRange n).take (k + 1) = (List.finRange n).take k ++ [⟨k, hin⟩] := by
      rw [List.take_succ_eq_append_getElem (by simpa using hin), List.getElem_finRange]
      rfl
    have hbefore := ih (by omega)
    have hval : (⟨k, hin⟩ : Fin n).rev.val = n - (k + 1) := Fin.val_rev _
    have hfar : ¬ ((⟨k, hin⟩ : Fin n).rev.val < k) := by omega
    rw [hlast, List.foldl_append, List.foldl_cons, List.foldl_nil, swapPixel]
    by_cases hback : j = (⟨k, hin⟩ : Fin n).rev
    · have hmoved : j.rev = ⟨k, hin⟩ := by rw [hback, Fin.rev_rev]
      rw [hmoved, hback, Function.update_self, hbefore, if_neg, if_pos (.inr (Nat.lt_succ_self k))]
      exact fun h => h.elim (lt_irrefl k) hfar
    · rw [Function.update_of_ne hback]
      by_cases hfront : j = ⟨k, hin⟩
      · rw [hfront, Function.update_self, hbefore, Fin.rev_rev, if_neg, if_pos (.inl (Nat.lt_succ_self k))]
        exact fun h => h.elim hfar (lt_irrefl k)
      · rw [Function.update_of_ne hfront, hbefore]
        have hne : j.val ≠ k := fun h => hfront (Fin.ext h)
        have hne' : j.rev.val ≠ k := fun h => hback (by rw [← Fin.rev_rev j]; exact congrArg Fin.rev (Fin.ext h))
        have hiff : (j.val < k ∨ j.rev.val < k) ↔ (j.val < k + 1 ∨ j.rev.val < k + 1) := by omega
        simp only [hiff]

theorem turned_eq (px : Fin n → UInt32) (j : Fin n) : turned px j = px j.rev := by
  have hrev : j.rev.val = n - (j.val + 1) := Fin.val_rev j
  rw [turned, foldl_swapPixel px le_rfl]
  split
  · rfl
  · -- the pixel in the middle
    rename_i hmiddle
    have hself : j.rev = j := Fin.ext (by omega)
    rw [hself]

end Turn

def amber : UInt32 := 0xFFE08A00

/-- What does not change: the mode, what `rescue_paint` draws of a status over its ground, the
orientation that was forced, and whether there is a sensor. -/
structure Setup where
  mode : Mode
  draw : Status → (Fin (mode.W * mode.H) → UInt32) → Fin (mode.W * mode.H) → UInt32
  forced : Option Bool
  sensor : Bool

/-- What a round meets: the reading of the Y axis, the sample, and whether the display takes the mode,
each time it is set. -/
structure Round where
  reading : Option Int
  status : StatusEnv
  set : Bool
  setAgain : Bool

inductive CrtcCall where
  | set
  | drop
  deriving DecidableEq, Repr

structure Screen (setup : Setup) where
  orientation : Orientation
  shown : CStr
  first : Bool
  px : Fin (setup.mode.W * setup.mode.H) → UInt32
  base : Nat → UInt8
  crtc : List CrtcCall
  exited : Bool

/-- The text by which one sample is told from another. -/
def screenKey (st : Status) : CStr :=
  snprintf 200 (st.addr ++ 124 :: (decimal (if st.haveWifi then 1 else 0) ++ 124 :: (decimal st.level ++
    124 :: (decimal st.quality ++ 124 :: (decimal st.cap ++ 124 :: (decimal (if st.ma > 0 then 1 else 0) ++
      124 :: st.word))))))

/-- A reading that fails takes the votes back. -/
def sense (o : Orientation) (reading : Option Int) : Bool × Orientation :=
  match reading with
  | some yMg => vote o yMg
  | none => (false, { o with flipVotes := 0 })

section Rounds
variable {setup : Setup}

/-- `rescue_paint`: whatever the canvas held is painted over. -/
def rescuePaint (setup : Setup) (st : Status) (_ : Fin (setup.mode.W * setup.mode.H) → UInt32) :
    Fin (setup.mode.W * setup.mode.H) → UInt32 :=
  setup.draw st fun _ => amber

/-- The pixel of a row at a column. -/
def pixelAt (px : Fin (setup.mode.W * setup.mode.H) → UInt32) (i : Nat) : UInt32 :=
  if h : i < setup.mode.W * setup.mode.H then px ⟨i, h⟩ else 0

/-- The rows of the canvas, copied to the buffer that is scanned out. -/
def copyOut (px : Fin (setup.mode.W * setup.mode.H) → UInt32) (base : Nat → UInt8) : Nat → UInt8 :=
  (List.range setup.mode.H).foldl (fun buf y => copyRow setup.mode (pixelAt px) y buf) base

/-- The canvas painted, turned round where it is to be, and copied out. -/
def Screen.paint (s : Screen setup) (st : Status) : Screen setup :=
  let px := rescuePaint setup st s.px
  let px := if s.orientation.flipped then turned px else px
  { s with px, base := copyOut px s.base }

/-- The first picture: the mode is set, dropped and set again; the loop goes on if both took. -/
def Screen.light (s : Screen setup) (r : Round) (key : CStr) : Screen setup :=
  if r.set = false then { s with crtc := s.crtc ++ [.set], exited := true }
  else if r.setAgain = false then { s with crtc := s.crtc ++ [.set, .drop, .set], exited := true }
  else { s with crtc := s.crtc ++ [.set, .drop, .set], shown := key, first := false }

def Screen.turn (s : Screen setup) (r : Round) : Bool × Orientation :=
  if setup.sensor = true ∧ setup.forced = none then sense s.orientation r.reading else (false, s.orientation)

/-- One round of the loop; `none` after the exit. -/
def Screen.next (s : Screen setup) (r : Round) : Option (Screen setup) :=
  if s.exited then none
  else
    let st := statusRead r.status
    let key := screenKey st
    let sensed := { s with orientation := (s.turn r).2 }
    if s.first ∨ (s.turn r).1 ∨ key ≠ s.shown then
      let painted := sensed.paint st
      if s.first then some (painted.light r key) else some { painted with shown := key, first := false }
    else some sensed

/-- Before the first round; `base` is what the buffer held when it was made. -/
def Screen.start (setup : Setup) (base : Nat → UInt8) : Screen setup where
  orientation := ⟨setup.forced = some true, 0, 0⟩
  shown := []
  first := true
  px _ := 0
  base
  crtc := []
  exited := false

/-! What the key tells apart. -/

/-- Two samples of which the screen shows the same. -/
structure SameShown (st st' : Status) : Prop where
  addr : st.addr = st'.addr
  haveWifi : st.haveWifi = st'.haveWifi
  level : st.level = st'.level
  quality : st.quality = st'.quality
  cap : st.cap = st'.cap
  charging : 0 < st.ma ↔ 0 < st'.ma
  word : st.word = st'.word

/-- The key fits its buffer. -/
theorem screenKey_whole {st : Status} (h : st.Fits) : screenKey st =
    st.addr ++ 124 :: (decimal (if st.haveWifi then 1 else 0) ++ 124 :: (decimal st.level ++ 124 ::
      (decimal st.quality ++ 124 :: (decimal st.cap ++ 124 :: (decimal (if st.ma > 0 then 1 else 0) ++
        124 :: st.word))))) := by
  have hlong : longMax = 2147483647 := by decide
  have hlength {v : Int} (hv : IsInt v) : (decimal v).length ≤ 11 := by
    obtain ⟨hlow, hhigh⟩ := hv
    exact decimal_length (by omega) (by omega)
  have hwifi := hlength (isInt_flag (st.haveWifi = true))
  have hma := hlength (isInt_flag (st.ma > 0))
  have haddr := h.addr
  have hlevel := hlength h.level
  have hquality := hlength h.quality
  have hcap := hlength h.cap
  have hword := h.word
  refine List.take_of_length_le ?_
  simp only [List.length_append, List.length_cons]
  omega

theorem sameShown_of_key {st st' : Status} (h : st.Fits) (h' : st'.Fits) (haddr : 124 ∉ st.addr)
    (haddr' : 124 ∉ st'.addr) (hkey : screenKey st = screenKey st') : SameShown st st' := by
  have hbar (v : Int) : (124 : UInt8) ∉ decimal v := decimal_plain (by decide) (by decide)
  have hnumber {v v' : Int} {rest rest' : CStr} (hv : IsInt v) (hv' : IsInt v')
      (heq : decimal v ++ 124 :: rest = decimal v' ++ 124 :: rest') : v = v' ∧ rest = rest' := by
    obtain ⟨hsame, hrest⟩ := split_separator (hbar v) (hbar v') heq
    exact ⟨decimal_injective hv hv' hsame, hrest⟩
  have hflag {p q : Prop} [Decidable p] [Decidable q] (heq : (if p then 1 else 0 : Int) = if q then 1 else 0) :
      p ↔ q := by
    split at heq <;> split at heq <;> simp_all
  rw [screenKey_whole h, screenKey_whole h'] at hkey
  obtain ⟨hsame, hkey⟩ := split_separator haddr haddr' hkey
  obtain ⟨hwifi, hkey⟩ := hnumber (isInt_flag _) (isInt_flag _) hkey
  obtain ⟨hlevel, hkey⟩ := hnumber h.level h'.level hkey
  obtain ⟨hquality, hkey⟩ := hnumber h.quality h'.quality hkey
  obtain ⟨hcap, hkey⟩ := hnumber h.cap h'.cap hkey
  obtain ⟨hma, hword⟩ := hnumber (isInt_flag _) (isInt_flag _) hkey
  exact ⟨hsame, Bool.eq_iff_iff.mpr (hflag hwifi), hlevel, hquality, hcap, hflag hma, hword⟩

/-! What is on the screen. -/

/-- The painting of a status, upright or turned round. -/
def picture (setup : Setup) (flipped : Bool) (st : Status) (x y : Nat) : UInt32 :=
  let painting := setup.draw st fun _ => amber
  if flipped then pixelAt painting ((setup.mode.H - 1 - y) * setup.mode.W + (setup.mode.W - 1 - x))
  else pixelAt painting (y * setup.mode.W + x)

/-- The buffer shows the painting of a status. -/
def Displays (s : Screen setup) (st : Status) : Prop :=
  ∀ x < setup.mode.W, ∀ y < setup.mode.H,
    Shows setup.mode s.base x y (picture setup s.orientation.flipped st x y)

theorem copyOut_shows (px : Fin (setup.mode.W * setup.mode.H) → UInt32) (base : Nat → UInt8) {x y : Nat}
    (hx : x < setup.mode.W) (hy : y < setup.mode.H) :
    Shows setup.mode (copyOut px base) x y (pixelAt px (y * setup.mode.W + x)) := by
  intro k hk
  rw [copyOut, foldl_copyRow (List.mem_range.mpr hy) (by omega), show (4 * x + k) / 4 = x from by omega,
    show (4 * x + k) % 4 = k from by omega]

theorem paint_displays (s : Screen setup) (st : Status) : Displays (s.paint st) st := by
  intro x hx y hy
  have hshows := copyOut_shows (if s.orientation.flipped then turned (rescuePaint setup st s.px)
    else rescuePaint setup st s.px) s.base hx hy
  have hpixel : pixelAt (if s.orientation.flipped then turned (rescuePaint setup st s.px)
      else rescuePaint setup st s.px) (y * setup.mode.W + x) = picture setup s.orientation.flipped st x y := by
    unfold picture
    dsimp only
    split
    · -- the pixel opposite is as far from the end
      have hrow : (y + 1) * setup.mode.W ≤ setup.mode.W * setup.mode.H := by
        rw [Nat.mul_comm setup.mode.W]
        exact Nat.mul_le_mul_right _ hy
      have hopposite : (setup.mode.H - 1 - y) * setup.mode.W + (setup.mode.W - 1 - x) =
          setup.mode.W * setup.mode.H - (y * setup.mode.W + x + 1) := by
        obtain ⟨rows, hrows⟩ := Nat.exists_eq_add_of_lt hy
        rw [hrows, show y + rows + 1 - 1 - y = rows from by omega, Nat.mul_comm setup.mode.W, Nat.add_mul,
          Nat.add_mul, Nat.one_mul]
        omega
      rw [Nat.add_mul, Nat.one_mul] at hrow
      have hin : y * setup.mode.W + x < setup.mode.W * setup.mode.H := by omega
      rw [pixelAt, dif_pos hin, turned_eq, hopposite, pixelAt, dif_pos (by omega)]
      exact congrArg _ (Fin.ext (Fin.val_rev _))
    · rfl
  rw [hpixel] at hshows
  exact hshows

/-! A run. -/

/-- The readings of some rounds, the newest first; one that failed is level. -/
def sampleOf (r : Round) : Sample := ⟨0, r.reading.getD 0, 0, 0⟩

def seen (setup : Setup) (rounds : List Round) : List Sample :=
  if setup.sensor = true ∧ setup.forced = none then rounds.reverse.map sampleOf else []

/-- After some rounds the screen shows a sample that its key does not tell from the last one. -/
structure Current (rounds : List Round) (s : Screen setup) : Prop where
  first : s.first = true ↔ rounds = []
  votes : s.orientation.flipVotes = tally (against s.orientation.flipped) (seen setup rounds)
  below : s.orientation.flipVotes ≤ 2
  latest : ∀ r ∈ rounds.getLast?, screenKey (statusRead r.status) = s.shown
  displayed : rounds ≠ [] →
    ∃ r ∈ rounds, screenKey (statusRead r.status) = s.shown ∧ Displays s (statusRead r.status)
  crtc : s.crtc = if rounds = [] then [] else [.set, .drop, .set]

theorem sense_eq (o : Orientation) (r : Round) : sense o r.reading = vote o (sampleOf r).yMg := by
  unfold sense sampleOf
  cases r.reading with
  | some yMg => rfl
  | none =>
    have hlevel : wanted o.flipped 0 = o.flipped := rfl
    rw [vote, Option.getD_none, if_pos hlevel]

theorem turn_counts {rounds : List Round} {s : Screen setup} (h : Current rounds s) (r : Round) :
    ((s.turn r).1 = true ↔ (setup.sensor = true ∧ setup.forced = none) ∧
        3 ≤ tally (against s.orientation.flipped) ((rounds ++ [r]).reverse.map sampleOf)) ∧
      (s.turn r).2.flipVotes = tally (against (s.turn r).2.flipped) (seen setup (rounds ++ [r])) ∧
      (s.turn r).2.flipVotes ≤ 2 ∧ (s.turn r).2.flipped = (s.orientation.flipped ^^ (s.turn r).1) := by
  have hvotes := h.votes
  have hreverse : (rounds ++ [r]).reverse.map sampleOf = sampleOf r :: rounds.reverse.map sampleOf := by
    rw [List.reverse_append, List.map_append]
    rfl
  unfold seen Screen.turn at *
  by_cases hreads : setup.sensor = true ∧ setup.forced = none
  · simp only [if_pos hreads] at hvotes ⊢
    rw [hreverse, sense_eq]
    obtain ⟨hturns, hcounts, hbelow, hflipped, _⟩ := vote_counts (sampleOf r) hvotes h.below
    exact ⟨⟨fun hturn => ⟨hreads, hturns.mp hturn⟩, fun hthree => hturns.mpr hthree.2⟩, hcounts, hbelow,
      hflipped⟩
  · simp only [if_neg hreads] at hvotes ⊢
    exact ⟨iff_of_false Bool.false_ne_true fun hturn => hreads hturn.1, hvotes, h.below,
      (Bool.xor_false _).symm⟩

theorem current_next {rounds : List Round} {s u : Screen setup} {r : Round} (h : Current rounds s)
    (hnext : s.next r = some u) (hlit : u.exited = false) :
    Current (rounds ++ [r]) u ∧ u.orientation.flipped = (s.orientation.flipped ^^ (s.turn r).1) := by
  obtain ⟨_, hvotes, hbelow, hflipped⟩ := turn_counts h r
  have hmem : r ∈ rounds ++ [r] := List.mem_append_right _ List.mem_cons_self
  have hlast (key : CStr) (hkey : key = screenKey (statusRead r.status)) :
      ∀ q ∈ (rounds ++ [r]).getLast?, screenKey (statusRead q.status) = key := by
    intro q hq
    rw [List.getLast?_concat] at hq
    obtain rfl := Option.some.inj hq
    exact hkey.symm
  have hpainted := paint_displays { s with orientation := (s.turn r).2 } (statusRead r.status)
  rw [Screen.next] at hnext
  split at hnext
  · cases hnext
  dsimp only at hnext
  split at hnext
  · rename_i hpaint
    split at hnext
    · -- the first picture
      rename_i hfirst
      have hcrtc : s.crtc = [] := h.crtc.trans (if_pos (h.first.mp hfirst))
      obtain rfl := Option.some.inj hnext
      unfold Screen.light at hlit ⊢
      split at hlit
      · cases hlit
      split at hlit
      · cases hlit
      rename_i hset hagain
      rw [if_neg hset, if_neg hagain]
      refine ⟨⟨by simp, hvotes, hbelow, hlast _ rfl, fun _ => ⟨r, hmem, rfl, hpainted⟩, ?_⟩, hflipped⟩
      change s.crtc ++ _ = _
      rw [hcrtc, if_neg (by simp)]
      rfl
    · rename_i hfirst
      have hsome : rounds ≠ [] := fun hnil => hfirst (h.first.mpr hnil)
      obtain rfl := Option.some.inj hnext
      refine ⟨⟨by simp, hvotes, hbelow, hlast _ rfl, fun _ => ⟨r, hmem, rfl, hpainted⟩, ?_⟩, hflipped⟩
      change s.crtc = _
      rw [h.crtc, if_neg hsome, if_neg (by simp)]
  · -- nothing has changed
    rename_i hsame
    rw [not_or, not_or, not_not] at hsame
    obtain ⟨hfirst, hstays, hkey⟩ := hsame
    have hsome : rounds ≠ [] := fun hnil => hfirst (h.first.mpr hnil)
    obtain rfl := Option.some.inj hnext
    obtain ⟨q, hq, hshown, hdisplayed⟩ := h.displayed hsome
    refine ⟨⟨?_, hvotes, hbelow, hlast _ hkey.symm, fun _ => ⟨q, List.mem_append_left _ hq, hshown, ?_⟩, ?_⟩,
      hflipped⟩
    · exact iff_of_false hfirst (by simp)
    · have hsteady : (s.turn r).2.flipped = s.orientation.flipped := by
        rw [hflipped, Bool.eq_false_iff.mpr hstays, Bool.xor_false]
      intro x hx y hy
      change Shows _ s.base x y (picture setup (s.turn r).2.flipped _ x y)
      rw [hsteady]
      exact hdisplayed x hx y hy
    · change s.crtc = _
      rw [h.crtc, if_neg hsome, if_neg (by simp)]

theorem current_run {base : Nat → UInt8} {rounds : List Round} {s : Screen setup}
    (h : Run (Enabled Screen.next) (Screen.start setup base) rounds s) (hlit : s.exited = false) :
    Current rounds s := by
  induction h with
  | nil =>
    refine ⟨iff_of_true rfl rfl, ?_, (by decide : (0 : Int) ≤ 2), nofun, fun hsome => absurd rfl hsome, rfl⟩
    change (0 : Int) = tally _ (seen setup [])
    unfold seen
    split <;> rfl
  | @snoc rounds t u r _ hstep ih =>
    have hbefore : t.exited = false := by
      by_contra hgone
      rw [Enabled, Screen.next, if_pos (Bool.not_eq_false _ ▸ hgone)] at hstep
      cases hstep
    exact (current_next (ih hbefore) hstep hlit).1

theorem next_orientation {s u : Screen setup} {r : Round} (h : s.next r = some u) :
    u.orientation = (s.turn r).2 := by
  rw [Screen.next] at h
  split at h
  · cases h
  dsimp only at h
  split at h
  · split at h
    · obtain rfl := Option.some.inj h
      unfold Screen.light
      split
      · rfl
      · split <;> rfl
    · obtain rfl := Option.some.inj h
      rfl
  · obtain rfl := Option.some.inj h
    rfl

theorem addr_plain {e : StatusEnv} (h : ∀ a ∈ e.address, 124 ∉ a) : 124 ∉ (statusRead e).addr := by
  change 124 ∉ (e.address.getD (cstr "NO WIFI YET")).take 63
  intro hmem
  have hin := List.mem_of_mem_take hmem
  cases haddress : e.address with
  | none =>
    rw [haddress] at hin
    exact absurd hin (by decide)
  | some a =>
    rw [haddress] at hin
    exact h a haddress hin

/-- After every round the screen shows the painting of a sample that differs from the last one in none of
what the key tells apart, turned round as the orientation is; the mode was set, dropped and set again once.
And a round turns the picture exactly when there is a sensor and this and the two rounds before, three in
a row, read more than half a g the other way. -/
theorem screen_current {base : Nat → UInt8} {rounds : List Round} {last : Round} {s : Screen setup}
    (hrun : Run (Enabled Screen.next) (Screen.start setup base) (rounds ++ [last]) s) (hlit : s.exited = false)
    (haddr : ∀ r ∈ rounds ++ [last], ∀ a ∈ r.status.address, 124 ∉ a) :
    (∃ r ∈ rounds ++ [last], SameShown (statusRead r.status) (statusRead last.status) ∧
      Displays s (statusRead r.status)) ∧
    s.crtc = [.set, .drop, .set] ∧
    ∀ r u, s.next r = some u →
      (u.orientation.flipped = !s.orientation.flipped ↔ (setup.sensor = true ∧ setup.forced = none) ∧
        3 ≤ (rounds ++ [last, r]).length ∧ ∀ q ∈ (r :: last :: rounds.reverse).take 3,
          ∃ yMg, q.reading = some yMg ∧ if s.orientation.flipped then yMg < -500 else 500 < yMg) := by
  have hcurrent := current_run hrun hlit
  have hsome : rounds ++ [last] ≠ [] := by simp
  obtain ⟨r, hr, hkey, hdisplayed⟩ := hcurrent.displayed hsome
  have hlast := hcurrent.latest last List.getLast?_concat
  have hsame : SameShown (statusRead r.status) (statusRead last.status) :=
    sameShown_of_key (statusRead_fits _) (statusRead_fits _) (addr_plain (haddr r hr))
      (addr_plain (haddr last (List.mem_append_right _ List.mem_cons_self))) (hkey.trans hlast.symm)
  refine ⟨⟨r, hr, hsame, hdisplayed⟩, hcurrent.crtc.trans (if_neg hsome), fun r u hnext => ?_⟩
  obtain ⟨hturns, _, _, hflipped⟩ := turn_counts hcurrent r
  have hagainst (q : Round) : against s.orientation.flipped (sampleOf q) = true ↔
      ∃ yMg, q.reading = some yMg ∧ if s.orientation.flipped then yMg < -500 else 500 < yMg := by
    rw [against_iff, sampleOf]
    cases hreading : q.reading with
    | none => cases s.orientation.flipped <;> simp
    | some yMg => simp
  have hreverse : (rounds ++ [last] ++ [r]).reverse = r :: last :: rounds.reverse := by simp
  have hlength : (r :: last :: rounds.reverse).length = (rounds ++ [last, r]).length := by simp
  rw [next_orientation hnext, hflipped, ← Bool.xor_true, Bool.xor_right_inj, hturns, le_tally, hreverse,
    List.length_map, hlength]
  refine and_congr_right fun _ => and_congr_right fun _ => ?_
  rw [← List.map_take, List.forall_mem_map]
  exact forall₂_congr fun q _ => hagainst q

end Rounds

/-- Two pixels; the left one is lit while there is a link. -/
def twoPixels : Setup where
  mode := ⟨2, 1, 8, by decide, by decide⟩
  draw st ground i := if st.haveWifi ∧ i.val = 0 then 0xFFFFF3D0 else ground i
  forced := none
  sensor := true

/-- Nothing is told of the supplies; the radio is in a network. -/
def linkedStatus : StatusEnv where
  address := some (cstr "192.168.1.7")
  wireless := some (cstr "wlan0: 0000  100.  -37.  -256.")
  files _ := none
  readMs := 0

/-- The tablet is held the other way up. -/
def heldTurned : List Round := List.replicate 3 ⟨some 966, linkedStatus, true, true⟩

theorem held_turned_shown : ∃ s : Screen twoPixels,
    (∃ r ∈ heldTurned, SameShown (statusRead r.status) (statusRead linkedStatus) ∧
      Displays s (statusRead r.status)) ∧ s.orientation.flipped = true := by
  have hends : (heldTurned.foldlM Screen.next (Screen.start twoPixels fun _ => 0)).map
      (fun s => (s.exited, s.orientation.flipped)) = some (false, true) := by decide +kernel
  obtain ⟨s, hs, hend⟩ := Option.map_eq_some_iff.mp hends
  obtain ⟨hlit, hflipped⟩ := Prod.mk.inj hend
  have hshown := @screen_current twoPixels (fun _ => 0) (heldTurned.take 2)
    ⟨some 966, linkedStatus, true, true⟩ s (run_foldlM Screen.next hs) hlit (by decide +kernel)
  exact ⟨s, hshown.1, hflipped⟩

end Taq102.App.Rescue
