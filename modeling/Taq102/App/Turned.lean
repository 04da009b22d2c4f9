import Taq102.App.Ghosts
import Taq102.Touch.Mapping

/-! The picture and the touches turn together: in every run, what a finger is on is what is drawn under
it. -/
namespace Taq102.App
open Taq102.Lib CFloat Transition
open Touch Touch.Evdev Touch.Reading Touch.Mapping Taq102.Runtime Panel

/-! Where a quad is drawn. -/

/-- A point of the screen with the texture's coordinates there. -/
structure Vertex (F : Type) where
  x : F
  y : F
  u : F
  v : F

/-- Three points at a time. -/
def triangles {F : Type} : List (Vertex F) → List (Vertex F × Vertex F × Vertex F)
  | a :: b :: c :: rest => (a, b, c) :: triangles rest
  | _ => []

section Quads
variable {F : Type} [CFloat F]

/-- The two triangles of a rectangle. -/
def rectangle (l r t b : F) : List (Vertex F) :=
  [⟨l, t, lit 0, lit 0⟩, ⟨r, t, lit 1, lit 0⟩, ⟨l, b, lit 0, lit 1⟩, ⟨r, t, lit 1, lit 0⟩, ⟨r, b, lit 1, lit 1⟩,
    ⟨l, b, lit 0, lit 1⟩]

/-- `quad`. -/
def quadVertices [CMath F] (screen : ScreenSize) (q : Quad F) : List (Vertex F) :=
  let l := lit 2 * q.x / ofInt screen.w - lit 1
  let r := lit 2 * (q.x + ofInt q.w) / ofInt screen.w - lit 1
  let t := lit 1 - lit 2 * q.y / ofInt screen.h
  let b := lit 1 - lit 2 * (q.y + ofInt q.h) / ofInt screen.h
  if q.flipped then (rectangle l r t b).map fun p => { p with x := CMath.neg p.x, y := CMath.neg p.y }
  else rectangle l r t b

end Quads

/-- The point lies in the triangle, and its texture's coordinates are those of the triangle there. -/
def Within (corners : Vertex ℚ × Vertex ℚ × Vertex ℚ) (p : Vertex ℚ) : Prop :=
  let (a, b, c) := corners
  ∃ α β γ : ℚ, 0 ≤ α ∧ 0 ≤ β ∧ 0 ≤ γ ∧ α + β + γ = 1 ∧ p.x = α * a.x + β * b.x + γ * c.x ∧
    p.y = α * a.y + β * b.y + γ * c.y ∧ p.u = α * a.u + β * b.u + γ * c.u ∧
    p.v = α * a.v + β * b.v + γ * c.v

/-- A point of the texture is drawn at a point of the screen. -/
def Drawn (vertices : List (Vertex ℚ)) (p : Vertex ℚ) : Prop :=
  ∃ corners ∈ triangles vertices, Within corners p

theorem rectangle_drawn {l r t b : ℚ} {p : Vertex ℚ} : Drawn (rectangle l r t b) p ↔
    (0 ≤ p.u ∧ p.u ≤ 1) ∧ (0 ≤ p.v ∧ p.v ≤ 1) ∧ p.x = l + p.u * (r - l) ∧ p.y = t + p.v * (b - t) := by
  have htriangles : triangles (rectangle l r t b) =
      [(⟨l, t, 0, 0⟩, ⟨r, t, 1, 0⟩, ⟨l, b, 0, 1⟩), (⟨r, t, 1, 0⟩, ⟨r, b, 1, 1⟩, ⟨l, b, 0, 1⟩)] := rfl
  unfold Drawn
  rw [htriangles]
  constructor
  · rintro ⟨corners, hcorners, α, β, γ, hα, hβ, hγ, hsum, hx, hy, hu, hv⟩
    rcases List.mem_cons.mp hcorners with rfl | hsecond
    · dsimp only at hx hy hu hv
      refine ⟨⟨by linarith, by linarith⟩, ⟨by linarith, by linarith⟩, ?_, ?_⟩
      · rw [hx, hu]
        linear_combination l * hsum
      · rw [hy, hv]
        linear_combination t * hsum
    · obtain rfl := List.mem_singleton.mp hsecond
      dsimp only at hx hy hu hv
      refine ⟨⟨by linarith, by linarith⟩, ⟨by linarith, by linarith⟩, ?_, ?_⟩
      · rw [hx, hu]
        linear_combination l * hsum
      · rw [hy, hv]
        linear_combination t * hsum
  · rintro ⟨⟨hu₀, hu₁⟩, ⟨hv₀, hv₁⟩, hx, hy⟩
    -- the first triangle is the half above the diagonal
    rcases le_total (p.u + p.v) 1 with hfirst | hsecond
    · refine ⟨_, List.mem_cons_self, 1 - p.u - p.v, p.u, p.v, by linarith, hu₀, hv₀, by ring, ?_, ?_, ?_, ?_⟩
      · rw [hx]; ring
      · rw [hy]; ring
      · ring
      · ring
    · refine ⟨_, List.mem_cons_of_mem _ List.mem_cons_self, 1 - p.v, p.u + p.v - 1, 1 - p.u, by linarith,
        by linarith, by linarith, by ring, ?_, ?_, ?_, ?_⟩
      · rw [hx]; ring
      · rw [hy]; ring
      · ring
      · ring

/-- Where a pixel of the unturned picture is on the screen. -/
def screenX (screen : ScreenSize) (x : ℚ) : ℚ := 2 * x / screen.w - 1

def screenY (screen : ScreenSize) (y : ℚ) : ℚ := 1 - 2 * y / screen.h

/-- A turned quad is drawn where the pixels opposite its own are. -/
theorem quad_drawn [CMath ℚ] (hneg : ∀ x : ℚ, CMath.neg x = -x) {screen : ScreenSize} {q : Quad ℚ}
    {x y u v : ℚ} (hw : 0 < screen.w) (hh : 0 < screen.h) :
    Drawn (quadVertices screen q) ⟨screenX screen x, screenY screen y, u, v⟩ ↔
      (0 ≤ u ∧ u ≤ 1) ∧ (0 ≤ v ∧ v ≤ 1) ∧ (if q.flipped then screen.w - x else x) = q.x + u * q.w ∧
        (if q.flipped then screen.h - y else y) = q.y + v * q.h := by
  have hw' : (screen.w : ℚ) ≠ 0 := by exact_mod_cast hw.ne'
  have hh' : (screen.h : ℚ) ≠ 0 := by exact_mod_cast hh.ne'
  have hvertices : quadVertices screen q =
      if q.flipped then
        rectangle (-(2 * q.x / screen.w - 1)) (-(2 * (q.x + q.w) / screen.w - 1)) (-(1 - 2 * q.y / screen.h))
          (-(1 - 2 * (q.y + q.h) / screen.h))
      else
        rectangle (2 * q.x / screen.w - 1) (2 * (q.x + q.w) / screen.w - 1) (1 - 2 * q.y / screen.h)
          (1 - 2 * (q.y + q.h) / screen.h) := by
    unfold quadVertices
    simp only [hneg]
    rfl
  rw [hvertices]
  cases q.flipped with
  | false =>
    rw [if_neg Bool.false_ne_true, if_neg Bool.false_ne_true, if_neg Bool.false_ne_true, rectangle_drawn]
    refine and_congr_right' (and_congr_right' (and_congr ?_ ?_))
    · dsimp only
      unfold screenX
      rw [show 2 * q.x / (screen.w : ℚ) - 1 + u * (2 * (q.x + q.w) / screen.w - 1 - (2 * q.x / screen.w - 1)) =
        2 * (q.x + u * q.w) / screen.w - 1 by ring, sub_left_inj, div_left_inj' hw',
        mul_right_inj' two_ne_zero]
    · dsimp only
      unfold screenY
      rw [show 1 - 2 * q.y / (screen.h : ℚ) + v * (1 - 2 * (q.y + q.h) / screen.h - (1 - 2 * q.y / screen.h)) =
        1 - 2 * (q.y + v * q.h) / screen.h by ring, sub_right_inj, div_left_inj' hh',
        mul_right_inj' two_ne_zero]
  | true =>
    rw [if_pos rfl, if_pos rfl, if_pos rfl, rectangle_drawn]
    refine and_congr_right' (and_congr_right' (and_congr ?_ ?_))
    · dsimp only
      unfold screenX
      constructor
      · intro h
        field_simp at h
        linarith
      · intro h
        field_simp
        linarith
    · dsimp only
      unfold screenY
      constructor
      · intro h
        field_simp at h
        linarith
      · intro h
        field_simp
        linarith

/-! The decoder's flag. -/

section Console
variable {F D : Type} [CFloat F] [CFloat D] [CDouble F D] {word : Nat}

theorem readFd_mapping {d d' : Descriptor F D} {clock : Option Int} {answers : List (Action D)}
    {result : Except Int (List (TouchEvent F D))} (hread : readFd word d clock answers = some (result, d')) :
    mapping d'.reader.input = mapping d.reader.input := by
  obtain ⟨⟨entered, hcall, hrest⟩, _⟩ := readFd_progress hread
  exact (run_mapping hrest).trans (next_mapping hcall)

theorem read_mapping {c c' : Console F D} {call : ReadCall D} (hthrough : ReadThrough word c call c') :
    mapping c'.input.decoder.reader.input = mapping c.input.decoder.reader.input := by
  obtain ⟨first, d, n, k, hfetched, _, hdecoder⟩ := hthrough.through
  have hread : mapping d.reader.input = mapping c.input.decoder.reader.input := by
    unfold fetched at hfetched
    split at hfetched
    · exact readFd_mapping hfetched
    · cases hfetched
      rfl
  rw [hdecoder]
  exact (expire_mapping _ call.now _).trans hread

theorem reset_mapping (c : Console F D) (flipped : Bool) :
    mapping (controlInputReset c flipped).input.decoder.reader.input =
      (c.input.decoder.reader.input.flip, flipped) := by
  rw [← setFlipped_mapping c.input.decoder.reader.input flipped]
  unfold controlInputReset
  dsimp only
  generalize touchInputSetFlipped c.input.decoder.reader.input flipped = ti
  obtain ⟨d, hd⟩ : ∃ d, d = handOut { c.input.decoder with reader := { c.input.decoder.reader with input := ti } }
      (touchInputCancelAll ti true portion) := ⟨_, rfl⟩
  obtain ⟨n, hflushed, _⟩ := flushReady_drawn d.reader.input.ready.length d le_rfl
  rw [← hd, hflushed, hd]
  exact cancelAll_mapping ti true portion

/-- The decoder takes the touches for those of a picture so turned. -/
structure Facing (flip : TouchFlip F) (flipped : Bool) (c : Console F D) : Prop where
  faces : mapping c.input.decoder.reader.input = (flip, flipped)
  settled : Settled c

theorem facing_invariant (setup : Setup) (flip : TouchFlip F) :
    Invariant (F := F) (D := D) setup anyReads (fun f _ => Facing flip f) (fun f _ => Facing flip f) where
  key _ _ _ h := ⟨h.faces, h.settled.pending, h.settled.error, h.settled.working⟩
  read _ _ _ _ _ h _ hread := by
    have hthrough := controlInputRead_through h.settled hread
    exact ⟨(read_mapping hthrough).trans h.faces, hthrough.settled h.settled⟩
  tick _ _ _ _ _ h := ⟨h.faces, h.settled.pending, h.settled.error, h.settled.working⟩
  sleep f _ c now save h := by
    refine ⟨(reset_mapping _ f).trans ?_, rfl, rfl, h.settled.working⟩
    rw [show (withRuntime c (.sleep now save)).input.decoder.reader.input.flip = flip from
      congrArg Prod.fst h.faces]
  discard _ _ _ _ _ _ _ h _ hread :=
    ⟨(readFd_mapping hread).trans h.faces, h.settled.pending, h.settled.error, h.settled.working⟩
  darkTick _ _ _ _ _ h := ⟨h.faces, h.settled.pending, h.settled.error, h.settled.working⟩
  wake f _ c now h := by
    refine ⟨(reset_mapping c f).trans ?_, rfl, rfl, h.settled.working⟩
    rw [show c.input.decoder.reader.input.flip = flip from congrArg Prod.fst h.faces]
  turn _ _ c f' h := by
    refine ⟨(reset_mapping c f').trans ?_, rfl, rfl, h.settled.working⟩
    rw [show c.input.decoder.reader.input.flip = flip from congrArg Prod.fst h.faces]
  draw _ _ _ _ _ _ h _ := ⟨h.faces, h.settled.pending, h.settled.error, h.settled.working⟩
  light _ _ _ _ _ h := ⟨h.faces, h.settled.pending, h.settled.error, h.settled.working⟩

end Console

/-! The quads' flag. -/

section Quads
variable {F D : Type} [CFloat F] [CFloat D] [CDouble F D] {setup : Setup} {s t : Loop F D}

/-- The quads of the last frame are turned as the picture is. -/
def Upright (s : Loop F D) : Prop := ∀ q ∈ s.quads, q.flipped = s.orientation.flipped

omit [CFloat F] [CFloat D] [CDouble F D] in
theorem Upright.of_same (h : Upright s) (hquads : t.quads = s.quads)
    (horientation : t.orientation = s.orientation) : Upright t := by
  unfold Upright
  rw [hquads, horientation]
  exact h

theorem topStep_upright {e : TopEnv D} (hstep : topStep setup s e = some t) (h : Upright s) : Upright t := by
  obtain ⟨read, _, hread⟩ := Option.bind_eq_some_iff.mp hstep
  obtain ⟨⟨ok, c⟩, _, rfl⟩ := Option.map_eq_some_iff.mp hread
  dsimp only
  split
  · unfold afterRead
    dsimp only
    split
    · unfold fallAsleep
      dsimp only
      split <;> exact h.of_same rfl rfl
    · exact h.of_same rfl rfl
  · exact h.of_same rfl rfl

theorem darkStep_upright {e : DarkEnv D} (hstep : darkStep setup s e = some t) (h : Upright s) : Upright t := by
  have hsense (u : Loop F D) : (senseMotion setup u).2.quads = u.quads := by
    unfold senseMotion
    split
    · rfl
    · split <;> rfl
  unfold darkStep at hstep
  split at hstep
  · cases hstep
    exact h.of_same rfl rfl
  · obtain ⟨read, _, hread⟩ := Option.bind_eq_some_iff.mp hstep
    obtain ⟨⟨ok, d⟩, _, rfl⟩ := Option.map_eq_some_iff.mp hread
    dsimp only
    split
    · unfold afterPoll
      dsimp only
      obtain ⟨_, _, horientation, _⟩ := senseMotion_keeps setup
        { s with
          key := read.2
          nowMs := e.clock.ms
          console := withRuntime (withDecoder s.console d) (.tick e.clock.ms true e.tick) }
      have hquads := hsense
        { s with
          key := read.2
          nowMs := e.clock.ms
          console := withRuntime (withDecoder s.console d) (.tick e.clock.ms true e.tick) }
      split <;> exact h.of_same hquads horientation
    · exact h.of_same rfl rfl

omit [CDouble F D] in
theorem drawOverlay_upright (setup : Setup) (s : Loop F D) : Upright (drawOverlay setup s) :=
  fun _ hq => controlOverlayDraw_flipped (D := D) hq

variable [CMath F] [CAngle F]

theorem restStep_upright (setup : Setup) (s : Loop F D) (e : RestEnv) : Upright (restStep setup s e) := by
  have hdrawn := drawOverlay_upright setup (gestures setup (orient setup s))
  have hpresent {u v : Loop F D} {buffer : Nat} (h : present u buffer e = some v) :
      v.quads = u.quads ∧ v.orientation = u.orientation := by
    unfold present at h
    split at h
    · split at h
      · dsimp only at h
        split at h <;>
        · cases h
          exact ⟨rfl, rfl⟩
      · cases h
    · cases h
      exact ⟨rfl, rfl⟩
  unfold restStep
  dsimp only
  generalize drawOverlay setup (gestures setup (orient setup s)) = u at *
  split
  · exact hdrawn.of_same rfl rfl
  · split
    · exact hdrawn.of_same rfl rfl
    · split
      · exact hdrawn.of_same rfl rfl
      · rename_i hpresents
        obtain ⟨hquads, horientation⟩ := hpresent hpresents
        exact hdrawn.of_same hquads horientation

theorem next_upright {op : LoopOp D} (hnext : s.next setup op = some t) (h : Upright s) : Upright t := by
  cases op with
  | top e => exact topStep_upright (Option.ite_none_right_eq_some.mp hnext).2 h
  | dark e => exact darkStep_upright (Option.ite_none_right_eq_some.mp hnext).2 h
  | rest e =>
    obtain ⟨_, hstep⟩ := Option.ite_none_right_eq_some.mp hnext
    cases hstep
    exact restStep_upright setup s e
  | accel sample =>
    obtain ⟨_, hstep⟩ := Option.ite_none_right_eq_some.mp hnext
    cases hstep
    exact h

end Quads

section Touched
variable [CMath ℚ] [CAngle ℚ]

/-- In every run, and however the picture turns, the point of a quad that is drawn under a finger is the
one that the decoder takes the finger to be at. -/
theorem touch_where_drawn {setup : Setup} {e : InitEnv} {flip : TouchFlip ℚ} {stream : List UInt8}
    {tex : Overlay.Texture} {now : Int} {s t : Loop ℚ ℚ} {labels : List (LoopOp ℚ)}
    (hinit : Loop.init setup e flip stream tex now = some s) (hrun : Run (Enabled (Loop.next setup)) s labels t)
    (hplace : t.place ≠ .exited) (hw : 0 < setup.screen.w) (hh : 0 < setup.screen.h)
    (hwidth : flip.width = setup.screen.w) (hheight : flip.height = setup.screen.h)
    (hboth : flip.flipX = true ∧ flip.flipY = true) (hneg : ∀ x : ℚ, CMath.neg x = -x) {q : Quad ℚ} (hq : q ∈ t.quads)
    (rawX rawY : Int) (u v : ℚ) :
    Drawn (quadVertices setup.screen q)
        ⟨screenX setup.screen (touchFlipValue flip .x rawX false),
          screenY setup.screen (touchFlipValue flip .y rawY false), u, v⟩ ↔
      (0 ≤ u ∧ u ≤ 1) ∧ (0 ≤ v ∧ v ≤ 1) ∧
        (touchFlipValue flip .x rawX t.console.input.decoder.reader.input.flipped : ℚ) = q.x + u * q.w ∧
        (touchFlipValue flip .y rawY t.console.input.decoder.reader.input.flipped : ℚ) = q.y + v * q.h := by
  obtain ⟨w, _, hstarts⟩ := Option.bind_eq_some_iff.mp hinit
  obtain ⟨input, hinput, rfl⟩ := Option.map_eq_some_iff.mp hstarts
  have hsettled := init_settled hinput w
  have hstart : Facing flip false ({ input, world := w } : Console ℚ ℚ) := by
    refine ⟨?_, hsettled⟩
    obtain ⟨r, _, rfl⟩ := Option.map_eq_some_iff.mp hinput
    rfl
  have hfacing : Facing flip t.orientation.flipped t.console := by
    have hsatisfies := (facing_invariant setup flip).run_always
      (s := Loop.start setup { input, world := w } tex now) hstart hrun
    unfold Loop.Satisfies at hsatisfies
    split at hsatisfies
    · rename_i hexited
      exact absurd hexited hplace
    · exact hsatisfies
    · exact hsatisfies
  have hupright : Upright t := hrun.invariant Upright nofun fun _ _ _ hu hnext => next_upright hnext hu
  have hflag : t.console.input.decoder.reader.input.flipped = t.orientation.flipped :=
    congrArg Prod.snd hfacing.faces
  rw [quad_drawn hneg hw hh, hflag, ← hupright q hq]
  obtain ⟨hflipX, hflipY⟩ := hboth
  have hx : (if q.flipped then (setup.screen.w : ℚ) - touchFlipValue flip .x rawX false
      else (touchFlipValue flip .x rawX false : ℚ)) = touchFlipValue flip .x rawX q.flipped := by
    rw [← hwidth]
    unfold touchFlipValue
    cases q.flipped <;> simp [hflipX]
  have hy : (if q.flipped then (setup.screen.h : ℚ) - touchFlipValue flip .y rawY false
      else (touchFlipValue flip .y rawY false : ℚ)) = touchFlipValue flip .y rawY q.flipped := by
    rw [← hheight]
    unfold touchFlipValue
    cases q.flipped <;> simp [hflipY]
  rw [hx, hy]

end Touched

section Turning
attribute [local instance] roughMath roughAngle

/-- A tablet that is held the other way up. -/
def turnedReading : LoopOp ℚ := .accel { xMg := 0, yMg := 980, zMg := 100, atMs := 1000 }

/-- The third of the readings that are looked at turns the picture. -/
def turnRound : List (LoopOp ℚ) :=
  [turnedReading, nightTop 1 [] (reading 0), nightRest 1 1, nightTop 2 [] (reading 0), nightRest 2 2,
    turnedReading, nightTop 3 [] (reading 0), nightRest 1 3, turnedReading, nightTop 4 [] (reading 0),
    nightRest 2 4]

def turnSetup : Setup := { nightSetup true with hasAccel := true, staticScene := false }

theorem turned_touch : ∃ (s t : Loop ℚ ℚ) (q : Quad ℚ), nightStart turnSetup [] = some s ∧
    t.console.input.decoder.reader.input.flipped = true ∧ q ∈ t.quads ∧
    (Drawn (quadVertices turnSetup.screen q)
        ⟨screenX turnSetup.screen (touchFlipValue ContactStream.plainFlip .x 512 false),
          screenY turnSetup.screen (touchFlipValue ContactStream.plainFlip .y 590 false), 1 / 2, 5 / 24⟩ ↔
      ((0 : ℚ) ≤ 1 / 2 ∧ (1 / 2 : ℚ) ≤ 1) ∧ ((0 : ℚ) ≤ 5 / 24 ∧ (5 / 24 : ℚ) ≤ 1) ∧
        (touchFlipValue ContactStream.plainFlip .x 512 t.console.input.decoder.reader.input.flipped : ℚ) =
          q.x + 1 / 2 * q.w ∧
        (touchFlipValue ContactStream.plainFlip .y 590 t.console.input.decoder.reader.input.flipped : ℚ) =
          q.y + 5 / 24 * q.h) := by
  have hturning : ((nightStart turnSetup []).bind fun s =>
      (turnRound.foldlM (Loop.next turnSetup) s).map
        fun t => (t.place, t.console.input.decoder.reader.input.flipped, t.quads.length)) =
      some (.top, true, 1) := by
    decide +kernel
  obtain ⟨s, hstart, hruns⟩ := Option.bind_eq_some_iff.mp hturning
  obtain ⟨t, ht, hends⟩ := Option.map_eq_some_iff.mp hruns
  simp only [Prod.mk.injEq] at hends
  obtain ⟨hplace, hflipped, hquads⟩ := hends
  obtain ⟨q, hq⟩ := List.length_eq_one_iff.mp hquads
  refine ⟨s, t, q, hstart, hflipped, hq ▸ List.mem_singleton_self q, ?_⟩
  exact touch_where_drawn hstart (run_foldlM _ ht) (by rw [hplace]; decide) (by decide) (by decide) rfl rfl
    ⟨rfl, rfl⟩ (fun _ => rfl) (hq ▸ List.mem_singleton_self q) 512 590 (1 / 2) (5 / 24)

end Turning

end Taq102.App
