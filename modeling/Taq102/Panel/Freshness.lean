import Taq102.Lib.DirtyBit
import Taq102.Panel.Capture

/-! Whatever changes what the panel paints sets its dirty flag. -/
namespace Taq102.Panel
open Taq102.Lib CFloat CDouble Marking
open Touch (TouchEvent TouchKind)

variable {F D : Type}

/-- What a full painting of the panel reads of its model. -/
structure Appearance where
  brightness : Int × Int
  auto : Int
  wifi : WifiState × List UInt8 × List UInt8 × Int
  armed : Int
  minutes : Int
  note : List UInt8
  footer : Int × List UInt8 × List UInt8 × List UInt8

def appearance (m : CcModel F) : Appearance where
  brightness := (m.brightness, m.brightnessMax)
  auto := m.autoOn
  wifi := (m.wifi, m.ssid, m.addr, m.levelDbm)
  armed := m.armed
  minutes := m.sleepMinutes
  note := m.note
  footer := (m.cap, m.battWord, m.build, m.kernel)

def panelMarking : Marking (CcModel F) Appearance where
  view := appearance
  dirty m := m.dirty ≠ 0

/-- From the first model to the second, nothing that is painted changed without a mark. -/
abbrev Marked (m m' : CcModel F) : Prop := panelMarking.Honest m m'

theorem marked_dirty {m m' : CcModel F} (h : m'.dirty = 1) : Marked m m' := by
  refine Honest.of_dirty ?_
  change m'.dirty ≠ 0
  rw [h]
  exact Int.one_ne_zero

theorem marked_same {m m' : CcModel F} (hdirty : m'.dirty = m.dirty) (happearance : appearance m' = appearance m) :
    Marked m m' :=
  Honest.of_same (fun h hclean => h (hdirty.symm.trans hclean)) happearance

theorem release_marked (m : CcModel F) : Marked m (release m) := marked_same rfl rfl

theorem disarm_marked (m : CcModel F) : Marked m (disarm m) := by
  rw [disarm]
  split
  · exact marked_dirty rfl
  · exact Honest.refl m

theorem brightness_marked (m : CcModel F) (now : Int) : Marked m (brightness m now).2 := by
  rw [brightness]
  split
  · exact Honest.refl m
  · exact marked_dirty rfl

theorem tapReboot_marked (m : CcModel F) (arm : Int) (action : CcAction) (now : Int) :
    Marked m (tapReboot m arm action now).2 := by
  rw [tapReboot]
  split
  · exact disarm_marked m
  · exact marked_dirty rfl

/-- And Auto is only switched with a mark. -/
def AutoMarked (next : List CcResult × CcModel F) : Prop :=
  (∃ a ∈ next.1, a.action = .setAuto) → next.2.dirty ≠ 0

theorem brightness_actions (m : CcModel F) (now : Int) :
    ∀ a ∈ (brightness m now).1, a.action = .setBrightness := by
  rw [brightness]
  split
  · exact nofun
  · intro a ha
    rw [List.mem_singleton.mp ha]

theorem tapReboot_auto {m : CcModel F} {action : CcAction} (hplain : action ≠ .setAuto) (arm now : Int) :
    AutoMarked (tapReboot m arm action now) := by
  rintro ⟨a, ha, hauto⟩
  rw [tapReboot] at ha
  split at ha
  · rw [List.mem_singleton.mp ha] at hauto
    exact absurd hauto hplain
  · cases ha

variable [CFloat F]

theorem slideTick_marked (m : CcModel F) (now : Int) : Marked m (slideTick m now) := marked_same rfl rfl

theorem ccOpen_marked (m : CcModel F) (now : Int) : Marked m (ccOpen m now) := by
  rw [ccOpen]
  split
  · exact Honest.refl m
  · exact marked_same rfl rfl

theorem ccClose_marked (m : CcModel F) (now : Int) : Marked m (ccClose m now) := by
  have hreleased : Marked m (release (disarm m)) := (disarm_marked m).trans (release_marked _)
  unfold ccClose
  dsimp only
  split
  · exact hreleased
  · exact hreleased.trans (marked_same rfl rfl)

theorem ccTick_marked (m : CcModel F) (now : Int) : Marked m (ccTick m now) := by
  unfold ccTick
  dsimp only
  split
  · exact (slideTick_marked m now).trans (disarm_marked _)
  · exact slideTick_marked m now

theorem tapTile_marked (m : CcModel F) (tile : Capture) (now : Int) : Marked m (tapTile m tile now).2 := by
  cases tile with
  | auto => exact marked_dirty rfl
  | timer i => exact marked_dirty rfl
  | wifi => exact marked_dirty rfl
  | off => exact ccClose_marked m now
  | rescue => exact tapReboot_marked m 1 .rebootRescue now
  | loader => exact tapReboot_marked m 2 .rebootLoader now
  | none => exact Honest.refl m
  | handle => exact Honest.refl m
  | bright => exact Honest.refl m
  | outside => exact Honest.refl m

theorem handleUp_marked (m : CcModel F) (e : TouchEvent F D) (now : Int) :
    Marked m (handleUp m e now).2 := by
  unfold handleUp
  dsimp only
  split
  · exact (release_marked m).trans (ccClose_marked _ now)
  · split
    · exact release_marked m
    · exact (release_marked m).trans (tapTile_marked _ _ now)

theorem tapTile_auto (m : CcModel F) (tile : Capture) (now : Int) : AutoMarked (tapTile m tile now) := by
  cases tile with
  | auto => exact fun _ => Int.one_ne_zero
  | timer i => exact fun _ => Int.one_ne_zero
  | wifi => exact fun _ => Int.one_ne_zero
  | off =>
    rintro ⟨a, ha, hauto⟩
    rw [List.mem_singleton.mp ha] at hauto
    cases hauto
  | rescue => exact tapReboot_auto (by decide) 1 now
  | loader => exact tapReboot_auto (by decide) 2 now
  | none => exact fun ⟨_, ha, _⟩ => nomatch ha
  | handle => exact fun ⟨_, ha, _⟩ => nomatch ha
  | bright => exact fun ⟨_, ha, _⟩ => nomatch ha
  | outside => exact fun ⟨_, ha, _⟩ => nomatch ha

theorem handleUp_auto (m : CcModel F) (e : TouchEvent F D) (now : Int) : AutoMarked (handleUp m e now) := by
  unfold handleUp
  dsimp only
  split
  · exact fun ⟨_, ha, _⟩ => nomatch ha
  · split
    · exact fun ⟨_, ha, _⟩ => nomatch ha
    · exact tapTile_auto _ _ now

variable [CFloat D] [CDouble F D]

omit [CFloat F] in
theorem handleDrag_marked (m : CcModel F) (e : TouchEvent F D) (now : Int) :
    Marked m (handleDrag m e now).2 := by
  have hset (due : Prop) [Decidable due] :
      Marked m (if due then brightness { m with pendingBrightness := level m e.y } now
        else ([], { m with pendingBrightness := level m e.y })).2 := by
    have hstart : Marked m { m with pendingBrightness := level m e.y } := marked_same rfl rfl
    split
    · exact hstart.trans (brightness_marked _ now)
    · exact hstart
  unfold handleDrag
  dsimp only
  split
  · exact (hset _).trans (release_marked _)
  · exact hset _

theorem handleDown_marked (m : CcModel F) (e : TouchEvent F D) (now : Int) :
    Marked m (handleDown m e now).2 ∧ AutoMarked (handleDown m e now) := by
  have hset (p : CcModel F) (hp : Marked m p) :
      Marked m { (brightness p now).2 with lastDragPaintMs := now } :=
    (hp.trans (brightness_marked p now)).trans (marked_same rfl rfl)
  have hplain (p : CcModel F) (actions : List CcResult)
      (hactions : ∀ a ∈ actions, a.action = .setAuto → p.dirty ≠ 0) :
      AutoMarked (actions ++ (brightness p now).1, { (brightness p now).2 with lastDragPaintMs := now }) := by
    rintro ⟨a, ha, hauto⟩
    rcases List.mem_append.mp ha with hfirst | hlast
    · exact (brightness_marked p now).stays (hactions a hfirst hauto)
    · exact nomatch hauto.symm.trans (brightness_actions p now a hlast)
  unfold handleDown
  dsimp only
  split
  · exact ⟨marked_same rfl rfl, fun ⟨_, ha, _⟩ => nomatch ha⟩
  · split
    · exact ⟨hset _ (marked_dirty rfl), hplain _ _ fun _ _ _ => Int.one_ne_zero⟩
    · exact ⟨hset _ (marked_same rfl rfl), hplain _ _ fun _ ha => nomatch ha⟩

omit [CFloat F] in
theorem handleDrag_auto (m : CcModel F) (e : TouchEvent F D) (now : Int) :
    AutoMarked (handleDrag m e now) := by
  have hset (due : Prop) [Decidable due] : ∀ a ∈ (if due then brightness { m with
      pendingBrightness := level m e.y } now else ([], { m with pendingBrightness := level m e.y })).1,
      a.action = .setBrightness := by
    split
    · exact brightness_actions _ now
    · exact nofun
  rintro ⟨a, ha, hauto⟩
  unfold handleDrag at ha
  dsimp only at ha
  split at ha
  · rcases List.mem_append.mp ha with hfirst | hlast
    · exact nomatch hauto.symm.trans (hset _ a hfirst)
    · rw [List.mem_singleton.mp hlast] at hauto
      cases hauto
  · exact nomatch hauto.symm.trans (hset _ a ha)

theorem handle_marked (m : CcModel F) (e : TouchEvent F D) (now : Int) :
    Marked m (handle m e now).2 ∧ AutoMarked (handle m e now) := by
  have hquiet {m' : CcModel F} (h : Marked m m') :
      Marked m m' ∧ AutoMarked (([], m') : List CcResult × CcModel F) := ⟨h, fun ⟨_, ha, _⟩ => nomatch ha⟩
  refine handle_cases (P := fun next => Marked m next.2 ∧ AutoMarked next) m e now ?_ ?_ ?_ ?_ ?_ ?_ ?_ ?_ ?_
  · exact fun _ => hquiet (Honest.refl m)
  · exact fun _ _ _ => hquiet (Honest.refl m)
  · exact fun _ _ _ => handleDown_marked m e now
  · exact fun _ _ _ => hquiet (Honest.refl m)
  · exact fun _ _ _ => hquiet (release_marked m)
  · exact fun _ _ _ _ => ⟨handleDrag_marked m e now, handleDrag_auto m e now⟩
  · exact fun _ _ _ _ => hquiet (ccClose_marked m now)
  · exact fun _ _ _ => hquiet (Honest.refl m)
  · exact fun _ _ _ _ => ⟨handleUp_marked m e now, handleUp_auto m e now⟩

/-- The actions of an answer; none when the output did not hold them. -/
def handledActions (answer : Except Nat (List CcResult)) : List CcResult :=
  match answer with
  | .ok actions => actions
  | .error _ => []

theorem ccHandleEvent_marked (m : CcModel F) (e : TouchEvent F D) (now : Int) (out : Bool) (max : Int) :
    Marked m (ccHandleEvent m e now out max).2 ∧
      AutoMarked (handledActions (ccHandleEvent m e now out max).1, (ccHandleEvent m e now out max).2) := by
  unfold ccHandleEvent
  dsimp only
  split
  · exact ⟨Honest.refl m, fun ⟨_, ha, _⟩ => nomatch ha⟩
  · exact handle_marked m e now

end Taq102.Panel

namespace Taq102.Panel.Capturing
open Taq102.Lib CFloat

theorem controlInputReset_marked {F D : Type} [CFloat F] [CFloat D] [CDouble F D] (m : CcModel F) :
    Marked m (controlInputReset (D := D) m) :=
  marked_dirty rfl

end Taq102.Panel.Capturing
