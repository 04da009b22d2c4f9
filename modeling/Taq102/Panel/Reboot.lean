import Taq102.Lib.Transition
import Taq102.Panel.Model

/-! A reboot is asked for by two taps on one tile while the panel stays open, as long as no
contact on a reboot tile begins while the panel is sliding shut. -/
namespace Taq102.Panel.Reboot
open Taq102.Lib CFloat Transition
open Touch (TouchEvent TouchKind)
variable {F D : Type}

inductive RebootTile where
  | rescue
  | loader
  deriving DecidableEq, Repr

def RebootTile.rect : RebootTile → CcRect
  | .rescue => ccRescue
  | .loader => ccLoader

def RebootTile.capture : RebootTile → Capture
  | .rescue => .rescue
  | .loader => .loader

def RebootTile.action : RebootTile → CcAction
  | .rescue => .rebootRescue
  | .loader => .rebootLoader

def RebootTile.arm : RebootTile → Int
  | .rescue => 1
  | .loader => 2

theorem arm_injective {tile tile' : RebootTile} (h : tile.arm = tile'.arm) : tile = tile' := by
  cases tile <;> cases tile' <;> simp_all [RebootTile.arm]

/-- What arming depends on. -/
structure Controls where
  «open» : Int
  armed : Int
  armedAtMs : Int
  captureSlot : Int
  captureTile : Capture
  captureAtMs : Int

def controls (m : CcModel F) : Controls :=
  { «open» := m.open, armed := m.armed, armedAtMs := m.armedAtMs, captureSlot := m.captureSlot,
    captureTile := m.captureTile, captureAtMs := m.captureAtMs }

/-- The captured contact is on a reboot tile. -/
def Controls.On (k : Controls) (tile : RebootTile) : Prop :=
  0 ≤ k.captureSlot ∧ k.captureTile = tile.capture

def Controls.released (k : Controls) : Controls := { k with captureSlot := -1, captureTile := .none }

def Controls.disarmed (k : Controls) : Controls := { k with armed := 0 }

theorem controls_disarm (m : CcModel F) : controls (disarm m) = (controls m).disarmed := by
  unfold disarm
  split
  · rfl
  · rename_i h
    have h0 : m.armed = 0 := by omega
    simp [controls, Controls.disarmed, h0]

theorem controls_brightness (m : CcModel F) (now : Int) : controls (brightness m now).2 = controls m := by
  unfold brightness
  split <;> rfl

/-- A change of the slider never asks for a reboot. -/
theorem brightness_action {m : CcModel F} {now : Int} {a : CcResult} (h : a ∈ (brightness m now).1) :
    a.action = .setBrightness := by
  unfold brightness at h
  split at h
  · cases h
  · obtain rfl := List.mem_singleton.mp h
    rfl

section Drag
variable [CFloat D] [CDouble F D]

theorem handleDrag_controls (m : CcModel F) (e : TouchEvent F D) (now : Int) :
    controls (handleDrag m e now).2 = if e.kind = .up then (controls m).released else controls m := by
  unfold handleDrag
  by_cases hk : e.kind = .up
  · simp only [hk, true_or, if_true]
    change (controls (brightness _ now).2).released = _
    rw [controls_brightness]
    rfl
  · simp only [hk, false_or, if_false]
    split
    · rw [controls_brightness]
      rfl
    · rfl

theorem handleDrag_action {m : CcModel F} {e : TouchEvent F D} {now : Int} {a : CcResult}
    (h : a ∈ (handleDrag m e now).1) : a.action = .setBrightness ∨ a.action = .saveSettings := by
  unfold handleDrag at h
  simp only at h
  split at h
  · rcases List.mem_append.mp h with h | h
    · exact .inl (brightness_action (by simpa [*] using h))
    · obtain rfl := List.mem_singleton.mp h
      exact .inr rfl
  · split at h
    · exact .inl (brightness_action h)
    · cases h

end Drag

/-- The panel is open before every call and none of them closes it. -/
def StaysOpen (calls : List (Record F D)) : Prop :=
  ∀ r ∈ calls, r.before.open = 1 ∧ ∀ now, r.op ≠ .close now

theorem StaysOpen.concat {calls : List (Record F D)} {r : Record F D} (h : StaysOpen calls) (hr : r.before.open = 1)
    (hclose : ∀ now, r.op ≠ .close now) : StaysOpen (calls ++ [r]) := by
  intro a ha
  rcases List.mem_append.mp ha with ha | ha
  · exact h a ha
  · obtain rfl := List.mem_singleton.mp ha
    exact ⟨hr, hclose⟩

variable [CFloat F]

/-- The call took the end of a contact on the slot. -/
def Lifts (slot : Int) (r : Record F D) : Prop :=
  ∃ e t, r.taken = some (e, t) ∧ e.slot = slot ∧ (e.kind = .up ∨ e.kind = .cancel) ∧
    isFinite e.x = true ∧ isFinite e.y = true

/-- A complete tap inside the tile: DOWN and UP of one contact, at most 400 ms apart. -/
def Tap (tile : CcRect) (down : Record F D) (between : List (Record F D)) (up : Record F D) : Prop :=
  ∃ e t e' t', down.taken = some (e, t) ∧ up.taken = some (e', t') ∧ e.kind = .down ∧ e'.kind = .up ∧
    e.slot = e'.slot ∧ inside tile e.x e.y = true ∧ inside tile e'.x e'.y = true ∧
    t ≤ t' ∧ t' - t ≤ 400 ∧ ∀ r ∈ between, ¬ Lifts e.slot r

/-- Two complete taps on the tile, the second ending with `up` less than 3000 ms after the
first, the panel open throughout. -/
def DoubleTap (tile : CcRect) (earlier : List (Record F D)) (up : Record F D) : Prop :=
  ∃ before down between up₁ pause down₂ between₂,
    earlier = before ++ down :: between ++ up₁ :: pause ++ down₂ :: between₂ ∧
    Tap tile down between up₁ ∧ Tap tile down₂ between₂ up ∧
    (∃ e t e' t', up₁.taken = some (e, t) ∧ up.taken = some (e', t') ∧ t ≤ t' ∧ t' - t < 3000) ∧
    StaysOpen (down :: between ++ up₁ :: pause ++ down₂ :: between₂ ++ [up])

/-- Every reboot was asked for by a double tap, and a closed panel is not armed. -/
structure RebootsConfirmed (s : Usage F D) : Prop where
  confirmed : ∀ tile earlier r later arg, s.past = earlier ++ r :: later →
    ⟨RebootTile.action tile, arg⟩ ∈ r.actions → DoubleTap tile.rect earlier r
  disarmed : s.model.open = 0 → s.model.armed = 0

/-- A contact that the panel captures on a reboot tile begins while it is open. -/
def PressesOpen (s : Usage F D) : PanelOp F D → Prop
  | .handle e _ _ _ => e.kind = .down → Sees s.model e → s.model.captureSlot < 0 →
      hit e.x e.y = .rescue ∨ hit e.x e.y = .loader → s.model.open ≠ 0
  | _ => True

/-- The contact on a reboot tile: its DOWN, and no end of it since. -/
def Held (k : Controls) (tile : RebootTile) (down : Record F D) (since : List (Record F D)) : Prop :=
  ∃ e t, down.taken = some (e, t) ∧ e.kind = .down ∧ e.slot = k.captureSlot ∧ t = k.captureAtMs ∧
    inside tile.rect e.x e.y = true ∧ ∀ r ∈ since, ¬ Lifts k.captureSlot r

/-- The past accounts for a contact on a reboot tile and for an armed tile. -/
structure Accounted (k : Controls) (past : List (Record F D)) : Prop where
  flag : k.open = 0 ∨ k.open = 1
  tile : k.armed = 0 ∨ ∃ tile : RebootTile, k.armed = tile.arm
  held : ∀ tile, k.On tile → k.open = 1 ∧ ∃ before down since,
    past = before ++ down :: since ∧ Held k tile down since ∧ StaysOpen (down :: since)
  armed : ∀ tile : RebootTile, k.armed = tile.arm → k.open = 1 ∧ ∃ before down between up rest,
    past = before ++ down :: between ++ up :: rest ∧ Tap tile.rect down between up ∧
    (∃ e, up.taken = some (e, k.armedAtMs)) ∧ StaysOpen (down :: between ++ up :: rest) ∧
    ∀ tile', k.On tile' → ∃ pause down₂ since,
      rest = pause ++ down₂ :: since ∧ Held k tile' down₂ since

theorem inside_of_hit {tile : RebootTile} {x y : F} (h : hit x y = tile.capture) :
    inside tile.rect x y = true := by
  rw [hit] at h
  split at h
  · cases tile <;> cases h
  split at h
  · cases tile <;> cases h
  split at h
  · cases tile <;> cases h
  split at h
  · cases tile <;> cases h
  split at h
  · cases tile <;> cases h
  split at h
  · rename_i hrescue
    cases tile with
    | rescue => exact hrescue
    | loader => cases h
  split at h
  · rename_i hloader
    cases tile with
    | rescue => cases h
    | loader => exact hloader
  split at h
  · cases tile <;> cases h
  split at h
  · cases tile <;> cases h
  · cases tile <;> cases h

section Account
variable {k : Controls} {past : List (Record F D)} {r : Record F D}

theorem Held.concat {tile : RebootTile} {down : Record F D} {since : List (Record F D)}
    (h : Held k tile down since) (hr : ¬ Lifts k.captureSlot r) : Held k tile down (since ++ [r]) := by
  obtain ⟨e, t, htaken, hkind, hslot, ht, hin, hsince⟩ := h
  refine ⟨e, t, htaken, hkind, hslot, ht, hin, fun a ha => ?_⟩
  rcases List.mem_append.mp ha with ha | ha
  · exact hsince a ha
  · obtain rfl := List.mem_singleton.mp ha
    exact hr

/-- A call that leaves the controls alone and ends no contact on a reboot tile. -/
theorem Accounted.keep (h : Accounted k past) (hopen : r.before.open = k.open)
    (hclose : ∀ now, r.op ≠ .close now) (hlift : ∀ tile, k.On tile → ¬ Lifts k.captureSlot r) :
    Accounted k (past ++ [r]) := by
  refine ⟨h.flag, h.tile, fun tile hon => ?_, fun tile harm => ?_⟩
  · obtain ⟨ho, before, down, since, hpast, hheld, hstay⟩ := h.held tile hon
    refine ⟨ho, before, down, since ++ [r], by simp [hpast], hheld.concat (hlift tile hon), ?_⟩
    exact hstay.concat (hopen.trans ho) hclose
  · obtain ⟨ho, before, down, between, up, rest, hpast, htap, htime, hstay, hnext⟩ := h.armed tile harm
    refine ⟨ho, before, down, between, up, rest ++ [r], by simp [hpast], htap, htime, ?_, ?_⟩
    · simpa using hstay.concat (hopen.trans ho) hclose
    · intro tile' hon
      obtain ⟨pause, down₂, since, hrest, hheld⟩ := hnext tile' hon
      exact ⟨pause, down₂, since ++ [r], by simp [hrest], hheld.concat (hlift tile' hon)⟩

theorem Accounted.release (h : Accounted k past) (hopen : r.before.open = k.open)
    (hclose : ∀ now, r.op ≠ .close now) : Accounted k.released (past ++ [r]) := by
  have hnone (tile : RebootTile) : ¬ k.released.On tile := by
    intro hon
    have hslot : (0 : Int) ≤ -1 := hon.1
    omega
  refine ⟨h.flag, h.tile, fun tile hon => absurd hon (hnone tile), fun tile harm => ?_⟩
  obtain ⟨ho, before, down, between, up, rest, hpast, htap, htime, hstay, _⟩ := h.armed tile harm
  refine ⟨ho, before, down, between, up, rest ++ [r], by simp [hpast], htap, htime, ?_, ?_⟩
  · simpa using hstay.concat (hopen.trans ho) hclose
  · exact fun tile' hon => absurd hon (hnone tile')

theorem Accounted.disarm (h : Accounted k past) : Accounted k.disarmed past := by
  refine ⟨h.flag, .inl rfl, h.held, fun tile harm => ?_⟩
  cases tile <;> cases harm

theorem Accounted.closed (hopen : k.open = 0) (harmed : k.armed = 0) (hslot : k.captureSlot = -1) :
    Accounted k past := by
  refine ⟨.inl hopen, .inl harmed, fun tile hon => ?_, fun tile harm => ?_⟩
  · have hslot' := hon.1
    omega
  · rw [harmed] at harm
    cases tile <;> cases harm

theorem Accounted.opened (h : Accounted k past) (hopen : k.open = 0) :
    Accounted { k with «open» := 1 } (past ++ [r]) := by
  refine ⟨.inr rfl, h.tile, fun tile hon => ?_, fun tile harm => ?_⟩
  · have ho := (h.held tile hon).1
    omega
  · have ho := (h.armed tile harm).1
    omega

/-- A contact is captured; on a reboot tile the panel is open. -/
theorem Accounted.press (h : Accounted k past) {e : TouchEvent F D} {now : Int}
    (hopen : r.before.open = k.open) (hclose : ∀ t, r.op ≠ .close t) (htaken : r.taken = some (e, now))
    (hkind : e.kind = .down)
    (hpress : hit e.x e.y = .rescue ∨ hit e.x e.y = .loader → k.open ≠ 0) :
    Accounted { k with captureSlot := e.slot, captureTile := hit e.x e.y, captureAtMs := now }
      (past ++ [r]) := by
  have hheld (tile : RebootTile) (hon : hit e.x e.y = tile.capture) : Held
      { k with captureSlot := e.slot, captureTile := hit e.x e.y, captureAtMs := now } tile r [] := by
    refine ⟨e, now, htaken, hkind, rfl, rfl, inside_of_hit hon, fun a ha => ?_⟩
    cases ha
  refine ⟨h.flag, h.tile, fun tile hon => ?_, fun tile harm => ?_⟩
  · have ho : k.open = 1 := by
      refine h.flag.resolve_left (hpress ?_)
      cases tile with
      | rescue => exact .inl hon.2
      | loader => exact .inr hon.2
    refine ⟨ho, past, r, [], rfl, hheld tile hon.2, fun a ha => ?_⟩
    obtain rfl := List.mem_singleton.mp ha
    exact ⟨hopen.trans ho, hclose⟩
  · obtain ⟨ho, before, down, between, up, rest, hpast, htap, htime, hstay, _⟩ := h.armed tile harm
    refine ⟨ho, before, down, between, up, rest ++ [r], by simp [hpast], htap, htime, ?_, ?_⟩
    · simpa using hstay.concat (hopen.trans ho) hclose
    · exact fun tile' hon => ⟨rest, r, [], rfl, hheld tile' hon.2⟩

/-- The contact on a reboot tile ends there in time: a tap is complete. -/
theorem Held.tap {tile : RebootTile} {down : Record F D} {since : List (Record F D)}
    (h : Held k tile down since) {e : TouchEvent F D} {now : Int} (htaken : r.taken = some (e, now))
    (hkind : e.kind = .up) (hslot : e.slot = k.captureSlot) (hin : inside tile.rect e.x e.y = true)
    (hafter : k.captureAtMs ≤ now) (hsoon : now - k.captureAtMs ≤ 400) :
    Tap tile.rect down since r := by
  obtain ⟨e₀, t₀, htaken₀, hkind₀, hslot₀, rfl, hin₀, hsince⟩ := h
  refine ⟨e₀, _, e, now, htaken₀, htaken, hkind₀, hkind, hslot₀.trans hslot.symm, hin₀, hin, hafter,
    hsoon, ?_⟩
  rw [hslot₀]
  exact hsince

end Account

theorem ccClose_controls (m : CcModel F) (now : Int) : (controls (ccClose m now)).open = 0 ∧
    (controls (ccClose m now)).armed = 0 ∧ (controls (ccClose m now)).captureSlot = -1 := by
  have harmed : (release (disarm m)).armed = 0 := congrArg Controls.armed (controls_disarm m)
  unfold ccClose
  simp only
  split
  · exact ⟨‹_›, harmed, rfl⟩
  · exact ⟨rfl, harmed, rfl⟩

/-- What a call adds to the past keeps it accounted for, and a reboot it asks for is confirmed. -/
def Confirms (m : CcModel F) (past : List (Record F D)) (op : PanelOp F D)
    (after : Except Nat (List CcResult) × CcModel F) : Prop :=
  Accounted (controls after.2) (past ++ [{ before := m, op, answer := after.1 }]) ∧
    ∀ tile arg, ⟨RebootTile.action tile, arg⟩ ∈ Record.actions { before := m, op, answer := after.1 } →
      DoubleTap tile.rect past { before := m, op, answer := after.1 }

/-- A call that asks for no reboot and after which the past is accounted for. -/
theorem Confirms.quiet {m : CcModel F} {past : List (Record F D)} {op : PanelOp F D}
    {after : Except Nat (List CcResult) × CcModel F}
    (h : Accounted (controls after.2) (past ++ [{ before := m, op, answer := after.1 }]))
    (hquiet : ∀ a ∈ Record.actions { before := m, op, answer := after.1 },
      a.action ≠ .rebootRescue ∧ a.action ≠ .rebootLoader) : Confirms m past op after := by
  refine ⟨h, fun tile arg ha => ?_⟩
  have hne := hquiet _ ha
  cases tile with
  | rescue => exact absurd rfl hne.1
  | loader => exact absurd rfl hne.2

/-- A tap on a reboot tile arms it, or confirms it when it is already armed. -/
private theorem reboot_confirms {m : CcModel F} {past : List (Record F D)} (tile : RebootTile)
    {e : TouchEvent F D} {now : Int} (out : Bool) (max : Int) (h : Accounted (controls m) past)
    (hon : (controls m).On tile) (hkind : e.kind = .up) (hslot : e.slot = m.captureSlot)
    (hin : inside tile.rect e.x e.y = true) (hafter : m.captureAtMs ≤ now)
    (hsoon : now - m.captureAtMs ≤ 400) :
    Confirms m past (.handle e now out max)
      (.ok (tapReboot (release m) tile.arm tile.action now).1,
        (tapReboot (release m) tile.arm tile.action now).2) := by
  obtain ⟨ho, before, down, since, hpast, hheld, hstay⟩ := h.held tile hon
  unfold tapReboot
  split
  · rename_i harmed
    let up : Record F D := { before := m, op := .handle e now out max, answer := .ok [⟨tile.action, 0⟩] }
    have hup : up.taken = some (e, now) := rfl
    have hrelease := h.release (r := up) rfl nofun
    refine ⟨?_, fun tile' arg ha => ?_⟩
    · rw [controls_disarm]
      exact hrelease.disarm
    · obtain rfl : tile' = tile := by
        have ha' : RebootTile.action tile' = tile.action :=
          congrArg CcResult.action (List.mem_singleton.mp ha)
        cases tile' <;> cases tile <;> simp_all [RebootTile.action]
      obtain ⟨_, before₁, down₁, between, up₁, rest, hpast₁, htap, ⟨e₁, htime⟩, hstay₁, hnext⟩ :=
        h.armed tile' harmed.1
      obtain ⟨pause, down₂, since₂, hrest, hheld₂⟩ := hnext tile' hon
      have hlimit : now - m.armedAtMs < 3000 := by
        have hstarted : m.armedAtMs ≤ now := harmed.2.1
        have hel : elapsed now m.armedAtMs 3000 = false := harmed.2.2
        unfold elapsed at hel
        simp only [hstarted, decide_true, Bool.true_and, decide_eq_false_iff_not] at hel
        omega
      refine ⟨before₁, down₁, between, up₁, pause, down₂, since₂, by simp [hpast₁, hrest], htap,
        hheld₂.tap hup hkind hslot hin hafter hsoon, ⟨e₁, _, e, now, htime, hup, harmed.2.1, hlimit⟩, ?_⟩
      have hall := hstay₁.concat (r := up) ho nofun
      simpa [hrest] using hall
  · have hup : Record.taken { before := m, op := .handle e now out max, answer := .ok [] } = some (e, now) := rfl
    refine .quiet ?_ nofun
    refine ⟨h.flag, .inr ⟨tile, rfl⟩, fun tile' hon' => ?_, fun tile' harm => ?_⟩
    · have hneg : (0 : Int) ≤ -1 := hon'.1
      omega
    · obtain rfl : tile' = tile := arm_injective harm.symm
      refine ⟨ho, before, down, since, _, [], by simp [hpast],
        hheld.tap hup hkind hslot hin hafter hsoon, ⟨e, rfl⟩, ?_, fun tile₂ hon' => ?_⟩
      · exact hstay.concat ho nofun
      · have hneg : (0 : Int) ≤ -1 := hon'.1
        omega

theorem tapTile_confirms {m : CcModel F} {past : List (Record F D)} {e : TouchEvent F D} {now : Int}
    {out : Bool} {max : Int} (h : Accounted (controls m) past) (hslot : Owns m e) (hkind : e.kind = .up)
    (hhit : m.captureTile = hit e.x e.y) (hafter : m.captureAtMs ≤ now)
    (hsoon : now - m.captureAtMs ≤ 400) :
    Confirms m past (.handle e now out max)
      (.ok (tapTile (release m) m.captureTile now).1, (tapTile (release m) m.captureTile now).2) := by
  have hrelease (answer : Except Nat (List CcResult)) :
      Accounted (controls (release m)) (past ++ [⟨m, .handle e now out max, answer⟩]) :=
    h.release rfl nofun
  have hreboot (tile : RebootTile) (htile : m.captureTile = tile.capture) :=
    reboot_confirms tile out max h ⟨hslot.1, htile⟩ hkind hslot.2
      (inside_of_hit (hhit.symm.trans htile)) hafter hsoon
  have hquiet {actions : List CcResult} (hactions : ∀ a ∈ actions,
      a.action ≠ .rebootRescue ∧ a.action ≠ .rebootLoader) {m' : CcModel F}
      (hm : controls m' = controls (release m)) : Confirms m past (.handle e now out max) (.ok actions, m') := by
    refine .quiet ?_ hactions
    rw [hm]
    exact hrelease _
  unfold tapTile
  cases htile : m.captureTile with
  | rescue => exact hreboot .rescue htile
  | loader => exact hreboot .loader htile
  | auto => exact hquiet (by simp) rfl
  | timer i => exact hquiet (by simp) rfl
  | wifi => exact hquiet (by simp) rfl
  | off =>
    obtain ⟨ho, harmed, hslot'⟩ := ccClose_controls (release m) now
    exact .quiet (.closed ho harmed hslot') (by simp [Record.actions])
  | none | handle | bright | outside => exact hquiet (by simp) rfl

section Steps
variable [CFloat D] [CDouble F D]

theorem handleDown_controls (m : CcModel F) (e : TouchEvent F D) (now : Int) :
    controls (handleDown m e now).2 =
      { controls m with captureSlot := e.slot, captureTile := hit e.x e.y, captureAtMs := now } := by
  unfold handleDown
  simp only
  split
  · rfl
  · change controls (brightness _ now).2 = _
    rw [controls_brightness]
    split <;> rfl

theorem handleDown_action {m : CcModel F} {e : TouchEvent F D} {now : Int} {a : CcResult}
    (h : a ∈ (handleDown m e now).1) : a.action = .setAuto ∨ a.action = .setBrightness := by
  unfold handleDown at h
  simp only at h
  split at h
  · cases h
  · rcases List.mem_append.mp h with h | h
    · split at h
      · obtain rfl := List.mem_singleton.mp h
        exact .inl rfl
      · cases h
    · exact .inr (brightness_action h)

theorem handle_confirms {m : CcModel F} {past : List (Record F D)} {e : TouchEvent F D} {now : Int}
    {out : Bool} {max : Int} (h : Accounted (controls m) past)
    (hpress : e.kind = .down → Sees m e → m.captureSlot < 0 →
      hit e.x e.y = .rescue ∨ hit e.x e.y = .loader → m.open ≠ 0) :
    Confirms m past (.handle e now out max) (.ok (handle m e now).1, (handle m e now).2) := by
  have hflag {tile : RebootTile} (hon : (controls m).On tile) : ccVisible m = true := by
    have ho : m.open = 1 := (h.held tile hon).1
    simp [ccVisible, ho]
  have hidle (hlift : ∀ tile, (controls m).On tile → ¬ Lifts m.captureSlot
      (⟨m, .handle e now out max, .ok []⟩ : Record F D)) : Confirms m past (.handle e now out max) (.ok [], m) :=
    .quiet (h.keep rfl nofun hlift) nofun
  have hnot (hne : ¬ (Sees m e ∧ Owns m e ∧ (e.kind = .up ∨ e.kind = .cancel))) (tile : RebootTile)
      (hon : (controls m).On tile) : ¬ Lifts m.captureSlot
        (⟨m, .handle e now out max, .ok []⟩ : Record F D) := by
    rintro ⟨e', t', htaken, hslot, hkind, hx, hy⟩
    obtain ⟨rfl, rfl⟩ : e = e' ∧ now = t' := by simpa [Record.taken] using htaken
    exact hne ⟨⟨hflag hon, hx, hy⟩, ⟨hon.1, hslot⟩, hkind⟩
  apply handle_cases (P := fun next => Confirms m past (.handle e now out max) (.ok next.1, next.2))
  case unseen => exact fun hs => hidle (hnot fun hall => hs hall.1)
  case busy => exact fun _ hk _ => hidle (hnot fun hall => by simp [hk] at hall)
  case press =>
    intro hs hk hslot
    refine .quiet ?_ fun a ha => ?_
    · rw [handleDown_controls]
      exact h.press rfl nofun rfl hk (hpress hk hs hslot)
    · rcases handleDown_action ha with hact | hact <;> simp [hact]
  case stray => exact fun _ _ ho => hidle (hnot fun hall => ho hall.2.1)
  case cancel => exact fun _ _ _ => .quiet (h.release rfl nofun) nofun
  case drag =>
    intro hs ho hk _
    refine .quiet ?_ fun a ha => ?_
    · rw [handleDrag_controls]
      split
      · exact h.release rfl nofun
      · rename_i hup
        refine h.keep rfl nofun fun tile hon hl => ?_
        obtain ⟨e', t', htaken, hslot, hkind, _⟩ := hl
        obtain ⟨rfl, rfl⟩ : e = e' ∧ now = t' := by simpa [Record.taken] using htaken
        have hmove := hk.resolve_right hup
        simp [hmove] at hkind
    · rcases handleDrag_action ha with hact | hact <;> simp [hact]
  case swipe =>
    intro _ _ _ _
    obtain ⟨ho, harmed, hslot⟩ := ccClose_controls m now
    exact .quiet (.closed ho harmed hslot) nofun
  case hold => exact fun _ _ hk => hidle (hnot fun hall => by simp [hk] at hall)
  case lift =>
    intro _ hown hk _
    unfold handleUp
    simp only
    split
    · obtain ⟨ho, harmed, hslot⟩ := ccClose_controls (release m) now
      exact .quiet (.closed ho harmed hslot) nofun
    split
    · exact .quiet (h.release rfl nofun) nofun
    · rename_i htapped
      obtain ⟨hafter, hel, hhit⟩ := not_not.mp htapped
      refine tapTile_confirms h hown hk hhit hafter ?_
      unfold elapsed at hel
      simp only [hafter, decide_true, Bool.true_and, decide_eq_false_iff_not] at hel
      omega

theorem perform_confirms {m : CcModel F} {past : List (Record F D)} (op : PanelOp F D)
    (h : Accounted (controls m) past) (hpress : PressesOpen { model := m, past } op) :
    Confirms m past op (perform m op) := by
  cases op with
  | «open» now =>
    refine .quiet ?_ nofun
    unfold perform ccOpen
    simp only
    split
    · exact h.keep rfl nofun fun tile hon hl => by
        obtain ⟨e', t', htaken, _⟩ := hl
        cases htaken
    · rename_i ho
      exact h.opened (not_not.mp ho)
  | close now =>
    obtain ⟨ho, harmed, hslot⟩ := ccClose_controls m now
    exact .quiet (.closed ho harmed hslot) nofun
  | tick now =>
    have hkeep : Accounted (controls (slideTick m now)) (past ++ [⟨m, .tick now, .ok []⟩]) :=
      h.keep rfl nofun fun tile hon hl => by
        obtain ⟨e', t', htaken, _⟩ := hl
        cases htaken
    refine .quiet ?_ nofun
    unfold perform ccTick
    simp only
    split
    · rw [controls_disarm]
      exact hkeep.disarm
    · exact hkeep
  | handle e now out max =>
    unfold perform ccHandleEvent
    simp only
    split
    · refine .quiet (h.keep rfl nofun fun tile hon hl => ?_) nofun
      obtain ⟨e', t', htaken, _⟩ := hl
      cases htaken
    · exact handle_confirms h hpress

/-- In every run in which no contact on a reboot tile begins while the panel is sliding shut,
every reboot is confirmed by two taps and a closed panel is not armed. -/
theorem reboots_confirmed (bright maximum automatic minutes : Int) (ops : List (PanelOp F D))
    (s : Usage F D) (h : Run (Guarded (Fires Usage.call) PressesOpen)
      (Usage.start (ccInit bright maximum automatic minutes)) ops s) : RebootsConfirmed s := by
  have hinv : Accounted (controls s.model) s.past ∧ ∀ tile earlier r later arg,
      s.past = earlier ++ r :: later → ⟨RebootTile.action tile, arg⟩ ∈ r.actions →
        DoubleTap tile.rect earlier r := by
    refine h.invariant (fun s => Accounted (controls s.model) s.past ∧
      ∀ tile earlier r later arg, s.past = earlier ++ r :: later →
        ⟨RebootTile.action tile, arg⟩ ∈ r.actions → DoubleTap tile.rect earlier r) ?_ ?_
    · refine ⟨⟨.inl rfl, .inl rfl, fun tile hon => ?_, fun tile harm => ?_⟩, ?_⟩
      · have hneg : (0 : Int) ≤ -1 := hon.1
        omega
      · cases tile <;> cases harm
      · intro tile earlier r later arg he
        simp [Usage.start] at he
    · rintro t op _ ⟨hacc, hpast⟩ ⟨hok, rfl⟩
      obtain ⟨hacc', hnew⟩ := perform_confirms op hacc hok
      refine ⟨hacc', fun tile earlier r later arg he ha => ?_⟩
      rcases List.eq_nil_or_concat later with rfl | ⟨front, last, rfl⟩
      · obtain ⟨rfl, hr⟩ := List.append_inj' he rfl
        obtain rfl := (List.cons.inj hr).1
        exact hnew tile arg ha
      · have he' : t.past ++ [⟨t.model, op, (perform t.model op).1⟩] = (earlier ++ r :: front) ++ [last] := by
          rw [List.concat_eq_append] at he
          simpa [Usage.call] using he
        exact hpast tile earlier r front arg (List.append_inj' he' rfl).1 ha
  refine ⟨hinv.2, fun ho => hinv.1.tile.resolve_right ?_⟩
  rintro ⟨tile, harm⟩
  have h1 : s.model.open = 1 := (hinv.1.armed tile harm).1
  omega

end Steps

def tapAt (x y : ℚ) (down up : Int) : List (PanelOp ℚ ℚ) :=
  [.tick down, .handle ⟨.down, 0, x, y, 0⟩ down true 3, .tick up, .handle ⟨.up, 0, x, y, 0⟩ up true 3]

/-- Two taps on Rescue in the open panel. -/
def openTaps : List (PanelOp ℚ ℚ) :=
  [PanelOp.open 0, .tick 200] ++ tapAt 850 250 300 350 ++ tapAt 850 250 400 450

theorem open_taps_confirmed :
    RebootsConfirmed (openTaps.foldl Usage.call (Usage.start (ccInit 200 255 1 5))) := by
  refine reboots_confirmed 200 255 1 5 _ _ (run_guarded_foldl ?_)
  refine ⟨trivial, trivial, trivial, fun _ _ _ _ => ?_, trivial, fun _ _ _ _ => ?_, trivial,
    fun _ _ _ _ => ?_, trivial, fun _ _ _ _ => ?_, trivial⟩ <;> decide +kernel

/-- The panel is closed at 300 ms and both taps land while it slides shut. -/
def closingTaps : List (PanelOp ℚ ℚ) :=
  [PanelOp.open 0, .tick 200, .close 300] ++ tapAt 850 250 310 330 ++ tapAt 850 250 350 370

/-- Rescue is armed and confirmed with the panel closed. -/
theorem closing_taps_reboot : ∃ s : Usage ℚ ℚ,
    Run (Fires Usage.call) (Usage.start (ccInit 200 255 1 5)) closingTaps s ∧ ¬ RebootsConfirmed s := by
  refine ⟨_, run_foldl Usage.call (Usage.start (ccInit 200 255 1 5)) closingTaps, fun h => ?_⟩
  have hlast : (closingTaps.foldl Usage.call (Usage.start (ccInit 200 255 1 5))).past.getLast?.map
      (fun r => (r.before.open, r.actions)) = some (0, [⟨.rebootRescue, 0⟩]) := by
    decide +kernel
  obtain ⟨r, hr, hfacts⟩ := Option.map_eq_some_iff.mp hlast
  obtain ⟨earlier, hpast⟩ := List.getLast?_eq_some_iff.mp hr
  obtain ⟨hopen, hactions⟩ := Prod.mk.inj hfacts
  have hdouble := h.confirmed .rescue earlier r [] 0 hpast (by rw [hactions]; simp [RebootTile.action])
  obtain ⟨_, _, _, _, _, _, _, _, _, _, _, hstay⟩ := hdouble
  have hone := (hstay r (by simp)).1
  omega

end Taq102.Panel.Reboot
