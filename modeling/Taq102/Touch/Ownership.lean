import Taq102.Lib.Transition
import Taq102.Touch.ContactStream
import Taq102.Touch.Router

/-! Who owns a contact: one contact at a time is the panel's, and the cube's slots are those of the
contacts it owns. -/
namespace Taq102.Touch
open Taq102.Lib CFloat Bracket Transition

/-- The calls on a router. -/
inductive RouterCall (F D : Type) where
  | feed (events : List (Arrival F D))
  | setPanelOpen (isOpen : Int)
  | reset

/-- What a call does, one event at a time. -/
inductive RouterStep (F D : Type) where
  | route (a : Arrival F D)
  | drain
  | setPanelOpen (isOpen : Int)
  | reset

variable {F D : Type}

def RouterCall.steps : RouterCall F D → List (RouterStep F D)
  | .feed events => events.map .route ++ [.drain]
  | .setPanelOpen isOpen => [.setPanelOpen isOpen]
  | .reset => [.reset]

variable [CFloat F]

def advance (r : TouchRouter F D) : RouterStep F D → TouchRouter F D
  | .route a => (route r a).2
  | .drain => (drainPanel r).2
  | .setPanelOpen isOpen => touchRouterSetPanelOpen r isOpen
  | .reset => touchRouterReset r

/-- The router after a call. -/
def call (r : TouchRouter F D) : RouterCall F D → TouchRouter F D
  | .feed events => (touchRouterFeed r (some events)).2
  | .setPanelOpen isOpen => touchRouterSetPanelOpen r isOpen
  | .reset => touchRouterReset r

theorem call_eq (r : TouchRouter F D) (c : RouterCall F D) : call r c = c.steps.foldl advance r := by
  cases c with
  | feed events =>
    rw [RouterCall.steps, List.foldl_append, List.foldl_map]
    change (drainPanel (routeAll r events).2).2 = _
    rw [routeAll_router]
    rfl
  | setPanelOpen isOpen => rfl
  | reset => rfl

theorem calls_eq (r : TouchRouter F D) (calls : List (RouterCall F D)) :
    calls.foldl call r = (calls.flatMap RouterCall.steps).foldl advance r := by
  induction calls generalizing r with
  | nil => rfl
  | cons c rest ih => rw [List.foldl_cons, List.flatMap_cons, List.foldl_append, ih, call_eq]

/-- At most one slot is the panel's, and `panel_primary` names it. -/
structure OnePanelOwner (r : TouchRouter F D) : Prop where
  unique : ∀ i j, r.owner i = .panel → r.owner j = .panel → i = j
  primary : ∀ i, r.owner i = .panel → r.panelPrimary = slotNumber i

/-- A contact from the bar opens the panel while another contact is the panel's. -/
def Usurps (r : TouchRouter F D) : RouterStep F D → Prop
  | .route a => ∃ i, selectedSlot a.event.slot = some i ∧ r.owner i = .candidate ∧
      opens r i a.event = true ∧ ∃ j, r.owner j = .panel
  | _ => False

section Panel
variable {r : TouchRouter F D}

omit [CFloat F] in
theorem onePanelOwner_of_primary (h : ∀ i, r.owner i = .panel → r.panelPrimary = slotNumber i) :
    OnePanelOwner r :=
  ⟨fun i j hi hj => slotNumber_injective ((h i hi).symm.trans (h j hj)), h⟩

theorem onePanelOwner_clear (h : OnePanelOwner r) (i : Fin touchMaxSlots) :
    OnePanelOwner (clearContact r i) := by
  refine onePanelOwner_of_primary fun j hj => ?_
  rw [clearContact_owner] at hj
  split at hj
  · cases hj
  rename_i hne
  have hprimary := h.primary j hj
  have hother : slotNumber j ≠ slotNumber i := fun heq => hne (slotNumber_injective heq)
  rw [clearContact]
  dsimp only
  rw [hprimary, if_neg hother]

theorem onePanelOwner_begin (h : OnePanelOwner r) (i : Fin touchMaxSlots) (a : Arrival F D) :
    OnePanelOwner (beginContact r i a) := by
  have hbegun := beginContact_spec r i a
  have hcleared := onePanelOwner_clear h i
  refine onePanelOwner_of_primary fun j hj => ?_
  rw [hbegun.owners] at hj
  rw [hbegun.primary]
  split at hj
  · rename_i heq
    rw [heq, if_pos hj]
  · rename_i hne
    have hprimary : (clearContact r i).panelPrimary = slotNumber j :=
      hcleared.primary j ((clearContact_owner r i j).trans (if_neg hne) |>.trans hj)
    split
    · rename_i hpanel
      have hfree := hbegun.first hpanel
      rw [hprimary] at hfree
      exact absurd hfree (not_lt.mpr (Int.natCast_nonneg _))
    · exact hprimary

theorem not_usurps {a : Arrival F D} {i : Fin touchMaxSlots}
    (hslot : selectedSlot a.event.slot = some i)
    (hstays : r.owner i = .candidate → opens r i a.event = false) : ¬ Usurps r (.route a) := by
  rintro ⟨j, hj, howner, hopens, _⟩
  rw [hslot] at hj
  cases hj
  exact nomatch (hstays howner).symm.trans hopens

theorem onePanelOwner_turn (h : OnePanelOwner r) (i : Fin touchMaxSlots) (e : TouchEvent F D) :
    OnePanelOwner (routeCube r i e) := by
  rw [routeCube]
  split
  · exact ⟨h.unique, h.primary⟩
  split
  · have hcube : OnePanelOwner { r with
        cube := Function.update r.cube i { r.cube i with active := false } } :=
      ⟨h.unique, h.primary⟩
    exact onePanelOwner_clear hcube i
  · exact h

theorem onePanelOwner_drag (h : OnePanelOwner r) (i : Fin touchMaxSlots) (a : Arrival F D) :
    OnePanelOwner (routePanel r i a).2 := by
  have hdragged := routePanel_spec r i a
  have hcleared := onePanelOwner_clear h i
  refine onePanelOwner_of_primary fun j hj => ?_
  rw [hdragged.owners] at hj
  rw [hdragged.primary]
  split
  · rw [if_pos ‹_›] at hj
    exact hcleared.primary j hj
  · rw [if_neg ‹_›] at hj
    exact h.primary j hj

theorem onePanelOwner_pull {i : Fin touchMaxSlots} {e : TouchEvent F D}
    (howner : r.owner i = .candidate) (hopens : opens r i e = true) :
    OnePanelOwner (routeCandidate r i e).2 ↔ ¬ ∃ j, r.owner j = .panel := by
  have howners := pull_owner hopens
  have hprimary : (routeCandidate r i e).2.panelPrimary = slotNumber i := by
    rw [routeCandidate, if_pos hopens]
  constructor
  · rintro h ⟨j, hj⟩
    have hnamed := h.primary j ((congrFun howners j).trans hj)
    obtain rfl : i = j := slotNumber_injective (hprimary.symm.trans hnamed)
    cases howner.symm.trans hj
  · intro hnone
    refine onePanelOwner_of_primary fun j hj => ?_
    rw [howners] at hj
    exact absurd ⟨j, hj⟩ hnone

/-- Only such a contact takes the panel from its owner. -/
theorem onePanelOwner_advance (h : OnePanelOwner r) (step : RouterStep F D) :
    OnePanelOwner (advance r step) ↔ ¬ Usurps r step := by
  cases step with
  | drain =>
    refine iff_of_true ?_ id
    rw [advance, drainPanel]
    split
    · exact h
    · exact ⟨h.unique, h.primary⟩
  | setPanelOpen isOpen => exact iff_of_true ⟨h.unique, h.primary⟩ id
  | reset => exact iff_of_true ⟨nofun, nofun⟩ id
  | route a =>
    refine route_cases (P := fun r' => OnePanelOwner r' ↔ ¬ Usurps r (.route a)) r a ?outside ?press
      ?idle ?lift ?pull ?turn ?drag
    case outside =>
      intro hslot
      refine iff_of_true h ?_
      rintro ⟨i, hi, _⟩
      exact nomatch hslot.symm.trans hi
    case press =>
      intro i hslot hkind
      refine iff_of_true (onePanelOwner_begin h i a) (not_usurps hslot fun _ => ?_)
      by_contra hopens
      exact nomatch hkind.symm.trans (opens_move (eq_true_of_ne_false hopens))
    case idle =>
      intro i hslot _ _ hstays
      exact iff_of_true h (not_usurps hslot hstays)
    case lift =>
      intro i hslot hends _
      refine iff_of_true (onePanelOwner_clear h i) (not_usurps hslot fun _ => ?_)
      by_contra hopens
      rw [opens_move (eq_true_of_ne_false hopens)] at hends
      cases hends
    case pull =>
      intro i hslot howner hopens
      rw [onePanelOwner_pull howner hopens]
      refine not_congr ⟨fun hpanel => ⟨i, hslot, howner, hopens, hpanel⟩, ?_⟩
      rintro ⟨_, _, _, _, hpanel⟩
      exact hpanel
    case turn =>
      intro i hslot howner _
      exact iff_of_true (onePanelOwner_turn h i a.event)
        (not_usurps hslot fun hc => nomatch howner.symm.trans hc)
    case drag =>
      intro i hslot howner _
      exact iff_of_true (onePanelOwner_drag h i a)
        (not_usurps hslot fun hc => nomatch howner.symm.trans hc)

theorem touchRouterNew_eq {w h barH panelX panelY panelW panelH : Int} {r : TouchRouter F D}
    (hnew : touchRouterNew w h barH panelX panelY panelW panelH = some r) :
    (∀ i, r.owner i = .none) ∧ (∀ i, (r.cube i).active = false) ∧ r.panelPrimary = -1 ∧
      r.pending = [] ∧ r.pendingError = false := by
  rw [touchRouterNew] at hnew
  split at hnew
  · cases hnew
  · cases hnew
    exact ⟨fun _ => rfl, fun _ => rfl, rfl, rfl, rfl⟩

/-- At most one contact is the panel's at every moment of a run exactly when no contact from the bar
opens the panel while another one is the panel's. -/
theorem one_panel_owner_iff {w h barH panelX panelY panelW panelH : Int} {r : TouchRouter F D}
    (hnew : touchRouterNew w h barH panelX panelY panelW panelH = some r)
    (calls : List (RouterCall F D)) :
    Throughout advance OnePanelOwner r (calls.flatMap RouterCall.steps) ↔
      ∀ first step rest, calls.flatMap RouterCall.steps = first ++ step :: rest →
        ¬ Usurps (first.foldl advance r) step := by
  have hstart : OnePanelOwner r := by
    refine onePanelOwner_of_primary fun i hi => ?_
    exact nomatch ((touchRouterNew_eq hnew).1 i).symm.trans hi
  exact throughout_iff_admitted hstart (fun t step ht => onePanelOwner_advance ht step) _

end Panel

/-! The cube's slots. -/

section Cube
variable {r : TouchRouter F D}

/-- The cube shows a finger where it owns a contact. -/
def ShowsOwned (r : TouchRouter F D) : Prop := ∀ i, (r.cube i).active = true ↔ r.owner i = .cube

/-- A contact of the cube is put down again, for another owner. -/
def Replaces (r : TouchRouter F D) : RouterStep F D → Prop
  | .route a => ∃ i, selectedSlot a.event.slot = some i ∧ a.event.kind = .down ∧ r.owner i = .cube ∧
      (r.panelOpen = true ∨ a.event.y < ofInt r.barH)
  | _ => False

theorem firstOwner_cube {i : Fin touchMaxSlots} {e : TouchEvent F D} :
    firstOwner r i e = .cube ↔ ¬ (r.panelOpen = true ∨ e.y < ofInt r.barH) := by
  rw [firstOwner]
  split
  · rename_i hopen
    refine iff_of_false ?_ (not_not.mpr (.inl hopen))
    split
    · intro hcube
      cases hcube
    · intro hcube
      cases hcube
  · rename_i hopen
    split
    · rename_i hbar
      refine iff_of_false ?_ (not_not.mpr (.inr hbar))
      intro hcube
      cases hcube
    · rename_i hbar
      exact iff_of_true rfl (not_or.mpr ⟨hopen, hbar⟩)

theorem showsOwned_begin (h : ShowsOwned r) {i : Fin touchMaxSlots} {a : Arrival F D}
    (hkept : r.owner i = .cube → firstOwner r i a.event = .cube) :
    ShowsOwned (beginContact r i a) := by
  have hbegun := beginContact_spec r i a
  intro j
  rw [hbegun.owners, hbegun.cube]
  by_cases hj : j = i
  · rw [hj, if_pos rfl]
    by_cases hcube : firstOwner r i a.event = .cube
    · rw [if_pos hcube, Function.update_self]
      exact iff_of_true rfl hcube
    · rw [if_neg hcube, h i]
      exact iff_of_false (fun hc => hcube (hkept hc)) hcube
  · rw [if_neg hj, ← h j]
    split
    · rw [Function.update_of_ne hj]
    · rfl

theorem showsOwned_clear (h : ShowsOwned r) {i : Fin touchMaxSlots} (hfree : r.owner i ≠ .cube) :
    ShowsOwned (clearContact r i) := by
  intro j
  rw [clearContact_owner]
  have hshown : ((clearContact r i).cube j).active = true ↔ r.owner j = .cube := h j
  rw [hshown]
  split
  · rename_i hj
    exact iff_of_false (hj ▸ hfree) nofun
  · rfl

theorem showsOwned_turn (h : ShowsOwned r) (i : Fin touchMaxSlots) (e : TouchEvent F D) :
    ShowsOwned (routeCube r i e) := by
  rw [routeCube]
  split
  · intro j
    dsimp only
    by_cases hj : j = i
    · rw [hj, Function.update_self]
      exact h i
    · rw [Function.update_of_ne hj]
      exact h j
  split
  · intro j
    rw [clearContact_owner]
    change (Function.update r.cube i _ j).active = true ↔ (if j = i then _ else r.owner j) = _
    by_cases hj : j = i
    · rw [hj, Function.update_self, if_pos rfl]
      exact iff_of_false nofun nofun
    · rw [Function.update_of_ne hj, if_neg hj]
      exact h j
  · exact h

theorem showsOwned_advance (h : ShowsOwned r) {step : RouterStep F D} (hstep : ¬ Replaces r step) :
    ShowsOwned (advance r step) := by
  cases step with
  | drain =>
    rw [advance, drainPanel]
    split
    · exact h
    · exact h
  | setPanelOpen isOpen => exact h
  | reset => exact fun i => iff_of_false nofun nofun
  | route a =>
    refine route_cases (P := ShowsOwned) r a ?outside ?press ?idle ?lift ?pull ?turn ?drag
    case outside => exact fun _ => h
    case press =>
      intro i hslot hkind
      refine showsOwned_begin h fun howner => ?_
      rw [firstOwner_cube]
      exact fun hother => hstep ⟨i, hslot, hkind, howner, hother⟩
    case idle => exact fun _ _ _ _ _ => h
    case lift =>
      intro i _ _ hforeign
      refine showsOwned_clear h fun howner => ?_
      rw [howner] at hforeign
      cases hforeign
    case pull =>
      intro i _ _ hopens
      have hcube : (routeCandidate r i a.event).2.cube = r.cube := by
        rw [routeCandidate, if_pos hopens]
        rfl
      intro j
      rw [hcube, pull_owner hopens]
      exact h j
    case turn => exact fun i _ _ _ => showsOwned_turn h i a.event
    case drag =>
      intro i _ howner _
      have hdragged := routePanel_spec r i a
      have hother : r.owner i ≠ .cube := by
        intro hcube
        cases howner.symm.trans hcube
      intro j
      rw [hdragged.cube, hdragged.owners]
      split
      · exact showsOwned_clear h hother j
      · exact h j

/-- In a run in which no contact of the cube is put down again for another owner, the cube reports
after each call exactly the slots it owns. -/
theorem cube_reports_owned {w h barH panelX panelY panelW panelH : Int} {r : TouchRouter F D}
    (hnew : touchRouterNew w h barH panelX panelY panelW panelH = some r)
    (calls : List (RouterCall F D))
    (hkept : ∀ first step rest, calls.flatMap RouterCall.steps = first ++ step :: rest →
      ¬ Replaces (first.foldl advance r) step) :
    ∀ first events rest, calls = first ++ .feed events :: rest → ∀ i,
      ((touchRouterFeed (first.foldl call r) (some events)).1.cube i).active = true ↔
        (touchRouterFeed (first.foldl call r) (some events)).2.owner i = .cube := by
  intro first events rest heq i
  obtain ⟨hnone, hinactive, _⟩ := touchRouterNew_eq hnew
  have hstart : ShowsOwned r := by
    intro j
    rw [hnone j, hinactive j]
    exact iff_of_false nofun nofun
  have hthroughout := throughout_of_admitted hstart (fun _ _ ht hok => showsOwned_advance ht hok) hkept
  have hafter := hthroughout ((first ++ [RouterCall.feed events]).flatMap RouterCall.steps)
    (rest.flatMap RouterCall.steps) (by rw [heq, ← List.flatMap_append, List.append_assoc]; rfl)
  rw [← calls_eq, List.foldl_append] at hafter
  have hcube : (touchRouterFeed (first.foldl call r) (some events)).1.cube =
      (touchRouterFeed (first.foldl call r) (some events)).2.cube := by
    change (routeAll _ events).2.cube = (drainPanel (routeAll _ events).2).2.cube
    rw [drainPanel]
    split <;> rfl
  rw [hcube]
  exact hafter i

end Cube

section Fingers

instance (r : TouchRouter ℚ ℚ) : Decidable (OnePanelOwner r) :=
  decidable_of_iff ((∀ i j, r.owner i = .panel → r.owner j = .panel → i = j) ∧
    ∀ i, r.owner i = .panel → r.panelPrimary = slotNumber i)
    ⟨fun h => ⟨h.1, h.2⟩, fun h => ⟨h.1, h.2⟩⟩

instance (r : TouchRouter ℚ ℚ) (step : RouterStep ℚ ℚ) : Decidable (Usurps r step) :=
  match step with
  | .route a => inferInstanceAs (Decidable (∃ i, selectedSlot a.event.slot = some i ∧
      r.owner i = .candidate ∧ opens r i a.event = true ∧ ∃ j, r.owner j = .panel))
  | .drain | .setPanelOpen _ | .reset => isFalse id

instance (r : TouchRouter ℚ ℚ) (step : RouterStep ℚ ℚ) : Decidable (Replaces r step) :=
  match step with
  | .route a => inferInstanceAs (Decidable (∃ i, selectedSlot a.event.slot = some i ∧
      a.event.kind = .down ∧ r.owner i = .cube ∧ (r.panelOpen = true ∨ a.event.y < ofInt r.barH)))
  | .drain | .setPanelOpen _ | .reset => isFalse id

/-- The router of the tablet. -/
def tabletRouter : TouchRouter ℚ ℚ := (touchRouterNew 1024 600 48 416 56 560 400).get rfl

def finger (kind : TouchKind) (slot : Int) (x y : ℚ) : Arrival ℚ ℚ :=
  { event := { kind, slot, x, y, t := 1 }, memory := true }

/-- Two fingers on the open panel. -/
def twoFingers : List (RouterCall ℚ ℚ) :=
  [.setPanelOpen 1, .feed [finger .down 2 700 70, finger .down 3 750 200]]

theorem two_fingers_one_owner :
    Throughout advance OnePanelOwner tabletRouter (twoFingers.flatMap RouterCall.steps) := by
  have hadmits : Admits advance (fun r step => ¬ Usurps r step) tabletRouter
      (twoFingers.flatMap RouterCall.steps) := by decide +kernel
  exact (one_panel_owner_iff (Option.some_get rfl).symm twoFingers).mpr hadmits.at_split

/-- Two fingers pull the panel down; while the second one pulls, a third one is on the panel. -/
def twoPulls : List (Arrival ℚ ℚ) :=
  [finger .down 0 900 10, finger .down 1 800 10, finger .move 0 900 80, finger .up 0 900 80,
    finger .down 2 800 200, finger .move 1 800 80, finger .up 1 800 80, finger .down 3 700 200]

/-- The panel gets two contacts at once. -/
theorem two_pulls_two_owners :
    (∀ i, Nested (ContactStream.contactMarks i (twoPulls.map Arrival.event))) ∧
      ¬ OnePanelOwner ([RouterCall.feed twoPulls].foldl call tabletRouter) := by
  decide +kernel

/-- A finger that leaves the cube and comes back to it. -/
def cubeFinger : List (RouterCall ℚ ℚ) :=
  [.feed [finger .down 0 500 300], .feed [finger .up 0 500 300, finger .down 0 510 300]]

theorem cube_finger_reported :
    ((touchRouterFeed (call tabletRouter (.feed [finger .down 0 500 300]))
      (some [finger .up 0 500 300, finger .down 0 510 300])).1.cube 0).active = true ↔
    (touchRouterFeed (call tabletRouter (.feed [finger .down 0 500 300]))
      (some [finger .up 0 500 300, finger .down 0 510 300])).2.owner 0 = .cube := by
  have hadmits : Admits advance (fun r step => ¬ Replaces r step) tabletRouter
      (cubeFinger.flatMap RouterCall.steps) := by decide +kernel
  exact cube_reports_owned (Option.some_get rfl).symm cubeFinger hadmits.at_split
    [.feed [finger .down 0 500 300]] [finger .up 0 500 300, finger .down 0 510 300] [] rfl 0

/-- A finger on the cube that is put down again on the bar: the cube keeps it for ever. -/
theorem replaced_finger_stays :
    let r := call (call tabletRouter (.feed [finger .down 0 500 300])) (.feed [finger .down 0 500 10])
    let fed := touchRouterFeed r (some [finger .up 0 500 10])
    (fed.1.cube 0).active = true ∧ fed.2.owner 0 = .none := by
  decide +kernel

end Fingers

end Taq102.Touch
