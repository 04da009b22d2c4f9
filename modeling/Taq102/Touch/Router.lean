import Taq102.Touch.Decoder

/-! The touch router (`touch_router.c`): each contact belongs to the cube, to the panel, to the bar,
or to nobody. Whether `realloc` would find memory comes with each event. -/
namespace Taq102.Touch
open Taq102.Lib CFloat

def panelOutputCapacity : Nat := 32
def openDragDistance : ℚ := 60
def closeDragDistance : ℚ := 60
def handleWidth : Int := 36
def handleHeight : Int := 5
def handleTop : Int := 10

inductive ContactOwner where
  | none
  | candidate
  | cube
  | panel
  | panelIgnored
  deriving DecidableEq, Repr

/-- Neither the cube nor the panel sees such a contact. -/
def ContactOwner.isForeign : ContactOwner → Bool
  | .none | .candidate | .panelIgnored => true
  | .cube | .panel => false

structure RoutedContact (F : Type) where
  owner : ContactOwner
  startY : F
  openingTriggered : Bool
  dismissOnRelease : Bool
  handleDrag : Bool
  closingTriggered : Bool

structure CubeSlot (F : Type) where
  active : Bool
  x : F
  y : F

abbrev CubeContacts (F : Type) := Fin touchMaxSlots → CubeSlot F

structure TouchRouter (F D : Type) where
  barH : Int
  panelOpen : Bool
  panelX : Int
  panelY : Int
  panelW : Int
  panelH : Int
  panelPrimary : Int
  contact : Fin touchMaxSlots → RoutedContact F
  cube : CubeContacts F
  pending : List (TouchEvent F D)
  pendingCapacity : Nat
  pendingError : Bool

/-- An event, and whether there is memory for a larger queue when it arrives. -/
structure Arrival (F D : Type) where
  event : TouchEvent F D
  memory : Bool

/-- What the events of one call ask the application to do with the panel. -/
structure Signals where
  openPanel : Bool
  closePanel : Bool
  deriving DecidableEq, Repr

structure RouterOut (F D : Type) where
  openPanel : Bool
  closePanel : Bool
  nPanel : Int
  panel : List (TouchEvent F D)
  cube : CubeContacts F

variable {F D : Type}

def TouchRouter.setContact (r : TouchRouter F D) (i : Fin touchMaxSlots) (c : RoutedContact F) :
    TouchRouter F D :=
  { r with contact := Function.update r.contact i c }

def TouchRouter.owner (r : TouchRouter F D) (i : Fin touchMaxSlots) : ContactOwner :=
  (r.contact i).owner

theorem setContact_owner (r : TouchRouter F D) (i j : Fin touchMaxSlots) (c : RoutedContact F) :
    (r.setContact i c).owner j = if j = i then c.owner else r.owner j := by
  change (Function.update r.contact i c j).owner = _
  rw [Function.update_apply]
  split <;> rfl

def appendPanel (r : TouchRouter F D) (a : Arrival F D) : TouchRouter F D :=
  if r.pending.length = r.pendingCapacity then
    if a.memory then
      { r with
        pending := r.pending ++ [a.event]
        pendingCapacity := if r.pendingCapacity ≠ 0 then r.pendingCapacity * 2 else 32 }
    else { r with pendingError := true }
  else { r with pending := r.pending ++ [a.event] }

/-- The events for the panel, and the answer `n_panel`. -/
def drainPanel (r : TouchRouter F D) : (Int × List (TouchEvent F D)) × TouchRouter F D :=
  if r.pendingError then ((-1, []), r)
  else
    let count := min r.pending.length panelOutputCapacity
    ((count, r.pending.take count), { r with pending := r.pending.drop count })

variable [CFloat F]

def pointInPanel (r : TouchRouter F D) (x y : F) : Bool :=
  decide (ofInt r.panelX ≤ x) && decide (x < ofInt (r.panelX + r.panelW)) &&
    decide (ofInt r.panelY ≤ y) && decide (y < ofInt (r.panelY + r.panelH))

def pointInHandle (r : TouchRouter F D) (x y : F) : Bool :=
  let x0 := r.panelX + (r.panelW - handleWidth).tdiv 2
  let y0 := r.panelY + handleTop
  decide (ofInt x0 ≤ x) && decide (x < ofInt (x0 + handleWidth)) && decide (ofInt y0 ≤ y) &&
    decide (y < ofInt (y0 + handleHeight))

/-- A record of `contact` that is all zero. -/
def noContact : RoutedContact F :=
  { owner := .none, startY := lit 0, openingTriggered := false, dismissOnRelease := false,
    handleDrag := false, closingTriggered := false }

def clearContact (r : TouchRouter F D) (slot : Fin touchMaxSlots) : TouchRouter F D :=
  { r.setContact slot noContact with
    panelPrimary := if r.panelPrimary = slotNumber slot then -1 else r.panelPrimary }

def newContact (owner : ContactOwner) (e : TouchEvent F D) : RoutedContact F :=
  { (noContact : RoutedContact F) with startY := e.y, owner }

/-- A contact put down while the panel is open: the first one is the panel's. -/
def beginPanel (r : TouchRouter F D) (slot : Fin touchMaxSlots) (a : Arrival F D) :
    TouchRouter F D :=
  if 0 ≤ r.panelPrimary then
    r.setContact slot (newContact .panelIgnored a.event)
  else
    appendPanel { r.setContact slot { newContact .panel a.event with
      dismissOnRelease := !pointInPanel r a.event.x a.event.y
      handleDrag := pointInHandle r a.event.x a.event.y } with
        panelPrimary := slotNumber slot } a

def beginContact (r : TouchRouter F D) (slot : Fin touchMaxSlots) (a : Arrival F D) :
    TouchRouter F D :=
  let r := clearContact r slot
  if r.panelOpen then beginPanel r slot a
  else if a.event.y < ofInt r.barH then
    r.setContact slot (newContact .candidate a.event)
  else
    { r.setContact slot (newContact .cube a.event) with
      cube := Function.update r.cube slot { active := true, x := a.event.x, y := a.event.y } }

/-- The contact is lifted or cancelled. -/
def TouchKind.ends : TouchKind → Bool
  | .up | .cancel => true
  | .down | .move => false

/-- The MOVE with which a contact from the bar opens the panel. -/
def opens (r : TouchRouter F D) (slot : Fin touchMaxSlots) (e : TouchEvent F D) : Bool :=
  decide (e.kind = .move) && !(r.contact slot).openingTriggered &&
    decide ((lit openDragDistance : F) ≤ e.y - (r.contact slot).startY)

def routeCandidate (r : TouchRouter F D) (slot : Fin touchMaxSlots) (e : TouchEvent F D) :
    Signals × TouchRouter F D :=
  if opens r slot e then
    ({ openPanel := true, closePanel := false },
      { r.setContact slot { r.contact slot with openingTriggered := true } with
        panelOpen := true
        panelPrimary := slotNumber slot })
  else
    ({ openPanel := false, closePanel := false },
      if e.kind.ends then clearContact r slot else r)

def routeCube (r : TouchRouter F D) (slot : Fin touchMaxSlots) (e : TouchEvent F D) :
    TouchRouter F D :=
  if e.kind = .move then
    { r with cube := Function.update r.cube slot { r.cube slot with x := e.x, y := e.y } }
  else if e.kind.ends then
    clearContact { r with
      cube := Function.update r.cube slot { r.cube slot with active := false } } slot
  else r

/-- The MOVE with which the panel is pushed away by its handle. -/
def closes (r : TouchRouter F D) (slot : Fin touchMaxSlots) (e : TouchEvent F D) : Bool :=
  decide (e.kind = .move) && (r.contact slot).handleDrag && !(r.contact slot).closingTriggered &&
    decide ((lit closeDragDistance : F) ≤ (r.contact slot).startY - e.y)

def routePanel (r : TouchRouter F D) (slot : Fin touchMaxSlots) (a : Arrival F D) :
    Signals × TouchRouter F D :=
  let e := a.event
  let r := appendPanel r a
  let closing := closes r slot e
  let dismissed := decide (e.kind = .up) && (r.contact slot).dismissOnRelease
  let r := if closing then r.setContact slot { r.contact slot with closingTriggered := true } else r
  ({ openPanel := false, closePanel := closing || dismissed },
    if e.kind.ends then clearContact r slot else r)

def routeIgnored (r : TouchRouter F D) (slot : Fin touchMaxSlots) (e : TouchEvent F D) :
    TouchRouter F D :=
  if e.kind.ends then clearContact r slot else r

def quietSignals : Signals := { openPanel := false, closePanel := false }

/-- An event of a contact that was put down before. -/
def routeOwned (r : TouchRouter F D) (slot : Fin touchMaxSlots) (a : Arrival F D) :
    Signals × TouchRouter F D :=
  match r.owner slot with
  | .candidate => routeCandidate r slot a.event
  | .cube => (quietSignals, routeCube r slot a.event)
  | .panel => routePanel r slot a
  | .panelIgnored => (quietSignals, routeIgnored r slot a.event)
  | .none => (quietSignals, r)

/-- One turn of the loop of `touch_router_feed`. -/
def route (r : TouchRouter F D) (a : Arrival F D) : Signals × TouchRouter F D :=
  match selectedSlot a.event.slot with
  | none => (quietSignals, r)
  | some slot =>
    if a.event.kind = .down then (quietSignals, beginContact r slot a) else routeOwned r slot a

def touchRouterNew (w h barH panelX panelY panelW panelH : Int) : Option (TouchRouter F D) :=
  if w ≤ 0 ∨ h ≤ 0 ∨ barH < 0 ∨ panelW ≤ 0 ∨ panelH ≤ 0 then none
  else some
    { barH, panelOpen := false, panelX, panelY, panelW, panelH, panelPrimary := -1,
      contact := fun _ => noContact, cube := fun _ => { active := false, x := lit 0, y := lit 0 },
      pending := [], pendingCapacity := 0, pendingError := false }

def touchRouterSetPanelOpen (r : TouchRouter F D) (isOpen : Int) : TouchRouter F D :=
  { r with panelOpen := decide (isOpen ≠ 0) }

def touchRouterReset (r : TouchRouter F D) : TouchRouter F D :=
  { r with
    contact := fun _ => noContact
    cube := fun _ => { active := false, x := lit 0, y := lit 0 }
    panelPrimary := -1
    pending := []
    pendingError := false }

/-- The loop of `touch_router_feed`. -/
def routeAll (r : TouchRouter F D) (events : List (Arrival F D)) : Signals × TouchRouter F D :=
  events.foldl (fun state a =>
    let routed := route state.2 a
    ({ openPanel := state.1.openPanel || routed.1.openPanel
       closePanel := state.1.closePanel || routed.1.closePanel }, routed.2)) (quietSignals, r)

/-- A call with a negative count or without its events is refused. -/
def touchRouterFeed (r : TouchRouter F D) (events : Option (List (Arrival F D))) :
    RouterOut F D × TouchRouter F D :=
  match events with
  | none =>
    ({ openPanel := false, closePanel := false, nPanel := -1, panel := [],
       cube := fun _ => { active := false, x := lit 0, y := lit 0 } }, r)
  | some events =>
    let routed := routeAll r events
    let drained := drainPanel routed.2
    ({ openPanel := routed.1.openPanel, closePanel := routed.1.closePanel, nPanel := drained.1.1,
       panel := drained.1.2, cube := routed.2.cube }, drained.2)

theorem routeAll_router (r : TouchRouter F D) (events : List (Arrival F D)) :
    (routeAll r events).2 = events.foldl (fun r a => (route r a).2) r :=
  (List.foldl_hom Prod.snd fun _ _ => rfl).symm

/-- Everything one event can do to the router. -/
theorem route_cases {P : TouchRouter F D → Prop} (r : TouchRouter F D) (a : Arrival F D)
    (outside : selectedSlot a.event.slot = none → P r)
    (press : ∀ i, selectedSlot a.event.slot = some i → a.event.kind = .down →
      P (beginContact r i a))
    (idle : ∀ i, selectedSlot a.event.slot = some i → a.event.kind ≠ .down →
      (r.owner i).isForeign = true → (r.owner i = .candidate → opens r i a.event = false) → P r)
    (lift : ∀ i, selectedSlot a.event.slot = some i → a.event.kind.ends = true →
      (r.owner i).isForeign = true → P (clearContact r i))
    (pull : ∀ i, selectedSlot a.event.slot = some i → r.owner i = .candidate →
      opens r i a.event = true → P (routeCandidate r i a.event).2)
    (turn : ∀ i, selectedSlot a.event.slot = some i → r.owner i = .cube → a.event.kind ≠ .down →
      P (routeCube r i a.event))
    (drag : ∀ i, selectedSlot a.event.slot = some i → r.owner i = .panel → a.event.kind ≠ .down →
      P (routePanel r i a).2) : P (route r a).2 := by
  rw [route]
  rcases hslot : selectedSlot a.event.slot with _ | i
  · exact outside hslot
  dsimp only
  split
  · exact press i hslot ‹_›
  rename_i hkind
  have hforeign (hf : (r.owner i).isForeign = true)
      (hstays : r.owner i = .candidate → opens r i a.event = false) :
      P (if a.event.kind.ends = true then clearContact r i else r) := by
    split
    · exact lift i hslot ‹_› hf
    · exact idle i hslot hkind hf hstays
  rw [routeOwned]
  rcases howner : r.owner i with _ | _ | _ | _ | _
  · exact idle i hslot hkind (by rw [howner]; rfl) fun hc => nomatch howner.symm.trans hc
  · by_cases hopens : opens r i a.event = true
    · exact pull i hslot howner hopens
    · dsimp only
      rw [routeCandidate, if_neg hopens]
      exact hforeign (by rw [howner]; rfl) fun _ => eq_false_of_ne_true hopens
  · exact turn i hslot howner hkind
  · exact drag i hslot howner hkind
  · exact hforeign (by rw [howner]; rfl) fun hc => nomatch howner.symm.trans hc

/-! What the parts do to the owners, to the cube and to the queue. -/

omit [CFloat F] in
/-- Only the queue is longer. -/
theorem appendPanel_same (r : TouchRouter F D) (a : Arrival F D) :
    (appendPanel r a).owner = r.owner ∧ (appendPanel r a).cube = r.cube ∧
      (appendPanel r a).panelPrimary = r.panelPrimary := by
  rw [appendPanel]
  split
  · split <;> exact ⟨rfl, rfl, rfl⟩
  · exact ⟨rfl, rfl, rfl⟩

omit [CFloat F] in
theorem appendPanel_pending (r : TouchRouter F D) {a : Arrival F D} (hmemory : a.memory = true) :
    (appendPanel r a).pending = r.pending ++ [a.event] ∧
      (appendPanel r a).pendingError = r.pendingError := by
  rw [appendPanel]
  split <;> exact ⟨rfl, rfl⟩

theorem clearContact_owner (r : TouchRouter F D) (i j : Fin touchMaxSlots) :
    (clearContact r i).owner j = if j = i then .none else r.owner j :=
  setContact_owner r i j noContact

theorem opens_move {r : TouchRouter F D} {i : Fin touchMaxSlots} {e : TouchEvent F D}
    (h : opens r i e = true) : e.kind = .move := by
  rw [opens, Bool.and_eq_true, Bool.and_eq_true] at h
  exact of_decide_eq_true h.1.1

/-- A contact put down gets an owner; its earlier record is gone. -/
structure Begun (r r' : TouchRouter F D) (i : Fin touchMaxSlots) (a : Arrival F D)
    (owner : ContactOwner) : Prop where
  owners : ∀ j, r'.owner j = if j = i then owner else r.owner j
  primary : r'.panelPrimary =
    if owner = .panel then slotNumber i else (clearContact r i).panelPrimary
  first : owner = .panel → (clearContact r i).panelPrimary < 0
  cube : r'.cube = if owner = .cube then
    Function.update r.cube i { active := true, x := a.event.x, y := a.event.y } else r.cube
  pending : a.memory = true →
    r'.pending = if owner = .panel then r.pending ++ [a.event] else r.pending
  error : a.memory = true → r'.pendingError = r.pendingError

/-- The owner that `begin_contact` gives. -/
def firstOwner (r : TouchRouter F D) (i : Fin touchMaxSlots) (e : TouchEvent F D) : ContactOwner :=
  if r.panelOpen then
    if 0 ≤ (clearContact r i).panelPrimary then .panelIgnored else .panel
  else if e.y < ofInt r.barH then .candidate
  else .cube

theorem beginContact_spec (r : TouchRouter F D) (i : Fin touchMaxSlots) (a : Arrival F D) :
    Begun r (beginContact r i a) i a (firstOwner r i a.event) := by
  have howners (c : RoutedContact F) (j : Fin touchMaxSlots) :
      ((clearContact r i).setContact i c).owner j = if j = i then c.owner else r.owner j := by
    rw [setContact_owner, clearContact_owner]
    split <;> rfl
  rw [beginContact, firstOwner]
  have hopen : (clearContact r i).panelOpen = r.panelOpen := rfl
  have hbar : (clearContact r i).barH = r.barH := rfl
  simp only [hopen, hbar]
  split
  · rw [beginPanel]
    split
    · exact ⟨howners _, rfl, nofun, rfl, fun _ => rfl, fun _ => rfl⟩
    · rename_i hfree
      obtain ⟨howner, hcube, hprimary⟩ := appendPanel_same (F := F) (D := D) _ a
      refine ⟨fun j => (congrFun howner j).trans (howners _ j), hprimary, fun _ => not_le.mp hfree,
        hcube, fun hmemory => (appendPanel_pending _ hmemory).1,
        fun hmemory => (appendPanel_pending _ hmemory).2⟩
  · split
    · exact ⟨howners _, rfl, nofun, rfl, fun _ => rfl, fun _ => rfl⟩
    · exact ⟨howners _, rfl, nofun, rfl, fun _ => rfl, fun _ => rfl⟩

/-- A panel contact's event is queued; its record goes when it ends. -/
structure Dragged (r r' : TouchRouter F D) (i : Fin touchMaxSlots) (a : Arrival F D) : Prop where
  owners : r'.owner = if a.event.kind.ends then (clearContact r i).owner else r.owner
  primary : r'.panelPrimary =
    if a.event.kind.ends then (clearContact r i).panelPrimary else r.panelPrimary
  cube : r'.cube = r.cube
  pending : a.memory = true → r'.pending = r.pending ++ [a.event]
  error : a.memory = true → r'.pendingError = r.pendingError

theorem routePanel_spec (r : TouchRouter F D) (i : Fin touchMaxSlots) (a : Arrival F D) :
    Dragged r (routePanel r i a).2 i a := by
  obtain ⟨moved, hmoved⟩ : ∃ moved, moved =
      (if closes (appendPanel r a) i a.event then
        (appendPanel r a).setContact i { (appendPanel r a).contact i with closingTriggered := true }
      else appendPanel r a) := ⟨_, rfl⟩
  have hresult : (routePanel r i a).2 = if a.event.kind.ends then clearContact moved i else moved := by
    rw [hmoved]
    rfl
  obtain ⟨howner, hcube, hprimary⟩ := appendPanel_same r a
  have hsame : moved.owner = r.owner ∧ moved.cube = r.cube ∧ moved.panelPrimary = r.panelPrimary ∧
      moved.pending = (appendPanel r a).pending ∧ moved.pendingError = (appendPanel r a).pendingError := by
    rw [hmoved]
    split
    · refine ⟨?_, hcube, hprimary, rfl, rfl⟩
      funext j
      rw [setContact_owner]
      split
      · rename_i hj
        rw [hj]
        exact congrFun howner i
      · exact congrFun howner j
    · exact ⟨howner, hcube, hprimary, rfl, rfl⟩
  obtain ⟨howner, hcube, hprimary, hpending, herror⟩ := hsame
  rw [hresult]
  refine ⟨?_, ?_, ?_, fun hmemory => ?_, fun hmemory => ?_⟩
  · split
    · funext j
      rw [clearContact_owner, clearContact_owner, howner]
    · exact howner
  · split
    · rw [clearContact, clearContact]
      dsimp only
      rw [hprimary]
    · exact hprimary
  · split
    · exact hcube
    · exact hcube
  · rw [← (appendPanel_pending r hmemory).1, ← hpending]
    split <;> rfl
  · rw [← (appendPanel_pending r hmemory).2, ← herror]
    split <;> rfl

/-- The bar keeps the contact that opens the panel. -/
theorem pull_owner {r : TouchRouter F D} {i : Fin touchMaxSlots} {e : TouchEvent F D}
    (hopens : opens r i e = true) : (routeCandidate r i e).2.owner = r.owner := by
  rw [routeCandidate, if_pos hopens]
  funext j
  refine (setContact_owner r i j _).trans ?_
  split
  · rename_i hj
    rw [hj]
    rfl
  · rfl

end Taq102.Touch
