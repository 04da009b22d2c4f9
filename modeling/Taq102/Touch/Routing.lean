import Taq102.Lib.Outlet
import Taq102.Touch.Ownership

/-! Where a contact's events go: to the cube, to the queue for the panel, or nowhere, from its DOWN
to its end; and what the panel is given. -/
namespace Taq102.Touch
open Taq102.Lib CFloat Transition

inductive Destination where
  | cube
  | panel
  | nowhere
  deriving DecidableEq, Repr

def ContactOwner.destination : ContactOwner → Destination
  | .cube => .cube
  | .panel => .panel
  | .none | .candidate | .panelIgnored => .nowhere

variable {F D : Type}

/-- What an event means to a slot of the cube. -/
def cubeFollows (c : CubeSlot F) (e : TouchEvent F D) : CubeSlot F :=
  match e.kind with
  | .down => { active := true, x := e.x, y := e.y }
  | .move => { c with x := e.x, y := e.y }
  | .up | .cancel => { c with active := false }

/-- The event went where it is said to, and to no other place. -/
def Goes (r r' : TouchRouter F D) (e : TouchEvent F D) : Destination → Prop
  | .cube => r'.pending = r.pending ∧ ∃ i, selectedSlot e.slot = some i ∧
      r'.cube = Function.update r.cube i (cubeFollows (r.cube i) e)
  | .panel => r'.cube = r.cube ∧ r'.pending = r.pending ++ [e]
  | .nowhere => r'.cube = r.cube ∧ r'.pending = r.pending

variable [CFloat F]

/-- The destination of an event: its contact's, which a DOWN is given. -/
def destination (r : TouchRouter F D) (a : Arrival F D) : Destination :=
  match selectedSlot a.event.slot with
  | none => .nowhere
  | some i =>
    if a.event.kind = .down then ((beginContact r i a).owner i).destination
    else (r.owner i).destination

/-- The events whose contact is the panel's, in the order of their arrival. -/
def panelEvents (r : TouchRouter F D) : List (RouterStep F D) → List (TouchEvent F D)
  | [] => []
  | .route a :: rest =>
    (if destination r a = .panel then [a.event] else []) ++ panelEvents (route r a).2 rest
  | step :: rest => panelEvents (advance r step) rest

section Steps
variable {r : TouchRouter F D} {a : Arrival F D}

theorem destination_slot {i : Fin touchMaxSlots} (hslot : selectedSlot a.event.slot = some i) :
    destination r a = if a.event.kind = .down then ((beginContact r i a).owner i).destination
      else (r.owner i).destination := by
  rw [destination, hslot]

theorem goes_begin {i : Fin touchMaxSlots} (hslot : selectedSlot a.event.slot = some i)
    (hkind : a.event.kind = .down) (hmemory : a.memory = true) :
    Goes r (beginContact r i a) a.event (destination r a) := by
  have hbegun := beginContact_spec r i a
  have howner : (beginContact r i a).owner i = firstOwner r i a.event :=
    (hbegun.owners i).trans (if_pos rfl)
  have hpending := hbegun.pending hmemory
  have hcube := hbegun.cube
  rw [destination_slot hslot, if_pos hkind, howner]
  rcases hfirst : firstOwner r i a.event with _ | _ | _ | _ | _
  · rw [hfirst] at hpending hcube
    exact ⟨hcube, hpending⟩
  · rw [hfirst] at hpending hcube
    exact ⟨hcube, hpending⟩
  · rw [hfirst] at hpending hcube
    refine ⟨hpending, i, hslot, ?_⟩
    rw [cubeFollows, hkind]
    exact hcube
  · rw [hfirst] at hpending hcube
    exact ⟨hcube, hpending⟩
  · rw [hfirst] at hpending hcube
    exact ⟨hcube, hpending⟩

theorem destination_foreign {i : Fin touchMaxSlots} (hslot : selectedSlot a.event.slot = some i)
    (hkind : a.event.kind ≠ .down) (hforeign : (r.owner i).isForeign = true) :
    destination r a = .nowhere := by
  rw [destination_slot hslot, if_neg hkind]
  rcases howner : r.owner i with _ | _ | _ | _ | _
  · rfl
  · rfl
  · rw [howner] at hforeign
    cases hforeign
  · rw [howner] at hforeign
    cases hforeign
  · rfl

theorem goes_turn {i : Fin touchMaxSlots} (hslot : selectedSlot a.event.slot = some i)
    (howner : r.owner i = .cube) (hkind : a.event.kind ≠ .down) :
    Goes r (routeCube r i a.event) a.event (destination r a) := by
  rw [destination_slot hslot, if_neg hkind, howner, routeCube]
  rcases hevent : a.event.kind with _ | _ | _ | _
  · exact absurd hevent hkind
  · refine ⟨rfl, i, hslot, ?_⟩
    rw [cubeFollows, hevent]
    rfl
  · refine ⟨rfl, i, hslot, ?_⟩
    rw [cubeFollows, hevent]
    rfl
  · refine ⟨rfl, i, hslot, ?_⟩
    rw [cubeFollows, hevent]
    rfl

theorem ends_ne_down {kind : TouchKind} (h : kind.ends = true) : kind ≠ .down := by
  rintro rfl
  cases h

/-- An event goes to the destination of its contact. -/
theorem goes_route (r : TouchRouter F D) (hmemory : a.memory = true) :
    Goes r (route r a).2 a.event (destination r a) := by
  refine route_cases (P := fun r' => Goes r r' a.event (destination r a)) r a ?outside ?press ?idle
    ?lift ?pull ?turn ?drag
  case outside =>
    intro hslot
    rw [destination, hslot]
    exact ⟨rfl, rfl⟩
  case press => exact fun i hslot hkind => goes_begin hslot hkind hmemory
  case idle =>
    intro i hslot hkind hforeign _
    rw [destination_foreign hslot hkind hforeign]
    exact ⟨rfl, rfl⟩
  case lift =>
    intro i hslot hends hforeign
    rw [destination_foreign hslot (ends_ne_down hends) hforeign]
    exact ⟨rfl, rfl⟩
  case pull =>
    intro i hslot howner hopens
    have hkind : a.event.kind ≠ .down := fun h => nomatch h.symm.trans (opens_move hopens)
    rw [destination_slot hslot, if_neg hkind, howner, routeCandidate, if_pos hopens]
    exact ⟨rfl, rfl⟩
  case turn => exact fun i hslot howner hkind => goes_turn hslot howner hkind
  case drag =>
    intro i hslot howner hkind
    have hdragged := routePanel_spec r i a
    rw [destination_slot hslot, if_neg hkind, howner]
    exact ⟨hdragged.cube, hdragged.pending hmemory⟩

/-- The queue grows by the panel's events. -/
theorem pending_route (r : TouchRouter F D) (hmemory : a.memory = true) :
    (route r a).2.pending = r.pending ++ if destination r a = .panel then [a.event] else [] := by
  have hgoes := goes_route r hmemory
  rcases hdest : destination r a with _ | _ | _
  · rw [hdest] at hgoes
    rw [if_neg nofun, List.append_nil]
    exact hgoes.1
  · rw [hdest] at hgoes
    rw [if_pos rfl]
    exact hgoes.2
  · rw [hdest] at hgoes
    rw [if_neg nofun, List.append_nil]
    exact hgoes.2

theorem error_route (r : TouchRouter F D) (hmemory : a.memory = true) :
    (route r a).2.pendingError = r.pendingError := by
  refine route_cases (P := fun r' => r'.pendingError = r.pendingError) r a ?outside ?press ?idle
    ?lift ?pull ?turn ?drag
  case outside => exact fun _ => rfl
  case press => exact fun i _ _ => (beginContact_spec r i a).error hmemory
  case idle => exact fun _ _ _ _ _ => rfl
  case lift => exact fun _ _ _ _ => rfl
  case pull =>
    intro i _ _ hopens
    rw [routeCandidate, if_pos hopens]
    rfl
  case turn =>
    intro i _ _ _
    rw [routeCube]
    split
    · rfl
    split <;> rfl
  case drag => exact fun i _ _ _ => (routePanel_spec r i a).error hmemory

/-- A step that neither begins nor ends the slot's contact. -/
def Leaves (i : Fin touchMaxSlots) : RouterStep F D → Prop
  | .route a => selectedSlot a.event.slot = some i → a.event.kind = .move
  | .drain | .setPanelOpen _ => True
  | .reset => False

omit [CFloat F] in
theorem owner_drain (r : TouchRouter F D) : (drainPanel r).2.owner = r.owner := by
  rw [drainPanel]
  split <;> rfl

theorem owner_clear {i j : Fin touchMaxSlots} (hij : i ≠ j) :
    (clearContact r j).owner i = r.owner i := by
  rw [clearContact_owner, if_neg hij]

theorem owner_leaves {i : Fin touchMaxSlots} {step : RouterStep F D} (h : Leaves i step) :
    (advance r step).owner i = r.owner i := by
  cases step with
  | drain => exact congrFun (owner_drain r) i
  | setPanelOpen => rfl
  | reset => exact h.elim
  | route a =>
    have hother {j : Fin touchMaxSlots} (hslot : selectedSlot a.event.slot = some j)
        (hkind : a.event.kind ≠ .move) : i ≠ j := by
      rintro rfl
      exact hkind (h hslot)
    have hmove (hends : a.event.kind.ends = true) : a.event.kind ≠ .move := by
      intro hkind
      rw [hkind] at hends
      cases hends
    refine route_cases (P := fun r' => r'.owner i = r.owner i) r a ?outside ?press ?idle ?lift ?pull
      ?turn ?drag
    case outside => exact fun _ => rfl
    case press =>
      intro j hslot hkind
      have hij : i ≠ j := hother hslot (by rw [hkind]; exact nofun)
      rw [(beginContact_spec r j a).owners, if_neg hij]
    case idle => exact fun _ _ _ _ _ => rfl
    case lift => exact fun j hslot hends _ => owner_clear (hother hslot (hmove hends))
    case pull => exact fun j _ _ hopens => congrFun (pull_owner hopens) i
    case turn =>
      intro j hslot _ _
      rw [routeCube]
      split
      · rfl
      split
      · rename_i hends
        exact owner_clear (r := { r with cube := _ }) (hother hslot (hmove hends))
      · rfl
    case drag =>
      intro j hslot _ _
      rw [(routePanel_spec r j a).owners]
      split
      · rename_i hends
        exact owner_clear (hother hslot (hmove hends))
      · rfl

theorem owner_leaves_all {i : Fin touchMaxSlots} {steps : List (RouterStep F D)}
    (h : ∀ step ∈ steps, Leaves i step) : (steps.foldl advance r).owner i = r.owner i := by
  induction steps generalizing r with
  | nil => rfl
  | cons step rest ih =>
    rw [List.foldl_cons, ih fun s hs => h s (List.mem_cons_of_mem step hs)]
    exact owner_leaves (h step List.mem_cons_self)

end Steps

/-- Every contact keeps the destination its DOWN was given. -/
def KeepsDestination (r : TouchRouter F D) (steps : List (RouterStep F D)) : Prop :=
  ∀ first down mid a rest, steps = first ++ .route down :: (mid ++ .route a :: rest) →
    down.event.kind = .down → a.event.slot = down.event.slot → a.event.kind ≠ .down →
    (∀ b, .route b ∈ mid → b.event.slot = down.event.slot → b.event.kind = .move) →
    destination ((first ++ .route down :: mid).foldl advance r) a =
      destination (first.foldl advance r) down

/-- Every event goes to its contact's destination only. -/
def GoesOneWay (r : TouchRouter F D) (steps : List (RouterStep F D)) : Prop :=
  ∀ first a rest, steps = first ++ .route a :: rest →
    Goes (first.foldl advance r) ((first ++ [.route a]).foldl advance r) a.event
      (destination (first.foldl advance r) a)

section Runs
variable {r : TouchRouter F D} {steps : List (RouterStep F D)}

theorem selectedSlot_inj {m n : Int} {i : Fin touchMaxSlots} (hm : selectedSlot m = some i)
    (hn : selectedSlot n = some i) : m = n := by
  rw [selectedSlot] at hm hn
  split at hm
  · split at hn
    · cases hm
      have hval := congrArg Fin.val (Option.some_inj.mp hn)
      dsimp only at hval
      omega
    · cases hn
  · cases hm

theorem keepsDestination (hreset : ∀ step ∈ steps, step ≠ .reset) : KeepsDestination r steps := by
  intro first down mid a rest heq hdown hslot hkind hmid
  rw [destination, destination, hslot]
  rcases hselected : selectedSlot down.event.slot with _ | i
  · rfl
  dsimp only
  rw [if_neg hkind, if_pos hdown, List.foldl_append, List.foldl_cons]
  have hbegun : advance (first.foldl advance r) (.route down) =
      beginContact (first.foldl advance r) i down := by
    change (route _ down).2 = _
    rw [route, hselected]
    dsimp only
    rw [if_pos hdown]
  have hleaves : ∀ step ∈ mid, Leaves i step := by
    intro step hstep
    cases step with
    | route b => exact fun hb => hmid b hstep (selectedSlot_inj hb hselected)
    | drain => exact trivial
    | setPanelOpen => exact trivial
    | reset => exact hreset .reset (heq ▸ by simp [hstep]) rfl
  rw [owner_leaves_all hleaves, hbegun]

theorem goesOneWay (hmemory : ∀ a, .route a ∈ steps → a.memory = true) : GoesOneWay r steps := by
  intro first a rest heq
  rw [List.foldl_append]
  exact goes_route _ (hmemory a (heq ▸ by simp))

end Runs

/-! What the panel is given. -/

/-- A router, and the panel events it has handed out. -/
structure Delivery (F D : Type) where
  router : TouchRouter F D
  delivered : List (TouchEvent F D)

def Delivery.advance (d : Delivery F D) (step : RouterStep F D) : Delivery F D where
  router := Touch.advance d.router step
  delivered := match step with
    | .drain => d.delivered ++ (drainPanel d.router).1.2
    | _ => d.delivered

/-- A call, with the panel events it answers. -/
def Delivery.call (d : Delivery F D) (c : RouterCall F D) : Delivery F D where
  router := Touch.call d.router c
  delivered := match c with
    | .feed events => d.delivered ++ (touchRouterFeed d.router (some events)).1.panel
    | _ => d.delivered

def Delivery.outlet (d : Delivery F D) : Outlet (TouchEvent F D) :=
  { given := d.delivered, waiting := d.router.pending }

section Deliveries
variable {d : Delivery F D}

theorem routes_eq (d : Delivery F D) (events : List (Arrival F D)) :
    (events.map RouterStep.route).foldl Delivery.advance d =
      { d with router := (routeAll d.router events).2 } := by
  rw [routeAll_router]
  induction events generalizing d with
  | nil => rfl
  | cons a rest ih =>
    rw [List.map_cons, List.foldl_cons, ih]
    rfl

theorem delivery_call (d : Delivery F D) (c : RouterCall F D) :
    d.call c = c.steps.foldl Delivery.advance d := by
  cases c with
  | feed events =>
    rw [RouterCall.steps, List.foldl_append, routes_eq]
    rfl
  | setPanelOpen isOpen => rfl
  | reset => rfl

theorem delivery_calls (d : Delivery F D) (calls : List (RouterCall F D)) :
    calls.foldl Delivery.call d = (calls.flatMap RouterCall.steps).foldl Delivery.advance d := by
  induction calls generalizing d with
  | nil => rfl
  | cons c rest ih => rw [List.foldl_cons, List.flatMap_cons, List.foldl_append, ih, delivery_call]

theorem take_min_length {α : Type} (xs : List α) (n : Nat) : xs.take (min xs.length n) = xs.take n := by
  rcases le_total xs.length n with hle | hle
  · rw [min_eq_left hle, List.take_length, List.take_of_length_le hle]
  · rw [min_eq_right hle]

theorem drop_min_length {α : Type} (xs : List α) (n : Nat) : xs.drop (min xs.length n) = xs.drop n := by
  rcases le_total xs.length n with hle | hle
  · rw [min_eq_left hle, List.drop_length, List.drop_of_length_le hle]
  · rw [min_eq_right hle]

theorem outlet_drain (herror : d.router.pendingError = false) :
    (d.advance .drain).outlet = d.outlet.draw 32 ∧
      (d.advance .drain).router.pendingError = false := by
  have hpanel : (drainPanel d.router).1.2 = d.router.pending.take 32 := by
    rw [drainPanel, herror]
    exact take_min_length _ 32
  have hpending : (drainPanel d.router).2.pending = d.router.pending.drop 32 := by
    rw [drainPanel, herror]
    exact drop_min_length _ 32
  refine ⟨?_, ?_⟩
  · change Outlet.mk (d.delivered ++ (drainPanel d.router).1.2) (drainPanel d.router).2.pending = _
    rw [hpanel, hpending]
    rfl
  · change (drainPanel d.router).2.pendingError = false
    rw [drainPanel, herror]
    rfl

/-- The queue, with what it has handed out, grows by the panel's events. -/
theorem outlet_steps {steps : List (RouterStep F D)} (hreset : ∀ step ∈ steps, step ≠ .reset)
    (hmemory : ∀ a, .route a ∈ steps → a.memory = true) (herror : d.router.pendingError = false) :
    (steps.foldl Delivery.advance d).outlet.total = d.outlet.total ++ panelEvents d.router steps ∧
      (steps.foldl Delivery.advance d).router.pendingError = false := by
  induction steps generalizing d with
  | nil => exact ⟨(List.append_nil _).symm, herror⟩
  | cons step rest ih =>
    have hrest := fun s hs => hreset s (List.mem_cons_of_mem step hs)
    have hroom := fun a ha => hmemory a (List.mem_cons_of_mem step ha)
    rw [List.foldl_cons]
    cases step with
    | route a =>
      have ha := hmemory a List.mem_cons_self
      have hnext : (d.advance (.route a)).router.pendingError = false :=
        (error_route d.router ha).trans herror
      obtain ⟨htotal, hend⟩ := ih hrest hroom hnext
      refine ⟨?_, hend⟩
      have hput : (d.advance (.route a)).outlet =
          d.outlet.put (if destination d.router a = .panel then [a.event] else []) := by
        rw [Delivery.outlet, Outlet.put, Delivery.outlet]
        exact congrArg _ (pending_route d.router ha)
      rw [htotal, hput, Outlet.total_put, List.append_assoc]
      rfl
    | drain =>
      obtain ⟨hdraw, hnext⟩ := outlet_drain herror
      obtain ⟨htotal, hend⟩ := ih hrest hroom hnext
      refine ⟨?_, hend⟩
      rw [htotal, hdraw, Outlet.total_draw]
      rfl
    | setPanelOpen isOpen => exact ih hrest hroom herror
    | reset => exact absurd rfl (hreset .reset List.mem_cons_self)

theorem outlet_drains (n : Nat) (herror : d.router.pendingError = false) :
    ((List.replicate n (.feed [])).foldl Delivery.call d).outlet =
      (List.replicate n 32).foldl Outlet.draw d.outlet := by
  induction n generalizing d with
  | zero => rfl
  | succ n ih =>
    obtain ⟨hdraw, hnext⟩ := outlet_drain herror
    rw [List.replicate_succ, List.foldl_cons, List.replicate_succ, List.foldl_cons, delivery_call,
      ← hdraw]
    exact ih hnext

omit [CFloat F] in
theorem route_mem_steps {calls : List (RouterCall F D)} {a : Arrival F D}
    (h : .route a ∈ calls.flatMap RouterCall.steps) : ∃ events, .feed events ∈ calls ∧ a ∈ events := by
  obtain ⟨c, hc, ha⟩ := List.mem_flatMap.mp h
  cases c with
  | feed events =>
    rcases List.mem_append.mp ha with ha | ha
    · obtain ⟨b, hb, heq⟩ := List.mem_map.mp ha
      cases heq
      exact ⟨events, hc, hb⟩
    · cases List.mem_singleton.mp ha
  | setPanelOpen => cases List.mem_singleton.mp ha
  | reset => cases List.mem_singleton.mp ha

omit [CFloat F] in
theorem reset_mem_steps {calls : List (RouterCall F D)} (h : .reset ∈ calls.flatMap RouterCall.steps) :
    .reset ∈ calls := by
  obtain ⟨c, hc, hreset⟩ := List.mem_flatMap.mp h
  cases c with
  | feed events =>
    rcases List.mem_append.mp hreset with hin | hin
    · obtain ⟨b, _, heq⟩ := List.mem_map.mp hin
      cases heq
    · cases List.mem_singleton.mp hin
  | setPanelOpen => cases List.mem_singleton.mp hreset
  | reset => exact hc

/-- In a run without resets and with memory for the queue, every contact has one destination, and the
panel is given its contacts' events, each once and in their order. -/
theorem contacts_routed {w h barH panelX panelY panelW panelH : Int} {r : TouchRouter F D}
    (hnew : touchRouterNew w h barH panelX panelY panelW panelH = some r)
    {calls : List (RouterCall F D)} (hreset : .reset ∉ calls)
    (hmemory : ∀ events, .feed events ∈ calls → ∀ a ∈ events, a.memory = true) :
    KeepsDestination r (calls.flatMap RouterCall.steps) ∧
      GoesOneWay r (calls.flatMap RouterCall.steps) ∧
      ∀ n, (calls.foldl Delivery.call ⟨r, []⟩).router.pending.length ≤ 32 * n →
        ((List.replicate n (.feed [])).foldl Delivery.call
          (calls.foldl Delivery.call ⟨r, []⟩)).delivered =
            panelEvents r (calls.flatMap RouterCall.steps) := by
  obtain ⟨_, _, _, hpending, herror⟩ := touchRouterNew_eq hnew
  have hnone : ∀ step ∈ calls.flatMap RouterCall.steps, step ≠ .reset := by
    rintro step hstep rfl
    exact hreset (reset_mem_steps hstep)
  have hroom : ∀ a, .route a ∈ calls.flatMap RouterCall.steps → a.memory = true := by
    intro a ha
    obtain ⟨events, hevents, hin⟩ := route_mem_steps ha
    exact hmemory events hevents a hin
  refine ⟨keepsDestination hnone, goesOneWay hroom, fun n hn => ?_⟩
  obtain ⟨htotal, hend⟩ := outlet_steps (d := ⟨r, []⟩) hnone hroom herror
  rw [← delivery_calls] at htotal hend
  have hdrained := congrArg Outlet.given (outlet_drains n hend)
  have hall : (calls.foldl Delivery.call ⟨r, []⟩).outlet.waiting.length ≤ (List.replicate n 32).sum := by
    rw [List.sum_replicate_nat, Nat.mul_comm]
    exact hn
  have hstart : (Delivery.outlet ⟨r, []⟩).total = [] := by
    change [] ++ r.pending = []
    rw [hpending]
    rfl
  rw [Outlet.given_draws hall, htotal, hstart] at hdrained
  exact hdrained

end Deliveries

section Fingers

/-- A finger on the cube while the panel opens, then one on the panel. -/
def twoHands : List (RouterCall ℚ ℚ) :=
  [.feed [finger .down 0 500 300], .setPanelOpen 1,
    .feed [finger .down 1 700 200, finger .move 0 510 300, finger .move 1 710 200],
    .feed [finger .up 1 710 200, finger .up 0 510 300]]

theorem two_hands_routed :
    ((List.replicate 0 (.feed [])).foldl Delivery.call
      (twoHands.foldl Delivery.call ⟨tabletRouter, []⟩)).delivered =
        panelEvents tabletRouter (twoHands.flatMap RouterCall.steps) := by
  have hmemory : ∀ events, .feed events ∈ twoHands → ∀ a ∈ events, a.memory = true := by
    intro events hevents a ha
    simp only [twoHands, List.mem_cons, RouterCall.feed.injEq, reduceCtorEq, false_or,
      List.not_mem_nil, or_false] at hevents
    rcases hevents with rfl | rfl | rfl <;> simp [finger] at ha <;> grind
  exact (contacts_routed (Option.some_get rfl).symm (by simp [twoHands]) hmemory).2.2 0 (by decide +kernel)

end Fingers

end Taq102.Touch
