import Taq102.App.Input

/-! Every event is dispatched in the call that brings it: the queue of the router, the rounds and the
portions are not to be seen from outside, and no event is lost or taken twice. -/
namespace Taq102.App
open Taq102.Lib CFloat Transition
open Touch Touch.Evdev Touch.Reading Taq102.Runtime Panel
variable {F D : Type}

section Router
variable [CFloat F]

/-- Without memory an event is routed as with it, or the router fails. -/
theorem route_memory (r : TouchRouter F D) (ev : TouchEvent F D) (m : Bool) :
    route r ⟨ev, m⟩ = route r ⟨ev, true⟩ ∨ (route r ⟨ev, m⟩).2.pendingError = true := by
  have happend (r : TouchRouter F D) :
      appendPanel r ⟨ev, m⟩ = appendPanel r ⟨ev, true⟩ ∨ (appendPanel r ⟨ev, m⟩).pendingError = true := by
    unfold appendPanel
    split
    · cases m with
      | true => exact .inl rfl
      | false => exact .inr rfl
    · exact .inl rfl
  unfold route
  cases hslot : selectedSlot ev.slot with
  | none => exact .inl rfl
  | some i =>
    dsimp only
    split
    · unfold beginContact beginPanel
      dsimp only
      split
      · split
        · exact .inl rfl
        · rcases happend _ with hsame | herror
          · exact .inl (by rw [hsame])
          · exact .inr herror
      · exact .inl rfl
    · unfold routeOwned
      cases howner : r.owner i with
      | panel =>
        dsimp only
        unfold routePanel
        rcases happend r with hsame | herror
        · exact .inl (by dsimp only; rw [hsame])
        · right
          dsimp only
          split <;> split <;> exact herror
      | none => exact .inl rfl
      | candidate => exact .inl rfl
      | cube => exact .inl rfl
      | panelIgnored => exact .inl rfl

theorem route_openPanel {r : TouchRouter F D} {a : Arrival F D} (h : (route r a).1.openPanel = true) :
    (route r a).2.panelOpen = true := by
  unfold route at h ⊢
  cases hslot : selectedSlot a.event.slot with
  | none =>
    rw [hslot] at h
    exact nomatch h
  | some i =>
    rw [hslot] at h
    dsimp only at h ⊢
    split at h
    · exact nomatch h
    · rename_i hkind
      rw [if_neg hkind]
      unfold routeOwned at h ⊢
      cases howner : r.owner i with
      | candidate =>
        rw [howner] at h
        dsimp only at h ⊢
        unfold routeCandidate at h ⊢
        split at h
        · rename_i hopens
          rw [if_pos hopens]
        · exact nomatch h
      | none => rw [howner] at h; exact nomatch h
      | cube => rw [howner] at h; exact nomatch h
      | panel => rw [howner] at h; exact nomatch h
      | panelIgnored => rw [howner] at h; exact nomatch h

omit [CFloat F] in
theorem noteRelease_eq (input : ControlInput F D) (ev : TouchEvent F D) :
    ∃ released, noteRelease input ev = { input with cubeReleased := released } := by
  unfold noteRelease
  cases selectedSlot ev.slot with
  | none => exact ⟨input.cubeReleased, rfl⟩
  | some i =>
    dsimp only
    split
    · exact ⟨true, rfl⟩
    · exact ⟨input.cubeReleased, rfl⟩

omit [CFloat F] in
theorem drain_one {r : TouchRouter F D} (herror : r.pendingError = false) {p : Prop} [Decidable p]
    {ev : TouchEvent F D} (hpending : r.pending = if p then [ev] else []) :
    drainPanel r = ((if p then 1 else 0, if p then [ev] else []), { r with pending := [] }) := by
  unfold drainPanel
  rw [herror, if_neg Bool.false_ne_true, hpending]
  split <;> rfl

omit [CFloat F] in
theorem setPanelOpen_one {r : TouchRouter F D} (h : r.panelOpen = true) :
    touchRouterSetPanelOpen r 1 = r := by
  cases r
  cases h
  rfl

/-- What the router answers to one event when nothing waits. -/
theorem feed_one {r : TouchRouter F D} (hpending : r.pending = []) (herror : r.pendingError = false)
    (ev : TouchEvent F D) (m : Bool) :
    (touchRouterFeed r (some [⟨ev, m⟩])).1.nPanel = -1 ∨
      touchRouterFeed r (some [⟨ev, m⟩]) =
        ({ openPanel := (route r ⟨ev, true⟩).1.openPanel
           closePanel := (route r ⟨ev, true⟩).1.closePanel
           nPanel := if destination r ⟨ev, true⟩ = .panel then 1 else 0
           panel := if destination r ⟨ev, true⟩ = .panel then [ev] else []
           cube := (route r ⟨ev, true⟩).2.cube },
         { (route r ⟨ev, true⟩).2 with pending := [] }) := by
  rcases route_memory r ev m with hsame | hfailed
  · right
    have hqueue := pending_route r (a := ⟨ev, true⟩) rfl
    have hgood := error_route r (a := ⟨ev, true⟩) rfl
    rw [hpending, List.nil_append] at hqueue
    rw [herror] at hgood
    unfold touchRouterFeed routeAll
    simp only [List.foldl_cons, List.foldl_nil, hsame, quietSignals, Bool.false_or]
    rw [drain_one hgood hqueue]
  · left
    unfold touchRouterFeed routeAll
    simp only [List.foldl_cons, List.foldl_nil]
    unfold drainPanel
    rw [if_pos hfailed]

end Router

section Dispatch
variable [CFloat F] [CFloat D] [CDouble F D]

/-- The application after an event, without queues: it goes to its contact's destination at once. -/
def dispatch (c : Console F D) (ev : TouchEvent F D) (now : Int) (e : Nat → ActionEnv) : Console F D :=
  let w := if ev.kind = .down ∨ ev.kind = .move then step c.world (.touchIdle now : RuntimeOp F D)
    else c.world
  let w := step w (.tickPanel now : RuntimeOp F D)
  let r := touchRouterSetPanelOpen c.input.router (if ccVisible w.runtime.panel then 1 else 0)
  let routed := route r ⟨ev, true⟩
  let w := if routed.1.openPanel then step w (.openPanel now : RuntimeOp F D) else w
  let w := if destination r ⟨ev, true⟩ = .panel then touchPanel w ev now true 3 e else w
  let w := if routed.1.closePanel then step w (.closePanel now : RuntimeOp F D) else w
  { input := { noteRelease c.input ev with
      router := { routed.2 with pending := [] }
      cube := routed.2.cube }
    world := w }

/-- An event that is taken when it arrives: one without a usable time changes nothing. -/
def Takes (c : Console F D) (ev : TouchEvent F D) (c' : Console F D) : Prop :=
  c.world.runtime.sleepRequested = false ∧
    ((eventTime ev = none ∧ c' = c) ∨ ∃ now e, eventTime ev = some now ∧ c' = dispatch c ev now e)

/-- Nothing waits in the router, and nothing has failed. -/
structure Settled (c : Console F D) : Prop where
  pending : c.input.router.pending = []
  error : c.input.router.pendingError = false
  working : c.input.failed = false

/-- An event is dispatched in the call that brings it, unless the router fails. -/
theorem feedEvent_dispatch {c : Console F D} (h : Settled c) {ev : TouchEvent F D} {now : Int}
    (htime : eventTime ev = some now) (e : EventEnv) :
    ((feedEvent c ev e).2 = true ∧ (feedEvent c ev e).1.input.failed = true) ∨
      feedEvent c ev e = (dispatch c ev now (e.actions 0 0), false) := by
  obtain ⟨released, hnote⟩ := noteRelease_eq c.input ev
  unfold feedEvent
  rw [htime]
  dsimp only
  rw [hnote]
  dsimp only
  generalize hw : step (if ev.kind = .down ∨ ev.kind = .move then
    step c.world (.touchIdle now : RuntimeOp F D) else c.world) (.tickPanel now : RuntimeOp F D) = w
  generalize hr : touchRouterSetPanelOpen c.input.router (if ccVisible w.runtime.panel then 1 else 0) = r
  have hpending : r.pending = [] := by
    rw [← hr]
    exact h.pending
  have herror : r.pendingError = false := by
    rw [← hr]
    exact h.error
  rcases feed_one hpending herror ev e.memory with hfail | hfed
  · left
    unfold rounds
    rw [if_pos (by rw [hfail]; decide)]
    exact ⟨rfl, rfl⟩
  · right
    rw [hfed]
    unfold rounds dispatch
    dsimp only
    rw [hw, hr, hnote]
    have hcount : (if destination r ⟨ev, true⟩ = .panel then (1 : Int) else 0) < panelOutputCapacity := by
      split <;> decide
    have hpositive : ¬ (if destination r ⟨ev, true⟩ = .panel then (1 : Int) else 0) < 0 := by
      split <;> decide
    rw [if_neg hpositive, if_pos hcount]
    unfold deliver
    dsimp only
    have hpanel (w : World F) : handlePanel now
        (if destination r ⟨ev, true⟩ = .panel then [ev] else []) (e.actions 0) w =
          if destination r ⟨ev, true⟩ = .panel then touchPanel w ev now true 3 (e.actions 0 0) else w := by
      split <;> rfl
    by_cases hopen : (route r ⟨ev, true⟩).1.openPanel = true
    · let settled : TouchRouter F D := { (route r ⟨ev, true⟩).2 with pending := [] }
      have hsame : touchRouterSetPanelOpen settled 1 = settled := setPanelOpen_one (route_openPanel hopen)
      rw [if_pos hopen, if_pos hopen, hpanel, hsame]
    · rw [if_neg hopen, if_neg hopen, hpanel]

theorem dispatch_settled {c : Console F D} (h : Settled c) (ev : TouchEvent F D) (now : Int)
    (e : Nat → ActionEnv) : Settled (dispatch c ev now e) := by
  obtain ⟨released, hnote⟩ := noteRelease_eq c.input ev
  unfold dispatch
  dsimp only
  rw [hnote]
  refine ⟨rfl, ?_, h.working⟩
  rw [error_route _ rfl]
  exact h.error

theorem Takes.settled {c c' : Console F D} {ev : TouchEvent F D} (h : Settled c) (ht : Takes c ev c') :
    Settled c' := by
  obtain ⟨_, ⟨_, rfl⟩ | ⟨now, e, _, rfl⟩⟩ := ht
  · exact h
  · exact dispatch_settled h ev now e

theorem dispatch_decoder (c : Console F D) (ev : TouchEvent F D) (now : Int) (e : Nat → ActionEnv) :
    (dispatch c ev now e).input.decoder = c.input.decoder := by
  obtain ⟨released, hnote⟩ := noteRelease_eq c.input ev
  unfold dispatch
  dsimp only
  rw [hnote]

theorem dispatch_withDecoder (c : Console F D) (d : Descriptor F D) (ev : TouchEvent F D) (now : Int)
    (e : Nat → ActionEnv) :
    dispatch (withDecoder c d) ev now e = withDecoder (dispatch c ev now e) d := by
  have hnote : noteRelease (withDecoder c d).input ev = { noteRelease c.input ev with decoder := d } := by
    unfold noteRelease withDecoder
    cases selectedSlot ev.slot with
    | none => rfl
    | some i =>
      dsimp only
      split <;> rfl
  unfold dispatch
  dsimp only
  rw [hnote]
  rfl

theorem Takes.decoder {c c' : Console F D} {ev : TouchEvent F D} (ht : Takes c ev c') :
    c'.input.decoder = c.input.decoder := by
  obtain ⟨_, ⟨_, rfl⟩ | ⟨now, e, _, rfl⟩⟩ := ht
  · rfl
  · exact dispatch_decoder c ev now e

theorem Takes.withDecoder {c c' : Console F D} {ev : TouchEvent F D} (ht : Takes c ev c')
    (d : Descriptor F D) : Takes (withDecoder c d) ev (withDecoder c' d) := by
  obtain ⟨hawake, ⟨htime, rfl⟩ | ⟨now, e, htime, rfl⟩⟩ := ht
  · exact ⟨hawake, .inl ⟨htime, rfl⟩⟩
  · exact ⟨hawake, .inr ⟨now, e, htime, (dispatch_withDecoder c d ev now e).symm⟩⟩

theorem takes_decoder {c c' : Console F D} {events : List (TouchEvent F D)} (h : Run Takes c events c') :
    c'.input.decoder = c.input.decoder := by
  refine h.invariant (fun t => t.input.decoder = c.input.decoder) rfl fun t ev u ht hstep => ?_
  rw [hstep.decoder, ht]

theorem takes_withDecoder {c c' : Console F D} {events : List (TouchEvent F D)} (h : Run Takes c events c')
    (d : Descriptor F D) : Run Takes (withDecoder c d) events (withDecoder c' d) := by
  induction h with
  | nil => exact .nil
  | snoc _ hstep ih => exact .snoc ih (hstep.withDecoder d)

/-- The events are taken one after the other; only an application that is to sleep leaves some out. -/
def Consumes (c : Console F D) (events : List (TouchEvent F D)) (c' : Console F D) : Prop :=
  ∃ taken rest, events = taken ++ rest ∧ Run Takes c taken c' ∧
    (rest = [] ∨ c'.world.runtime.sleepRequested = true)

theorem Consumes.cons {c t c' : Console F D} {ev : TouchEvent F D} {events : List (TouchEvent F D)}
    (hfirst : Takes c ev t) (h : Consumes t events c') : Consumes c (ev :: events) c' := by
  obtain ⟨taken, rest, rfl, hrun, hrest⟩ := h
  exact ⟨ev :: taken, rest, rfl, (Run.single hfirst).trans hrun, hrest⟩

theorem takes_asleep {c c' : Console F D} {events : List (TouchEvent F D)}
    (hasleep : c.world.runtime.sleepRequested = true) (h : Run Takes c events c') :
    events = [] ∧ c' = c := by
  induction h with
  | nil => exact ⟨rfl, rfl⟩
  | snoc _ hstep ih =>
    obtain ⟨_, rfl⟩ := ih
    exact nomatch hstep.1.symm.trans hasleep

/-- Further events are left out once some are. -/
theorem Consumes.append {c t c' : Console F D} {events more : List (TouchEvent F D)}
    (h : Consumes c events t) (h' : Consumes t more c') : Consumes c (events ++ more) c' := by
  obtain ⟨taken, rest, rfl, hrun, hrest⟩ := h
  obtain ⟨taken', rest', rfl, hrun', hrest'⟩ := h'
  cases hasleep : t.world.runtime.sleepRequested with
  | true =>
    obtain ⟨rfl, rfl⟩ := takes_asleep hasleep hrun'
    exact ⟨taken, rest ++ rest', by rw [List.nil_append, List.append_assoc], hrun, .inr hasleep⟩
  | false =>
    obtain rfl := hrest.resolve_right (by rw [hasleep]; exact Bool.false_ne_true)
    refine ⟨taken ++ taken', rest', ?_, hrun.trans hrun', hrest'⟩
    rw [List.append_nil, List.append_assoc]

theorem Consumes.settled {c c' : Console F D} {events : List (TouchEvent F D)} (h : Settled c)
    (hc : Consumes c events c') : Settled c' := by
  obtain ⟨_, _, _, hrun, _⟩ := hc
  exact hrun.invariant Settled h fun _ _ _ ht hstep => hstep.settled ht

theorem Consumes.decoder {c c' : Console F D} {events : List (TouchEvent F D)} (hc : Consumes c events c') :
    c'.input.decoder = c.input.decoder := by
  obtain ⟨_, _, _, hrun, _⟩ := hc
  exact takes_decoder hrun

theorem Consumes.withDecoder {c c' : Console F D} {events : List (TouchEvent F D)}
    (hc : Consumes c events c') (d : Descriptor F D) :
    Consumes (withDecoder c d) events (withDecoder c' d) := by
  obtain ⟨taken, rest, heq, hrun, hrest⟩ := hc
  exact ⟨taken, rest, heq, takes_withDecoder hrun d, hrest⟩

theorem controlInputFeed_consumes {c : Console F D} (h : Settled c) (events : List (TouchEvent F D))
    (e : Nat → EventEnv) :
    (controlInputFeed c events e).input.failed = true ∨
      Consumes c events (controlInputFeed c events e) := by
  induction events generalizing c e with
  | nil => exact .inr ⟨[], [], rfl, .nil, .inl rfl⟩
  | cons ev rest ih =>
    rw [controlInputFeed]
    split
    · rename_i hasleep
      exact .inr ⟨[], ev :: rest, rfl, .nil, .inr hasleep⟩
    · rename_i hasleep
      have hawake : c.world.runtime.sleepRequested = false := eq_false_of_ne_true hasleep
      cases htime : eventTime ev with
      | none =>
        have hsame : feedEvent c ev (e 0) = (c, false) := by
          unfold feedEvent
          rw [htime]
        have hskip : Takes c ev c := ⟨hawake, .inl ⟨htime, rfl⟩⟩
        rw [hsame]
        exact (ih h (fun i => e (i + 1))).imp_right (Consumes.cons hskip)
      | some now =>
        rcases feedEvent_dispatch h htime (e 0) with ⟨hfail, hfailed⟩ | hfed
        · left
          dsimp only
          rw [if_pos hfail]
          exact hfailed
        · have htakes : Takes c ev (dispatch c ev now ((e 0).actions 0 0)) :=
            ⟨hawake, .inr ⟨now, _, htime, rfl⟩⟩
          rw [hfed]
          exact (ih (dispatch_settled h ev now _) (fun i => e (i + 1))).imp_right (Consumes.cons htakes)

end Dispatch

section Portions
variable [CFloat F] [CFloat D] [CDouble F D]

/-- The decoder with the first of the events that wait handed out. -/
def drawn (d : Descriptor F D) (n : Nat) : Descriptor F D :=
  handOut d (some (d.reader.input.ready.take n),
    { d.reader.input with ready := d.reader.input.ready.drop n })

/-- The decoder after the contacts that fell silent were cancelled. -/
def expired (d : Descriptor F D) (now : D) : Descriptor F D :=
  { d with reader := { d.reader with
      input := (List.finRange touchMaxSlots).foldl (expireSlot now) d.reader.input } }

omit [CFloat F] [CFloat D] [CDouble F D] in
theorem drawn_zero (d : Descriptor F D) : drawn d 0 = d := by
  unfold drawn handOut
  dsimp only
  rw [List.take_zero, List.drop_zero, Option.getD_some, List.append_nil]

omit [CFloat F] [CFloat D] [CDouble F D] in
theorem drawn_drawn (d : Descriptor F D) (m n : Nat) : drawn (drawn d m) n = drawn d (m + n) := by
  unfold drawn handOut
  dsimp only
  rw [Option.getD_some, Option.getD_some, Option.getD_some, List.drop_drop, List.append_assoc,
    ← List.take_add]

omit [CFloat F] [CFloat D] [CDouble F D] in
theorem drainReady_portion (ti : TouchInput F D) : drainReady ti true portion =
    (some (ti.ready.take 64), { ti with ready := ti.ready.drop 64 }) := by
  unfold drainReady
  rw [if_neg (by decide)]
  rfl

theorem handOut_portion (d : Descriptor F D) :
    handOut d (touchInputFeed d.reader.input [] true portion) = drawn d 64 := by
  unfold touchInputFeed drawn
  rw [List.foldl_nil, drainReady_portion]

omit [CDouble F D] in
theorem handOut_expire (d : Descriptor F D) (now : D) :
    handOut d (touchInputExpire d.reader.input now true portion) = drawn (expired d now) 64 := by
  unfold touchInputExpire drawn expired
  rw [drainReady_portion]
  rfl

/-- A failure of the queue is not forgotten. -/
theorem rounds_failed (now : Int) (fuel : Nat) (out : RouterOut F D) (e : Nat → Nat → Nat → ActionEnv)
    {c : Console F D} (h : c.input.failed = true) : (rounds now fuel out e c).1.input.failed = true := by
  induction fuel generalizing out e c with
  | zero =>
    unfold rounds
    split
    · rfl
    · dsimp only
      have hkept : (deliver now out (e 0) c).input.failed = true := by
        unfold deliver
        split <;> exact h
      split <;> exact hkept
  | succ fuel ih =>
    unfold rounds
    split
    · rfl
    · dsimp only
      have hkept : (deliver now out (e 0) c).input.failed = true := by
        unfold deliver
        split <;> exact h
      split
      · exact hkept
      · exact ih _ _ hkept

theorem feedEvent_failed (ev : TouchEvent F D) (e : EventEnv) {c : Console F D}
    (h : c.input.failed = true) : (feedEvent c ev e).1.input.failed = true := by
  obtain ⟨released, hnote⟩ := noteRelease_eq c.input ev
  unfold feedEvent
  cases eventTime ev with
  | none => exact h
  | some now =>
    dsimp only
    rw [hnote]
    exact rounds_failed now _ _ _ h

theorem controlInputFeed_failed (events : List (TouchEvent F D)) (e : Nat → EventEnv) {c : Console F D}
    (h : c.input.failed = true) : (controlInputFeed c events e).input.failed = true := by
  induction events generalizing c e with
  | nil => exact h
  | cons ev rest ih =>
    rw [controlInputFeed]
    have hfed := feedEvent_failed ev (e 0) h
    split
    · exact h
    · dsimp only
      split
      · exact hfed
      · exact ih _ hfed

theorem pump_failed (fuel : Nat) (events : List (TouchEvent F D)) (e : Nat → Nat → EventEnv)
    {c : Console F D} (h : c.input.failed = true) : (pump fuel events e c).input.failed = true := by
  induction fuel generalizing events e c with
  | zero =>
    unfold pump
    dsimp only
    split <;> exact controlInputFeed_failed events (e 0) h
  | succ fuel ih =>
    unfold pump
    dsimp only
    have hfed := controlInputFeed_failed events (e 0) h
    split
    · exact ih _ _ hfed
    · exact hfed

/-- Everything that waits is taken, a portion at a time, unless the application is to sleep. -/
theorem pump_consumes {c : Console F D} (h : Settled c) (fuel : Nat) (events : List (TouchEvent F D))
    (e : Nat → Nat → EventEnv) (hfuel : c.input.decoder.reader.input.ready.length ≤ fuel)
    (hshort : events.length ≠ 64 → c.input.decoder.reader.input.ready = []) :
    (pump fuel events e c).input.failed = true ∨
      ∃ n, Consumes (withDecoder c (drawn c.input.decoder n))
          (events ++ c.input.decoder.reader.input.ready.take n) (pump fuel events e c) ∧
        ((pump fuel events e c).world.runtime.sleepRequested = true ∨
          c.input.decoder.reader.input.ready.length ≤ n) := by
  induction fuel generalizing c events e with
  | zero =>
    have hnone : c.input.decoder.reader.input.ready = [] := List.eq_nil_of_length_eq_zero (by omega)
    have hfed : pump 0 events e c = controlInputFeed c events (e 0) := by
      unfold pump
      dsimp only
      split <;> rfl
    rw [hfed]
    refine (controlInputFeed_consumes h events (e 0)).imp_right fun hfed => ⟨0, ?_, .inr hfuel⟩
    rw [drawn_zero, List.take_zero, List.append_nil]
    exact hfed
  | succ fuel ih =>
    rcases controlInputFeed_consumes h events (e 0) with hfailed | hfed
    · left
      unfold pump
      dsimp only
      split
      · exact pump_failed _ _ _ hfailed
      · exact hfailed
    · have hdecoder := hfed.decoder
      have hnext := hfed.settled h
      unfold pump
      dsimp only
      generalize controlInputFeed c events (e 0) = t at hfed hdecoder hnext ⊢
      split
      · rw [handOut_portion, hdecoder]
        have hportion : (touchInputFeed c.input.decoder.reader.input [] true portion).1.getD [] =
            c.input.decoder.reader.input.ready.take 64 := by
          unfold touchInputFeed
          rw [List.foldl_nil, drainReady_portion]
          rfl
        rw [hportion]
        obtain ⟨u, hu⟩ : ∃ u, u = withDecoder t (drawn c.input.decoder 64) := ⟨_, rfl⟩
        have hready : u.input.decoder.reader.input.ready = c.input.decoder.reader.input.ready.drop 64 := by
          rw [hu]
          rfl
        have hsettled : Settled u := by
          rw [hu]
          exact ⟨hnext.pending, hnext.error, hnext.working⟩
        have hfewer : u.input.decoder.reader.input.ready.length ≤ fuel := by
          rw [hready, List.length_drop]
          omega
        have hlast : (c.input.decoder.reader.input.ready.take 64).length ≠ 64 →
            u.input.decoder.reader.input.ready = [] := by
          intro hlength
          rw [hready]
          rw [List.length_take] at hlength
          exact List.drop_eq_nil_of_le (by omega)
        rw [← hu]
        refine (ih hsettled _ _ hfewer hlast).imp_right ?_
        rintro ⟨n, hconsumes, hall⟩
        refine ⟨64 + n, ?_, hall.imp_right fun hn => ?_⟩
        · have hdrawn : drawn u.input.decoder n = drawn c.input.decoder (64 + n) := by
            rw [hu]
            exact drawn_drawn _ 64 n
          have hstart : withDecoder u (drawn u.input.decoder n) =
              withDecoder t (drawn c.input.decoder (64 + n)) := by
            rw [hdrawn, hu]
            rfl
          rw [hstart, hready, ← List.take_add] at hconsumes
          exact (hfed.withDecoder _).append hconsumes
        · rw [hready, List.length_drop] at hn
          omega
      · rename_i hdone
        right
        refine ⟨0, ?_, ?_⟩
        · rw [drawn_zero, List.take_zero, List.append_nil]
          exact hfed
        · by_cases hsleep : t.world.runtime.sleepRequested = true
          · exact .inl hsleep
          · right
            have hlength : events.length ≠ 64 := fun hfull => hdone ⟨hfull, hsleep⟩
            rw [hshort hlength]
            exact Nat.zero_le _

end Portions

section Reads
variable [CFloat F] [CFloat D] [CDouble F D]

/-- Where a reading call stands: it is still waiting for the kernel, or it has returned. -/
def Progress (d d' : Descriptor F D) : Prop :=
  (d'.reader.pc ≠ .idle ∧ d'.delivered = d.delivered ∧ d'.reader.out = true ∧ d'.reader.max = portion) ∨
    (d'.reader.pc = .idle ∧ match d'.reader.returned with
      | .ok events => d'.delivered = d.delivered ++ events ∧
          (events.length ≠ 64 → d'.reader.input.ready = [])
      | .error _ => d'.delivered = d.delivered)

omit [CFloat F] [CFloat D] [CDouble F D] in
theorem enter_progress (d : Descriptor F D) (clock : Option Int) :
    Progress d { d with reader := d.reader.enter true portion clock } := by
  unfold Reader.enter
  split
  · exact .inr ⟨rfl, rfl⟩
  · refine .inl ⟨?_, rfl, rfl, rfl⟩
    dsimp only
    split <;> exact nofun

omit [CFloat F] [CFloat D] [CDouble F D] in
theorem finish_progress {d : Descriptor F D} (hout : d.reader.out = true) (hmax : d.reader.max = portion) :
    Progress d (d.settle d.reader.finish) := by
  unfold Reader.finish
  rw [hout, hmax, drainReady_portion]
  dsimp only
  split
  · refine .inr ⟨rfl, rfl, fun hlength => ?_⟩
    change d.reader.input.ready.drop 64 = []
    rw [List.length_take] at hlength
    exact List.drop_eq_nil_of_le (by omega)
  · refine .inr ⟨rfl, ?_⟩
    exact List.append_nil _

/-- The call goes on, as it was made. -/
structure Continues (r r' : Reader F D) : Prop where
  running : r'.pc ≠ .idle
  out : r'.out = r.out
  max : r'.max = r.max

theorem feedRecord_continues (r : Reader F D) (raw : TouchRaw D) : Continues r (r.feedRecord raw) := by
  unfold Reader.feedRecord
  dsimp only
  split <;> refine ⟨?_, rfl, rfl⟩ <;> dsimp only <;> split <;> exact nofun

theorem processInputEvent_continues (r : Reader F D) (event : Queued D) :
    Continues r (r.processInputEvent event) := by
  unfold Reader.processInputEvent
  split
  · exact ⟨nofun, rfl, rfl⟩
  · exact feedRecord_continues r event.raw

omit [CFloat F] [CFloat D] [CDouble F D] in
theorem resyncFailed_continues (r : Reader F D) (resume : Resume D) (errno : Int) :
    Continues r (r.resyncFailed resume errno) := by
  cases resume <;> exact ⟨nofun, rfl, rfl⟩

theorem resyncSucceeded_continues (r : Reader F D) (resume : Resume D) :
    Continues r (r.resyncSucceeded resume) := by
  cases resume with
  | before event =>
    have hfed := feedRecord_continues { r with resyncNeeded := false, resyncErrno := 0 } event.raw
    exact ⟨hfed.running, hfed.out, hfed.max⟩
  | entry => exact ⟨nofun, rfl, rfl⟩
  | after => exact ⟨nofun, rfl, rfl⟩

theorem answered_continues (r : Reader F D) (device : Device D) (stage : Stage) (resume : Resume D) :
    Continues r (r.answered device stage resume) := by
  cases stage with
  | slot =>
    unfold Reader.answered
    dsimp only
    split
    · exact resyncFailed_continues r resume eproto
    · exact ⟨nofun, rfl, rfl⟩
  | ids info => exact ⟨nofun, rfl, rfl⟩
  | xs info ids => exact ⟨nofun, rfl, rfl⟩
  | ys info ids xs =>
    have hdone (ti : TouchInput F D) : Continues r ({ r with input := ti }.resyncSucceeded resume) := by
      have hsynced := resyncSucceeded_continues { r with input := ti } resume
      exact ⟨hsynced.running, hsynced.out, hsynced.max⟩
    exact hdone _

theorem receive_continues (word : Nat) {s : Descriptor F D} (hrunning : s.reader.pc ≠ .idle)
    (bytes : List UInt8) :
    Continues s.reader (s.receive word bytes).reader ∧ (s.receive word bytes).delivered = s.delivered := by
  unfold Descriptor.receive
  dsimp only
  split
  · exact ⟨processInputEvent_continues _ _, rfl⟩
  · exact ⟨⟨hrunning, rfl, rfl⟩, rfl⟩

/-- An answer of the kernel brings the call on, or ends it. -/
theorem next_progress {word : Nat} {d s t : Descriptor F D} {a : Action D} (h : Progress d s)
    (ha : Action.isAnswer a = true) (hnext : Descriptor.next word s a = some t) : Progress d t := by
  have hidle (hpc : s.reader.pc ≠ .idle) : s.reader.pc ≠ .idle ∧ s.delivered = d.delivered ∧
      s.reader.out = true ∧ s.reader.max = portion := by
    rcases h with hrunning | ⟨hdone, _⟩
    · exact hrunning
    · exact absurd hdone hpc
  have hgoes {t : Descriptor F D} (hpc : s.reader.pc ≠ .idle) (hc : Continues s.reader t.reader)
      (hdelivered : t.delivered = s.delivered) : Progress d t := by
    obtain ⟨_, hsame, hout, hmax⟩ := hidle hpc
    exact .inl ⟨hc.running, hdelivered.trans hsame, hc.out.trans hout, hc.max.trans hmax⟩
  have hfinish (hpc : s.reader.pc ≠ .idle) : Progress d (s.settle s.reader.finish) := by
    obtain ⟨_, hsame, hout, hmax⟩ := hidle hpc
    have hend := finish_progress hout hmax
    unfold Progress at hend ⊢
    rw [hsame] at hend
    exact hend
  cases a with
  | call out max clock => cases ha
  | drain out max => cases ha
  | read count =>
    simp only [Descriptor.next] at hnext
    split at hnext
    · rename_i hpc
      split at hnext
      · cases hnext
        have hrunning : s.reader.pc ≠ .idle := by
          simp [hpc]
        obtain ⟨hc, hdelivered⟩ := receive_continues word hrunning (s.unread.take count)
        exact hgoes hrunning ⟨hc.running, hc.out, hc.max⟩ hdelivered
      · cases hnext
    · cases hnext
  | ends =>
    simp only [Descriptor.next] at hnext
    split at hnext
    · rename_i hpc
      cases hnext
      exact hfinish (by simp [hpc])
    · cases hnext
  | readFails errno =>
    simp only [Descriptor.next] at hnext
    split at hnext
    · rename_i hpc
      cases hnext
      have hrunning : s.reader.pc ≠ .idle := by
        simp [hpc]
      unfold Reader.readFailed
      split
      · exact hfinish hrunning
      · split
        · refine hgoes hrunning ⟨hrunning, rfl, rfl⟩ ?_
          unfold Descriptor.settle handed
          dsimp only
          rw [hpc]
          exact List.append_nil _
        · refine .inr ⟨rfl, ?_⟩
          exact (List.append_nil _).trans (hidle hrunning).2.1
    · cases hnext
  | answer device =>
    simp only [Descriptor.next] at hnext
    split at hnext
    · rename_i stage resume hpc
      cases hnext
      exact hgoes (by simp [hpc]) (answered_continues s.reader device stage resume) rfl
    · cases hnext
  | refuse errno =>
    simp only [Descriptor.next] at hnext
    split at hnext
    · rename_i stage resume hpc
      cases hnext
      exact hgoes (by simp [hpc]) (resyncFailed_continues s.reader resume errno) rfl
    · cases hnext

/-- What a reading call returned is what it handed out, and it leaves nothing behind a short portion. -/
theorem readFd_progress {word : Nat} {d d' : Descriptor F D} {clock : Option Int}
    {answers : List (Action D)} {result : Except Int (List (TouchEvent F D))}
    (h : readFd word d clock answers = some (result, d')) :
    (∃ entered, Descriptor.next word d (.call true portion clock) = some entered ∧
      answers.foldlM (Descriptor.next word) entered = some d') ∧
    (∀ a ∈ answers, Action.isAnswer a = true) ∧ d'.reader.returned = result ∧
      d'.reader.pc = .idle ∧ Progress d d' := by
  unfold readFd at h
  split at h
  · rename_i hanswers
    rw [List.all_eq_true] at hanswers
    split at h
    · rename_i t hrun
      rw [List.foldlM_cons] at hrun
      obtain ⟨entered, hcall, hrest⟩ := Option.bind_eq_some_iff.mp hrun
      have hprogress : Progress d t := by
        have hentered : Progress d entered := by
          have hcalled := hcall
          simp only [Descriptor.next] at hcalled
          split at hcalled
          · cases hcalled
            exact enter_progress d clock
          · cases hcalled
        clear hrun hcall
        induction answers generalizing entered with
        | nil =>
          cases hrest
          exact hentered
        | cons a rest ih =>
          rw [List.foldlM_cons] at hrest
          obtain ⟨next, hnext, hrest⟩ := Option.bind_eq_some_iff.mp hrest
          exact ih (fun b hb => hanswers b (List.mem_cons_of_mem a hb)) next hrest
            (next_progress hentered (hanswers a List.mem_cons_self) hnext)
      split at h
      · rename_i hpc
        cases h
        exact ⟨⟨entered, hcall, hrest⟩, hanswers, rfl, hpc, hprogress⟩
      · cases h
    · cases h
  · cases h

/-- The console as a read finds it, but with this decoder. -/
def readFrom (c : Console F D) (d : Descriptor F D) : Console F D :=
  { input := { c.input with cubeReleased := false, decoder := d }, world := c.world }

omit [CFloat F] [CFloat D] [CDouble F D] in
theorem Settled.readFrom {c : Console F D} (h : Settled c) (d : Descriptor F D) : Settled (readFrom c d) :=
  ⟨h.pending, h.error, h.working⟩

/-- The events of the reading call of `control_input_read`, and the decoder after it. -/
def fetched (word : Nat) (d : Descriptor F D) (call : ReadCall D) :
    Option (Except Int (List (TouchEvent F D)) × Descriptor F D) :=
  if call.hasFd then readFd word d call.clock call.answers else some (.ok [], d)

/-- A call of `control_input_read` that succeeds: it fetches events, hands out what waits, expires the
contacts that fell silent, and hands out what waits again. All of them are taken. -/
structure ReadThrough (word : Nat) (c : Console F D) (call : ReadCall D) (c' : Console F D) : Prop where
  through : ∃ first d n k, fetched word c.input.decoder call = some (.ok first, d) ∧
    d.delivered = c.input.decoder.delivered ++ first ∧
    c'.input.decoder = drawn (expired (drawn d n) call.now) k
  taken : ∃ events, c'.input.decoder.delivered = c.input.decoder.delivered ++ events ∧
    Consumes (readFrom c c'.input.decoder) events c'
  emptied : c'.world.runtime.sleepRequested = true ∨ c'.input.decoder.reader.input.ready = []

omit [CFloat F] [CFloat D] [CDouble F D] in
theorem delivered_drawn (d : Descriptor F D) (n : Nat) :
    (drawn d n).delivered = d.delivered ++ d.reader.input.ready.take n := rfl

/-- A portion was handed out, then what waits: together the first of what waited before. -/
theorem pump_drawn {c : Console F D} {d : Descriptor F D} (h : Settled c)
    (hdecoder : c.input.decoder = drawn d 64) (fuel : Nat) (e : Nat → Nat → EventEnv)
    (hfuel : c.input.decoder.reader.input.ready.length ≤ fuel) :
    (pump fuel (d.reader.input.ready.take 64) e c).input.failed = true ∨
      ∃ k, Consumes (withDecoder c (drawn d k)) (d.reader.input.ready.take k)
          (pump fuel (d.reader.input.ready.take 64) e c) ∧
        ((pump fuel (d.reader.input.ready.take 64) e c).world.runtime.sleepRequested = true ∨
          d.reader.input.ready.length ≤ k) := by
  have hready : c.input.decoder.reader.input.ready = d.reader.input.ready.drop 64 := by
    rw [hdecoder]
    rfl
  have hshort : (d.reader.input.ready.take 64).length ≠ 64 → c.input.decoder.reader.input.ready = [] := by
    intro hlength
    rw [hready]
    rw [List.length_take] at hlength
    exact List.drop_eq_nil_of_le (by omega)
  refine (pump_consumes h fuel _ e hfuel hshort).imp_right ?_
  rintro ⟨n, hconsumes, hall⟩
  refine ⟨64 + n, ?_, hall.imp_right fun hn => ?_⟩
  · rw [hready, ← List.take_add, hdecoder, drawn_drawn] at hconsumes
    exact hconsumes
  · rw [hready, List.length_drop] at hn
    omega

theorem readExpired_through {c : Console F D} (h : Settled c) (call : ReadCall D)
    (hworks : (readExpired c call).input.failed = false) :
    ∃ k events, (readExpired c call).input.decoder = drawn (expired c.input.decoder call.now) k ∧
      (readExpired c call).input.decoder.delivered = c.input.decoder.delivered ++ events ∧
      Consumes (withDecoder c (readExpired c call).input.decoder) events (readExpired c call) ∧
      ((readExpired c call).world.runtime.sleepRequested = true ∨
        (readExpired c call).input.decoder.reader.input.ready = []) := by
  obtain ⟨d, hd⟩ : ∃ d, d = expired c.input.decoder call.now := ⟨_, rfl⟩
  have hevents : (touchInputExpire c.input.decoder.reader.input call.now true portion).1.getD [] =
      d.reader.input.ready.take 64 := by
    rw [hd]
    unfold touchInputExpire
    rw [drainReady_portion]
    rfl
  have hsame : readExpired c call = pump (withDecoder c (drawn d 64)).input.decoder.reader.input.ready.length
      (d.reader.input.ready.take 64) call.expiring (withDecoder c (drawn d 64)) := by
    unfold readExpired
    dsimp only
    rw [hevents, handOut_expire, ← hd]
  have hsettled : Settled (withDecoder c (drawn d 64)) := ⟨h.pending, h.error, h.working⟩
  have hpumped := pump_drawn hsettled rfl _ call.expiring le_rfl
  rw [← hsame] at hpumped
  obtain ⟨k, hconsumes, hall⟩ := hpumped.resolve_left (by rw [hworks]; exact Bool.false_ne_true)
  have hdecoder : (readExpired c call).input.decoder = drawn d k := hconsumes.decoder
  refine ⟨k, d.reader.input.ready.take k, by rw [hdecoder, hd], ?_, ?_, hall.imp_right fun hk => ?_⟩
  · rw [hdecoder, delivered_drawn, hd]
    rfl
  · rw [hdecoder]
    exact hconsumes
  · rw [hdecoder]
    exact List.drop_eq_nil_of_le hk

theorem readExpired_failed (call : ReadCall D) {c : Console F D} (h : c.input.failed = true) :
    (readExpired c call).input.failed = true := by
  unfold readExpired
  exact pump_failed _ _ _ h

/-- What was taken up to the expiry, and then what the expiry brings. -/
theorem readThrough_of {word : Nat} {c t : Console F D} (h : Settled c) {call : ReadCall D}
    {first : List (TouchEvent F D)} {d : Descriptor F D} {n : Nat}
    (hfetched : fetched word c.input.decoder call = some (.ok first, d))
    (hdelivered : d.delivered = c.input.decoder.delivered ++ first)
    (hbefore : Consumes (readFrom c (drawn d n)) (first ++ d.reader.input.ready.take n) t)
    (hworks : (readExpired t call).input.failed = false) :
    ReadThrough word c call (readExpired t call) := by
  have hdecoder : t.input.decoder = drawn d n := hbefore.decoder
  obtain ⟨k, events, hend, hgiven, hafter, hall⟩ := readExpired_through (hbefore.settled (h.readFrom _)) call hworks
  rw [hdecoder] at hend hgiven
  refine ⟨⟨first, d, n, k, hfetched, hdelivered, hend⟩,
    ⟨(first ++ d.reader.input.ready.take n) ++ events, ?_, ?_⟩, hall⟩
  · rw [hgiven, delivered_drawn, hdelivered]
    simp only [List.append_assoc]
  · exact (hbefore.withDecoder (readExpired t call).input.decoder).append hafter

/-- Everything the decoder hands out in a call is taken in it, in its order, and nothing waits after
it, unless the application is to sleep. -/
theorem controlInputRead_through {word : Nat} {c c' : Console F D} (h : Settled c) {call : ReadCall D}
    (hread : controlInputRead word c call = some (true, c')) : ReadThrough word c call c' := by
  unfold controlInputRead at hread
  dsimp only at hread
  split at hread
  · rename_i hfd
    obtain ⟨⟨result, d⟩, hgot, hresult⟩ := Option.map_eq_some_iff.mp hread
    obtain ⟨_, _, hreturned, hpc, hprogress⟩ := readFd_progress hgot
    have hfetched : fetched word c.input.decoder call = some (result, d) := by
      unfold fetched
      rw [if_pos hfd]
      exact hgot
    cases result with
    | error errno => exact nomatch congrArg Prod.fst hresult
    | ok first =>
      rcases hprogress with ⟨hrunning, _⟩ | ⟨_, hdone⟩
      · exact absurd hpc hrunning
      rw [hreturned] at hdone
      obtain ⟨hdelivered, hshort⟩ := hdone
      obtain ⟨c0, hc0⟩ : ∃ c0 : Console F D, c0 =
        readFrom c d := ⟨_, rfl⟩
      have hstart : Settled c0 := by
        rw [hc0]
        exact h.readFrom d
      have hready : c0.input.decoder = d := by
        rw [hc0]
        rfl
      have hpumped := pump_consumes hstart c0.input.decoder.reader.input.ready.length first call.arriving
        le_rfl (by rw [hready]; exact hshort)
      have hsame : (!(readExpired (pump c0.input.decoder.reader.input.ready.length first call.arriving c0)
            call).input.failed,
          readExpired (pump c0.input.decoder.reader.input.ready.length first call.arriving c0) call) =
          (true, c') := by
        rw [← hresult, hc0]
        rfl
      generalize pump c0.input.decoder.reader.input.ready.length first call.arriving c0 = t at hpumped hsame
      obtain ⟨hok, rfl⟩ := Prod.mk.inj hsame
      have hworks : (readExpired t call).input.failed = false := by simpa using hok
      rcases hpumped with hfailed | ⟨n, hbefore, _⟩
      · exact nomatch hworks.symm.trans (readExpired_failed call hfailed)
      · rw [hready, hc0] at hbefore
        exact readThrough_of h hfetched hdelivered hbefore hworks
  · rename_i hfd
    obtain ⟨hok, rfl⟩ := Prod.mk.inj (Option.some.inj hread)
    have hworks : (readExpired { c with input := { c.input with cubeReleased := false } }
        call).input.failed = false := by simpa using hok
    have hfetched : fetched word c.input.decoder call = some (.ok [], c.input.decoder) := by
      unfold fetched
      rw [if_neg hfd]
    refine readThrough_of (n := 0) h hfetched (List.append_nil _).symm ?_ hworks
    rw [drawn_zero]
    exact ⟨[], [], rfl, .nil, .inl rfl⟩

end Reads

section Runs
variable [CFloat F] [CFloat D] [CDouble F D]

theorem ReadThrough.settled {word : Nat} {c c' : Console F D} {call : ReadCall D} (h : Settled c)
    (hr : ReadThrough word c call c') : Settled c' := by
  obtain ⟨events, _, hconsumes⟩ := hr.taken
  exact hconsumes.settled (h.readFrom _)

theorem next_settled {word : Nat} {c c' : Console F D} {op : InputOp F D} (h : Settled c)
    (hnext : c.next word op = some c') : Settled c' := by
  cases op with
  | read call =>
    simp only [Console.next] at hnext
    split at hnext
    · rename_i hread
      cases hnext
      exact (controlInputRead_through h hread).settled h
    · cases hnext
  | discard clock answers =>
    obtain ⟨got, _, rfl⟩ := Option.map_eq_some_iff.mp hnext
    exact ⟨h.pending, h.error, h.working⟩
  | reset flipped =>
    cases hnext
    exact ⟨rfl, rfl, h.working⟩
  | runtime op =>
    cases hnext
    exact ⟨h.pending, h.error, h.working⟩
  | showPanel =>
    cases hnext
    exact ⟨h.pending, h.error, h.working⟩
  | requestSleep =>
    cases hnext
    exact ⟨h.pending, h.error, h.working⟩
  | painted dirty =>
    cases hnext
    exact ⟨h.pending, h.error, h.working⟩

omit [CDouble F D] in
theorem init_settled {flip : TouchFlip F} {stream : List UInt8} {input : ControlInput F D}
    (hinit : controlInputInit flip stream = some input) (w : World F) :
    Settled ({ input, world := w } : Console F D) := by
  obtain ⟨r, hnew, rfl⟩ := Option.map_eq_some_iff.mp hinit
  obtain ⟨_, _, _, hpending, herror⟩ := touchRouterNew_eq hnew
  exact ⟨hpending, herror, rfl⟩

/-- In every run, a read that succeeds takes each event its decoder hands out, once and in their
order, and leaves none behind, unless the application is to sleep. -/
theorem read_takes_all {word : Nat} {flip : TouchFlip F} {stream : List UInt8} {input : ControlInput F D}
    {w : World F} {ops : List (InputOp F D)} {c c' : Console F D} {call : ReadCall D}
    (hinit : controlInputInit flip stream = some input)
    (hrun : Run (Enabled (Console.next word)) { input, world := w } ops c)
    (hread : controlInputRead word c call = some (true, c')) :
    ∃ taken rest, c'.input.decoder.delivered = c.input.decoder.delivered ++ taken ++ rest ∧
      Run Takes (readFrom c c'.input.decoder) taken c' ∧
      (c'.world.runtime.sleepRequested = false → rest = [] ∧ c'.input.decoder.reader.input.ready = []) := by
  have hsettled := hrun.invariant Settled (init_settled hinit w) fun _ _ _ ht hnext => next_settled ht hnext
  have hthrough := controlInputRead_through hsettled hread
  obtain ⟨events, hdelivered, taken, rest, rfl, htakes, hrest⟩ := hthrough.taken
  refine ⟨taken, rest, by rw [hdelivered, List.append_assoc], htakes, fun hawake => ?_⟩
  have hnot : ¬ c'.world.runtime.sleepRequested = true := by
    rw [hawake]
    exact Bool.false_ne_true
  exact ⟨hrest.resolve_right hnot, hthrough.emptied.resolve_left hnot⟩

end Runs

section Tablet

/-- The bytes of a record, where a `long` has four of them. -/
def recordBytes (sec type code value : Nat) : List UInt8 :=
  [sec.toUInt8, 0, 0, 0, 0, 0, 0, 0, type.toUInt8, 0, code.toUInt8, 0, value.toUInt8,
    (value / 256).toUInt8, 0, 0]

/-- A finger lands on the cube. -/
def landing (sec : Nat) : List UInt8 :=
  recordBytes sec evAbs absMtTrackingId 7 ++ recordBytes sec evAbs absMtPositionX 500 ++
    recordBytes sec evAbs absMtPositionY 300 ++ recordBytes sec evSyn synReport 0

def quietEvent : EventEnv := { memory := true, actions := fun _ _ _ => quietAction }

def quietCall (answers : List (Action ℚ)) (now : ℚ) : ReadCall ℚ where
  hasFd := true
  clock := none
  answers
  now
  arriving := fun _ _ => quietEvent
  expiring := fun _ _ => quietEvent

def landingCall : ReadCall ℚ :=
  quietCall [.read 16, .read 16, .read 10, .read 6, .read 16, .readFails eagain] 1

def hundredLevels : Backlight := ⟨100, by decide, by decide⟩

/-- The application at its start, with what the touch screen will write. -/
def tablet (stream : List UInt8) : Option (Console ℚ ℚ) :=
  (controlInputInit ContactStream.plainFlip stream).bind fun input =>
    (controlRuntimeInit (startEnv hundredLevels) 0).map fun world => { input, world }

theorem landing_taken : ∃ c c' : Console ℚ ℚ, tablet (landing 1) = some c ∧ (c'.input.cube 0).active = true ∧
    ∃ taken rest, c'.input.decoder.delivered = c.input.decoder.delivered ++ taken ++ rest ∧
      Run Takes (readFrom c c'.input.decoder) taken c' ∧
      (c'.world.runtime.sleepRequested = false → rest = [] ∧ c'.input.decoder.reader.input.ready = []) := by
  have hread : ((tablet (landing 1)).bind fun c => (controlInputRead 4 c landingCall).map fun r =>
      (r.1, (r.2.input.cube 0).active)) = some (true, true) := by decide +kernel
  obtain ⟨c, hstart, hcall⟩ := Option.bind_eq_some_iff.mp hread
  obtain ⟨⟨ok, c'⟩, hcall, hshown⟩ := Option.map_eq_some_iff.mp hcall
  obtain ⟨rfl, hactive⟩ := Prod.mk.inj hshown
  obtain ⟨input, hinit, hworld⟩ := Option.bind_eq_some_iff.mp hstart
  obtain ⟨world, _, rfl⟩ := Option.map_eq_some_iff.mp hworld
  exact ⟨_, c', hstart, hactive, read_takes_all hinit .nil hcall⟩

end Tablet

end Taq102.App
