import Taq102.App.Dispatch
import Taq102.Touch.Epoch
import Taq102.Touch.Ownership

/-! No finger without a contact: whatever the router holds, and so every finger the cube reports, is a
contact that the decoder has reported and not yet ended. -/
namespace Taq102.App
open Taq102.Lib CFloat Transition Bracket
open Touch Touch.Evdev Touch.Reading Touch.ContactStream Touch.Epoch Taq102.Runtime Panel
variable {F D : Type}

/-- A time that the application takes. -/
def Usable [CFloat D] (t : D) : Prop :=
  isFinite t = true ∧ ¬ t < lit 0 ∧ ¬ (ofInt int64Max : D) / lit 1000 ≤ t

instance [CFloat D] (t : D) : Decidable (Usable t) := by
  unfold Usable
  infer_instance

theorem eventTime_of_usable [CFloat D] {e : TouchEvent F D} (h : Usable e.t) :
    eventTime e = some (trunc (e.t * lit 1000)) := by
  obtain ⟨hfinite, hpositive, hbelow⟩ := h
  unfold eventTime
  rw [if_neg]
  rintro (hinfinite | hnegative | habove)
  · exact hinfinite hfinite
  · exact hpositive hnegative
  · exact hbelow habove

section Router
variable [CFloat F] {r : TouchRouter F D} {a : Arrival F D} {i : Fin touchMaxSlots}

/-- The end of a contact frees its slot. -/
theorem owner_ends (hslot : selectedSlot a.event.slot = some i) (hends : a.event.kind.ends = true) :
    (route r a).2.owner i = .none := by
  have hkind : a.event.kind ≠ .down := by
    intro hdown
    rw [hdown] at hends
    cases hends
  have hcleared (r : TouchRouter F D) : (clearContact r i).owner i = .none := by
    rw [clearContact_owner, if_pos rfl]
  have hstays (r : TouchRouter F D) : opens r i a.event = false := by
    by_contra hopens
    have hmove := opens_move (eq_true_of_ne_false hopens)
    rw [hmove] at hends
    cases hends
  unfold route
  rw [hslot]
  dsimp only
  rw [if_neg hkind]
  unfold routeOwned
  cases howner : r.owner i with
  | none => exact howner
  | candidate =>
    dsimp only
    unfold routeCandidate
    rw [if_neg (by rw [hstays]; exact Bool.false_ne_true)]
    dsimp only
    rw [if_pos hends]
    exact hcleared r
  | cube =>
    dsimp only
    unfold routeCube
    rw [if_neg (by intro hmove; rw [hmove] at hends; cases hends)]
    rw [if_pos hends]
    exact hcleared _
  | panel =>
    dsimp only
    rw [(routePanel_spec r i a).owners, if_pos hends]
    exact hcleared r
  | panelIgnored =>
    dsimp only
    unfold routeIgnored
    rw [if_pos hends]
    exact hcleared r

/-- A slot that has an owner after an event was pressed by it, or had one and was not left. -/
theorem owner_after (h : (route r a).2.owner i ≠ .none) :
    (selectedSlot a.event.slot = some i ∧ a.event.kind = .down) ∨
      (r.owner i ≠ .none ∧ (selectedSlot a.event.slot = some i → a.event.kind = .move)) := by
  by_cases hslot : selectedSlot a.event.slot = some i
  · cases hkind : a.event.kind with
    | down => exact .inl ⟨hslot, rfl⟩
    | move =>
      have hleaves : Leaves i (RouterStep.route a) := fun _ => hkind
      have hsame : (route r a).2.owner i = r.owner i := owner_leaves hleaves
      exact .inr ⟨hsame ▸ h, fun _ => rfl⟩
    | up => exact absurd (owner_ends hslot (by rw [hkind]; rfl)) h
    | cancel => exact absurd (owner_ends hslot (by rw [hkind]; rfl)) h
  · have hleaves : Leaves i (RouterStep.route a) := fun hs => absurd hs hslot
    have hsame : (route r a).2.owner i = r.owner i := owner_leaves hleaves
    exact .inr ⟨hsame ▸ h, fun hs => absurd hs hslot⟩

end Router

section Owned
variable {r : TouchRouter F D} {fed : List (TouchEvent F D)}

theorem nested_of_append {i : Fin touchMaxSlots} {events more : List (TouchEvent F D)}
    (h : Nested (contactMarks i (events ++ more))) : Nested (contactMarks i events) := by
  obtain ⟨o, ho⟩ := h
  rw [contactMarks_append, scan_append] at ho
  obtain ⟨c, hc, _⟩ := Option.bind_eq_some_iff.mp ho
  exact ⟨c, hc⟩

theorem slot_eq_iff {n : Int} {i : Fin touchMaxSlots} : n = slotNumber i ↔ selectedSlot n = some i := by
  constructor
  · rintro rfl
    exact selectedSlot_slotNumber i
  · intro h
    exact (slotNumber_of_selectedSlot h).symm

/-- What the router holds is open in the events it was fed, and the cube shows what it owns. -/
structure Holds [CFloat F] (r : TouchRouter F D) (fed : List (TouchEvent F D)) : Prop where
  owned : ∀ i, r.owner i ≠ .none → scan false (contactMarks i fed) = some true
  shows : ShowsOwned r

variable [CFloat F]

theorem Holds.route (h : Holds r fed) {ev : TouchEvent F D}
    (hnested : ∀ i, Nested (contactMarks i (fed ++ [ev]))) :
    Holds (route r ⟨ev, true⟩).2 (fed ++ [ev]) := by
  have hmarks (i : Fin touchMaxSlots) : contactMarks i (fed ++ [ev]) =
      contactMarks i fed ++ if selectedSlot ev.slot = some i then [bracketMark ev.kind] else [] := by
    rw [contactMarks_append, contactMarks_singleton]
    simp only [slot_eq_iff]
  refine ⟨fun i howner => ?_, ?_⟩
  · rw [hmarks]
    rcases owner_after howner with ⟨hslot, hdown⟩ | ⟨hbefore, hmoves⟩
    · obtain ⟨o, ho⟩ := hnested i
      dsimp only at hslot hdown
      rw [hmarks, if_pos hslot, hdown, scan_append] at ho
      rw [if_pos hslot, hdown, scan_append]
      obtain ⟨c, hc, hopens⟩ := Option.bind_eq_some_iff.mp ho
      rw [hc]
      cases c with
      | false => rfl
      | true => exact nomatch hopens
    · refine scan_concat (h.owned i hbefore) ?_
      split
      · rename_i hslot
        rw [hmoves hslot]
        rfl
      · rfl
  · have hadvance : ShowsOwned (advance r (RouterStep.route ⟨ev, true⟩)) := by
      refine showsOwned_advance h.shows ?_
      rintro ⟨i, hslot, hdown, howner, _⟩
      obtain ⟨o, ho⟩ := hnested i
      dsimp only at hslot hdown
      have hopen := h.owned i (by rw [howner]; exact nofun)
      rw [hmarks, if_pos hslot, hdown, scan_append, hopen] at ho
      exact nomatch ho
    exact hadvance

end Owned

section Taken
variable [CFloat F] [CFloat D] [CDouble F D]

/-- The router holds contacts of the events it was fed, and the cube is the router's. -/
structure Shown (c : Console F D) (fed : List (TouchEvent F D)) : Prop where
  holds : Holds c.input.router fed
  cube : c.input.cube = c.input.router.cube

theorem dispatch_shown {c : Console F D} {fed : List (TouchEvent F D)} (h : Shown c fed)
    (ev : TouchEvent F D) (hnested : ∀ i, Nested (contactMarks i (fed ++ [ev]))) (now : Int)
    (e : Nat → ActionEnv) : Shown (dispatch c ev now e) (fed ++ [ev]) := by
  have hopened (isOpen : Int) : Holds (touchRouterSetPanelOpen c.input.router isOpen) fed :=
    ⟨h.holds.owned, h.holds.shows⟩
  have hrouted (isOpen : Int) := (hopened isOpen).route hnested
  unfold dispatch
  dsimp only
  exact ⟨⟨(hrouted _).owned, (hrouted _).shows⟩, rfl⟩

theorem takes_shown {c c' : Console F D} {fed taken : List (TouchEvent F D)} (h : Shown c fed)
    (hrun : Run Takes c taken c') (husable : ∀ e ∈ taken, Usable e.t)
    (hnested : ∀ i, Nested (contactMarks i (fed ++ taken))) : Shown c' (fed ++ taken) := by
  induction hrun with
  | nil =>
    rw [List.append_nil]
    exact h
  | @snoc labels t u ev _ hstep ih =>
    have hbefore : ∀ i, Nested (contactMarks i (fed ++ labels)) := by
      intro i
      have hlonger := hnested i
      rw [← List.append_assoc] at hlonger
      exact nested_of_append hlonger
    have hshown := ih (fun e he => husable e (List.mem_append_left _ he)) hbefore
    rw [← List.append_assoc] at hnested ⊢
    obtain ⟨_, ⟨hskip, _⟩ | ⟨now, e, _, rfl⟩⟩ := hstep
    · have htime := eventTime_of_usable (husable ev (List.mem_append_right _ List.mem_cons_self))
      exact nomatch hskip.symm.trans htime
    · exact dispatch_shown hshown ev hnested now e

end Taken

/-! The conditions on what the kernel answers. -/
section Answers
variable [CFloat F] [CFloat D] [CDouble F D] {word : Nat}

/-- Every record that the answers complete has the property, in the state it arrives in. -/
def Along (word : Nat) (P : Descriptor F D → TouchRaw D → Prop) :
    Descriptor F D → List (Action D) → Prop
  | _, [] => True
  | s, a :: rest => (∀ raw, completed word s a = some raw → P s raw) ∧
      ∀ t, Descriptor.next word s a = some t → Along word P t rest

instance decidableAlong (P : Descriptor F D → TouchRaw D → Prop) [∀ s raw, Decidable (P s raw)] :
    (s : Descriptor F D) → (actions : List (Action D)) → Decidable (Along word P s actions)
  | _, [] => isTrue trivial
  | s, a :: rest =>
    have (t : Descriptor F D) : Decidable (Along word P t rest) := decidableAlong P t rest
    inferInstanceAs (Decidable ((∀ raw ∈ completed word s a, P s raw) ∧
      ∀ t ∈ Descriptor.next word s a, Along word P t rest))

/-- The record has a time that the application takes. -/
def OnTime (_ : Descriptor F D) (raw : TouchRaw D) : Prop := Usable raw.t

/-- And it reports no loss while the cancellations of an earlier one wait. -/
def Orderly (s : Descriptor F D) (raw : TouchRaw D) : Prop :=
  Usable raw.t ∧ (raw.isSynDropped = true → ¬ CancelPending s.reader.input)

instance (s : Descriptor F D) (raw : TouchRaw D) : Decidable (OnTime s raw) := by
  unfold OnTime
  infer_instance

instance (s : Descriptor F D) (raw : TouchRaw D) : Decidable (Orderly s raw) := by
  unfold Orderly CancelPending
  infer_instance

theorem Along.imp {P Q : Descriptor F D → TouchRaw D → Prop} (hle : ∀ s raw, P s raw → Q s raw)
    {s : Descriptor F D} {actions : List (Action D)} (h : Along word P s actions) :
    Along word Q s actions := by
  induction actions generalizing s with
  | nil => trivial
  | cons a rest ih => exact ⟨fun raw hraw => hle s raw (h.1 raw hraw), fun t ht => ih (h.2 t ht)⟩

theorem along_sound {s t : Descriptor F D} {actions : List (Action D)} (h : Sound Usable s.reader)
    (hall : Along word OnTime s actions) (hrun : actions.foldlM (Descriptor.next word) s = some t) :
    Sound Usable t.reader := by
  induction actions generalizing s with
  | nil =>
    cases hrun
    exact h
  | cons a rest ih =>
    rw [List.foldlM_cons] at hrun
    obtain ⟨next, hnext, hrest⟩ := Option.bind_eq_some_iff.mp hrun
    exact ih (next_sound h hall.1 hnext) (hall.2 next hnext) hrest

theorem along_since {past : List (TouchEvent F D)} {s t : Descriptor F D} {actions : List (Action D)}
    (hs : Sound Usable s.reader) (h : Since Usable past s) (hall : Along word Orderly s actions)
    (hrun : actions.foldlM (Descriptor.next word) s = some t) : Since Usable past t := by
  induction actions generalizing s with
  | nil =>
    cases hrun
    exact h
  | cons a rest ih =>
    rw [List.foldlM_cons] at hrun
    obtain ⟨next, hnext, hrest⟩ := Option.bind_eq_some_iff.mp hrun
    have htimes := fun raw hraw => (hall.1 raw hraw).1
    have halone := fun raw hraw => (hall.1 raw hraw).2
    exact ih (next_sound hs htimes hnext) (next_since hs htimes halone hnext h) (hall.2 next hnext) hrest

/-- The conditions on a call of `control_input_read`. -/
structure ReadCall.Orderly (word : Nat) (d : Descriptor F D) (call : ReadCall D) : Prop where
  now : Usable call.now
  records : call.hasFd = true →
    Along word App.Orderly d (.call true portion call.clock :: call.answers)

instance (d : Descriptor F D) (call : ReadCall D) : Decidable (call.Orderly word d) :=
  decidable_of_iff (Usable call.now ∧ (call.hasFd = true →
    Along word App.Orderly d (.call true portion call.clock :: call.answers)))
    ⟨fun h => ⟨h.1, h.2⟩, fun h => ⟨h.now, h.records⟩⟩

theorem fetched_sound {d d' : Descriptor F D} {call : ReadCall D}
    {result : Except Int (List (TouchEvent F D))} (h : Sound Usable d.reader)
    (hall : call.hasFd = true → Along word OnTime d (.call true portion call.clock :: call.answers))
    (hfetched : fetched word d call = some (result, d')) : Sound Usable d'.reader := by
  unfold fetched at hfetched
  split at hfetched
  · rename_i hfd
    obtain ⟨⟨entered, hcall, hrest⟩, _⟩ := readFd_progress hfetched
    have hrun : (Action.call true portion call.clock :: call.answers).foldlM (Descriptor.next word) d =
        some d' := by
      rw [List.foldlM_cons, hcall]
      exact hrest
    exact along_sound h (hall hfd) hrun
  · cases hfetched
    exact h

theorem fetched_since {past : List (TouchEvent F D)} {d d' : Descriptor F D} {call : ReadCall D}
    {result : Except Int (List (TouchEvent F D))} (hs : Sound Usable d.reader) (h : Since Usable past d)
    (hcall : call.Orderly word d) (hfetched : fetched word d call = some (result, d')) :
    Since Usable past d' := by
  unfold fetched at hfetched
  split at hfetched
  · rename_i hfd
    obtain ⟨⟨entered, hentered, hrest⟩, _⟩ := readFd_progress hfetched
    have hrun : (Action.call true portion call.clock :: call.answers).foldlM (Descriptor.next word) d =
        some d' := by
      rw [List.foldlM_cons, hentered]
      exact hrest
    exact along_since hs h (hcall.records hfd) hrun
  · cases hfetched
    exact h

omit [CFloat F] [CFloat D] [CDouble F D] in
theorem drawn_draws (d : Descriptor F D) (n : Nat) : Draws d (drawn d n) :=
  ⟨⟨n, rfl, rfl⟩, rfl, rfl, .inr rfl⟩

end Answers

section Console
variable [CFloat F] [CFloat D] [CDouble F D] {word : Nat}

/-- Since the decoder was clear the last time, `past` having been handed out before, the router was
fed what was handed out, but for what was left out when the application was to sleep. -/
structure Aligned (c : Console F D) : Prop where
  settled : Settled c
  sound : Sound Usable c.input.decoder.reader
  fed : ∃ past fed skipped, c.input.decoder.delivered = past ++ (fed ++ skipped) ∧
    Since Usable past c.input.decoder ∧ Shown c fed ∧
    (skipped = [] ∨ c.world.runtime.sleepRequested = true)

theorem read_sound {c c' : Console F D} {call : ReadCall D} (h : Sound Usable c.input.decoder.reader)
    (hcall : call.Orderly word c.input.decoder) (hthrough : ReadThrough word c call c') :
    Sound Usable c'.input.decoder.reader := by
  obtain ⟨first, d, n, k, hfetched, _, hdecoder⟩ := hthrough.through
  have hall := fun hfd => (hcall.records hfd).imp fun _ _ horderly => horderly.1
  have hread := fetched_sound h hall hfetched
  have hexpired := expire_sound ((drawn_draws d n).sound hread) hcall.now (List.finRange touchMaxSlots)
  rw [hdecoder]
  exact (drawn_draws (expired (drawn d n) call.now) k).sound hexpired

theorem read_since {past : List (TouchEvent F D)} {c c' : Console F D} {call : ReadCall D}
    (hs : Sound Usable c.input.decoder.reader) (h : Since Usable past c.input.decoder)
    (hcall : call.Orderly word c.input.decoder) (hthrough : ReadThrough word c call c') :
    Since Usable past c'.input.decoder := by
  obtain ⟨first, d, n, k, hfetched, _, hdecoder⟩ := hthrough.through
  have hall := fun hfd => (hcall.records hfd).imp fun _ _ horderly => horderly.1
  have hread := fetched_sound hs hall hfetched
  have hsince := fetched_since hs h hcall hfetched
  have hdrawn := (drawn_draws d n).sound hread
  have hexpired := expire_sound hdrawn hcall.now (List.finRange touchMaxSlots)
  have hafter := expire_since call.now (List.finRange touchMaxSlots) ((drawn_draws d n).since hread hsince)
  rw [hdecoder]
  exact (drawn_draws (expired (drawn d n) call.now) k).since hexpired hafter

theorem read_aligned {c c' : Console F D} {call : ReadCall D} (h : Aligned c)
    (hcall : call.Orderly word c.input.decoder) (hread : controlInputRead word c call = some (true, c')) :
    Aligned c' := by
  have hthrough := controlInputRead_through h.settled hread
  refine ⟨hthrough.settled h.settled, read_sound h.sound hcall hthrough, ?_⟩
  obtain ⟨past, fed, skipped, hbefore, hsince, hshown, hskipped⟩ := h.fed
  have hafter := read_since h.sound hsince hcall hthrough
  obtain ⟨events, hdelivered, taken, rest, rfl, htakes, hrest⟩ := hthrough.taken
  have hstart : Shown (readFrom c c'.input.decoder) fed := ⟨hshown.holds, hshown.cube⟩
  obtain ⟨handed, hpast, hbalanced, husable⟩ := id hafter
  have hhanded : handed = fed ++ skipped ++ (taken ++ rest) := by
    rw [hpast, hbefore, List.append_assoc] at hdelivered
    exact List.append_cancel_left hdelivered
  cases hasleep : c.world.runtime.sleepRequested with
  | true =>
    obtain ⟨rfl, hsame⟩ := takes_asleep (c := readFrom c c'.input.decoder) hasleep htakes
    refine ⟨past, fed, skipped ++ rest, ?_, hafter, ?_, .inr ?_⟩
    · rw [hpast, hhanded, List.nil_append, List.append_assoc]
    · rw [hsame]
      exact hstart
    · rw [hsame]
      exact hasleep
  | false =>
    obtain rfl := hskipped.resolve_right (by rw [hasleep]; exact Bool.false_ne_true)
    rw [List.append_nil] at hhanded
    refine ⟨past, fed ++ taken, rest, ?_, hafter, ?_, hrest⟩
    · rw [hpast, hhanded, List.append_assoc]
    · refine takes_shown hstart htakes (fun e he => husable e ?_) fun i => ?_
      · rw [hhanded]
        exact List.mem_append_right _ (List.mem_append_left _ he)
      · obtain ⟨o, ho, _⟩ := hbalanced.scanned i
        rw [hhanded, ← List.append_assoc] at ho
        exact nested_of_append (nested_of_append ⟨o, ho⟩)

/-! A reset. -/

omit [CDouble F D] in
theorem cancelAll_clear (ti : TouchInput F D) :
    Clear { cancelActiveToReady ti (latestSpoke ti) with discarding := false } := by
  rw [cancelActiveToReady_eq]
  exact ⟨rfl, rfl, fun i => ⟨rfl, rfl⟩⟩

theorem flushReady_drawn (fuel : Nat) (d : Descriptor F D) (hfuel : d.reader.input.ready.length ≤ fuel) :
    ∃ n, flushReady fuel d = drawn d n ∧ d.reader.input.ready.length ≤ n := by
  induction fuel generalizing d with
  | zero => exact ⟨0, (drawn_zero d).symm, hfuel⟩
  | succ fuel ih =>
    unfold flushReady
    dsimp only
    have hportion : (touchInputFeed d.reader.input [] true portion).1.getD [] =
        d.reader.input.ready.take 64 := by
      unfold touchInputFeed
      rw [List.foldl_nil, drainReady_portion]
      rfl
    rw [hportion, handOut_portion]
    split
    · rename_i hempty
      have hnone : d.reader.input.ready = [] := by
        rw [List.isEmpty_iff] at hempty
        exact (List.take_eq_nil_iff.mp hempty).resolve_left (by decide)
      exact ⟨0, (drawn_zero d).symm, by rw [hnone]; exact Nat.zero_le _⟩
    · have hrest : (drawn d 64).reader.input.ready = d.reader.input.ready.drop 64 := rfl
      have hfewer : (drawn d 64).reader.input.ready.length ≤ fuel := by
        rw [hrest, List.length_drop]
        omega
      obtain ⟨n, hflushed, hn⟩ := ih (drawn d 64) hfewer
      refine ⟨64 + n, by rw [hflushed, drawn_drawn], ?_⟩
      rw [hrest, List.length_drop] at hn
      omega

/-- After a reset nothing is known of any contact, and nothing waits. -/
structure Fresh (c : Console F D) : Prop where
  clear : Clear c.input.decoder.reader.input
  ready : c.input.decoder.reader.input.ready = []
  owners : ∀ i, c.input.router.owner i = .none
  inactive : ∀ i, (c.input.router.cube i).active = false
  cube : c.input.cube = c.input.router.cube

theorem reset_decoder (c : Console F D) (flipped : Bool) :
    Clear (controlInputReset c flipped).input.decoder.reader.input ∧
      (controlInputReset c flipped).input.decoder.reader.input.ready = [] ∧
      (controlInputReset c flipped).input.decoder.reader.resyncNeeded =
        c.input.decoder.reader.resyncNeeded ∧
      (controlInputReset c flipped).input.decoder.reader.resyncTime = c.input.decoder.reader.resyncTime ∧
      (controlInputReset c flipped).input.decoder.reader.pc = c.input.decoder.reader.pc := by
  unfold controlInputReset
  dsimp only
  generalize touchInputSetFlipped c.input.decoder.reader.input flipped = ti
  obtain ⟨d, hd⟩ : ∃ d, d = handOut { c.input.decoder with reader := { c.input.decoder.reader with input := ti } }
      (touchInputCancelAll ti true portion) := ⟨_, rfl⟩
  have hclear : Clear d.reader.input := by
    have hcancelled := cancelAll_clear ti
    rw [hd]
    unfold touchInputCancelAll
    rw [drainReady_portion]
    exact ⟨hcancelled.following, hcancelled.frame, hcancelled.slots⟩
  obtain ⟨n, hflushed, hn⟩ := flushReady_drawn d.reader.input.ready.length d le_rfl
  rw [← hd, hflushed]
  refine ⟨⟨hclear.following, hclear.frame, hclear.slots⟩, List.drop_eq_nil_of_le hn, ?_, ?_, ?_⟩
  · rw [hd]
    rfl
  · rw [hd]
    rfl
  · rw [hd]
    rfl

theorem reset_fresh (c : Console F D) (flipped : Bool) : Fresh (controlInputReset c flipped) := by
  obtain ⟨hclear, hready, _⟩ := reset_decoder c flipped
  exact ⟨hclear, hready, fun _ => rfl, fun _ => rfl, rfl⟩

theorem reset_sound {c : Console F D} (h : Sound Usable c.input.decoder.reader) (flipped : Bool) :
    Sound Usable (controlInputReset c flipped).input.decoder.reader := by
  obtain ⟨hclear, hready, hneeded, htime, hpc⟩ := reset_decoder c flipped
  refine ⟨hclear.quiet, ⟨?_, ?_⟩, fun hn => ?_, fun stage resume hp => ?_⟩
  · rw [hready]
    exact nofun
  · rw [hclear.frame]
    exact nofun
  · rw [hneeded] at hn
    rw [htime]
    exact ⟨hclear, (h.clear hn).2⟩
  · rw [hpc] at hp
    rw [hneeded]
    exact h.owed stage resume hp

omit [CDouble F D] in
/-- The router starts over with the decoder. -/
theorem Fresh.aligned {c : Console F D} (h : Fresh c) (hsettled : Settled c)
    (hsound : Sound Usable c.input.decoder.reader) : Aligned c := by
  refine ⟨hsettled, hsound, c.input.decoder.delivered, [], [], (List.append_nil _).symm,
    ⟨[], (List.append_nil _).symm, ?_, nofun⟩, ⟨⟨fun i howner => ?_, fun i => ?_⟩, h.cube⟩, .inl rfl⟩
  · rw [h.ready]
    exact h.clear.balanced
  · exact absurd (h.owners i) howner
  · rw [h.inactive i, h.owners i]
    exact iff_of_false nofun nofun

theorem reset_aligned {c : Console F D} (h : Sound Usable c.input.decoder.reader)
    (hworks : c.input.failed = false) (flipped : Bool) : Aligned (controlInputReset c flipped) :=
  (reset_fresh c flipped).aligned ⟨rfl, rfl, hworks⟩ (reset_sound h flipped)

omit [CDouble F D] in
/-- What the runtime does leaves the fingers alone, as long as a request to sleep stands. -/
theorem Aligned.withWorld {c : Console F D} (h : Aligned c) {w : World F}
    (hstands : c.world.runtime.sleepRequested = true → w.runtime.sleepRequested = true) :
    Aligned { c with world := w } := by
  obtain ⟨past, fed, skipped, hbefore, hsince, hshown, hskipped⟩ := h.fed
  exact ⟨⟨h.settled.pending, h.settled.error, h.settled.working⟩, h.sound, past, fed, skipped, hbefore,
    hsince, ⟨hshown.holds, hshown.cube⟩, hskipped.imp_right hstands⟩

omit [CDouble F D] in
theorem Aligned.showPanel {c : Console F D} (h : Aligned c) (isOpen : Int) :
    Aligned { c with input := { c.input with router := touchRouterSetPanelOpen c.input.router isOpen } } := by
  obtain ⟨past, fed, skipped, hbefore, hsince, hshown, hskipped⟩ := h.fed
  exact ⟨⟨h.settled.pending, h.settled.error, h.settled.working⟩, h.sound, past, fed, skipped, hbefore,
    hsince, ⟨⟨hshown.holds.owned, hshown.holds.shows⟩, hshown.cube⟩, hskipped⟩

/-- The decoder has reported the slot's contact and not ended it; while a packet is discarded, its
end waits for the packet's. -/
def Reported (ti : TouchInput F D) (i : Fin touchMaxSlots) : Prop :=
  (ti.slot i).announced = true ∨
    ti.discarding = true ∧ ∃ e ∈ ti.frame, e.slot = slotNumber i ∧ e.kind = .cancel

omit [CDouble F D] in
/-- Whatever has an owner is a contact that the decoder has reported. -/
theorem Aligned.reported {c : Console F D} (h : Aligned c)
    (hawake : c.world.runtime.sleepRequested = false)
    (hempty : c.input.decoder.reader.input.ready = []) {i : Fin touchMaxSlots}
    (howner : c.input.router.owner i ≠ .none) : Reported c.input.decoder.reader.input i := by
  obtain ⟨past, fed, skipped, hbefore, ⟨handed, hpast, hbalanced, _⟩, hshown, hskipped⟩ := h.fed
  obtain rfl := hskipped.resolve_right (by rw [hawake]; exact Bool.false_ne_true)
  have hhanded : handed = fed := by
    rw [hpast, List.append_nil] at hbefore
    exact List.append_cancel_left hbefore
  obtain ⟨o, ho, hframe, hannounced⟩ := hbalanced.scanned i
  rw [hhanded, hempty, List.append_nil, hshown.holds.owned i howner] at ho
  obtain rfl := Option.some.inj ho
  cases hd : c.input.decoder.reader.input.discarding with
  | false => exact .inl (hannounced hd)
  | true =>
    right
    rw [(hbalanced.cleared hd i).2] at hframe
    have hmarks : contactMarks i c.input.decoder.reader.input.frame ≠ [] := by
      intro hnone
      rw [hnone] at hframe
      exact nomatch hframe
    have hfilter : c.input.decoder.reader.input.frame.filter (fun e => e.slot = slotNumber i) ≠ [] :=
      fun hnone => hmarks (List.map_eq_nil_iff.mpr hnone)
    obtain ⟨e, he⟩ := List.exists_mem_of_ne_nil _ hfilter
    obtain ⟨hmem, hslot⟩ := List.mem_filter.mp he
    exact ⟨hd, e, hmem, of_decide_eq_true hslot, hbalanced.cancels hd e hmem⟩

omit [CDouble F D] in
/-- A finger of the cube is a contact that the decoder has reported. -/
theorem Aligned.finger {c : Console F D} (h : Aligned c)
    (hawake : c.world.runtime.sleepRequested = false)
    (hempty : c.input.decoder.reader.input.ready = []) {i : Fin touchMaxSlots}
    (hactive : (c.input.cube i).active = true) : Reported c.input.decoder.reader.input i := by
  obtain ⟨_, _, _, _, _, hshown, _⟩ := h.fed
  rw [hshown.cube] at hactive
  have howner := (hshown.holds.shows i).mp hactive
  exact h.reported hawake hempty (by rw [howner]; exact nofun)

end Console

end Taq102.App
