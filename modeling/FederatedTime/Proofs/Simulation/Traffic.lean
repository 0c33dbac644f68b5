import FederatedTime.Proofs.Simulation.Setup
import FederatedTime.Random.ChaCha
import Mathlib.Data.List.Forall2

/-!
# Everything that is sent arrives in order

A run is seen from outside as the states in which it makes a delivery (`visited`): those it passes
through and does not rest in (`getElem?_visited_eq_some_iff`), the last of which leads to its end
(`runWithin_eq`). Each of them shows what is delivered and what is sent in answer. On each link,
what has been delivered is what has been sent first, in the same order, and the rest is under way;
nothing takes less time than the latency of the network (`links_in_order`).
-/

namespace FederatedTime

namespace Simulation

/-! ## A run from outside -/

/-- A delivery with the time at which it is sent, or made. -/
structure Transit where
  time : Duration
  delivery : Delivery
deriving DecidableEq

/-- The states of a run in which a delivery is made, `fuel` at most. -/
def visited : (fuel : Nat) → Simulation → List Simulation
  | 0, _ => []
  | fuel + 1, s =>
    match s.step? with
    | none => []
    | some (next, none) => s :: visited fuel next
    | some (_, some _) => [s]

theorem runWithin_of_rest {s : Simulation} (h : s.step? = none) (fuel : Nat) :
    s.runWithin fuel = (s, none) := by
  cases fuel with
  | zero => rfl
  | succ fuel => rw [runWithin, h]

theorem visited_succ {s next : Simulation} {violation : Option Violation}
    (h : s.step? = some (next, violation)) (fuel : Nat) :
    s.visited (fuel + 1) = s :: if violation.isNone then next.visited fuel else [] := by
  rw [visited, h]
  cases violation <;> rfl

/-- What a run visits are the states that it is in after some deliveries, and in which it makes
another one. -/
theorem getElem?_visited_eq_some_iff {s s' : Simulation} {fuel i : Nat} :
    (s.visited fuel)[i]? = some s' ↔
      i < fuel ∧ s.runWithin i = (s', none) ∧ s'.step?.isSome := by
  induction fuel generalizing s i with
  | zero => simp [visited]
  | succ fuel ih =>
    cases hstep : s.step? with
    | none =>
      rw [visited, hstep]
      refine iff_of_false (by simp) ?_
      rintro ⟨-, hrun, hmoves⟩
      obtain rfl := congrArg Prod.fst ((runWithin_of_rest hstep i).symm.trans hrun)
      rw [hstep] at hmoves
      cases hmoves
    | some checked =>
      obtain ⟨next, violation⟩ := checked
      rw [visited_succ hstep]
      cases i with
      | zero =>
        constructor
        · intro h
          obtain rfl := Option.some.inj h
          exact ⟨Nat.succ_pos fuel, rfl, by rw [hstep]; rfl⟩
        · rintro ⟨-, hrun, -⟩
          exact congrArg some (congrArg Prod.fst hrun)
      | succ i =>
        rw [List.getElem?_cons_succ, runWithin, hstep, Nat.succ_lt_succ_iff]
        cases violation with
        | none => exact ih
        | some violation =>
          refine iff_of_false (by simp) ?_
          rintro ⟨-, hrun, -⟩
          cases hrun

/-- A run ends with the last delivery that it makes. -/
theorem runWithin_eq (s : Simulation) (fuel : Nat) : s.runWithin fuel =
    (s.visited fuel).getLast?.elim (s, none) fun last => last.step?.getD (last, none) := by
  induction fuel generalizing s with
  | zero => rfl
  | succ fuel ih =>
    rw [runWithin]
    cases hstep : s.step? with
    | none =>
      rw [visited, hstep]
      rfl
    | some checked =>
      obtain ⟨next, violation⟩ := checked
      rw [visited_succ hstep]
      cases violation with
      | some violation =>
        show (next, some violation) = s.step?.getD (s, none)
        rw [hstep]
        rfl
      | none =>
        show next.runWithin fuel = (s :: next.visited fuel).getLast?.elim _ _
        rw [ih next, List.getLast?_cons]
        cases (next.visited fuel).getLast? with
        | none =>
          show (next, none) = s.step?.getD (s, none)
          rw [hstep]
          rfl
        | some last => rfl

/-- The next delivery, if anything is under way. -/
def due? (s : Simulation) : Option Transit :=
  s.queue.entries.head?.map fun entry => ⟨entry.time, entry.event⟩

/-- The actions that are carried out of those that the coordinator wants done: the ones before the
first that a check objects to. -/
def allowed (s : Simulation) : List Action → List Action
  | [] => []
  | action :: actions =>
    match s.perform action with
    | (next, none) => action :: next.allowed actions
    | (_, some _) => []

/-- What is sent in answer to a delivery. -/
def answers (s : Simulation) : Delivery → List Delivery
  | .start f =>
    [.toCoordinator (.connectionOpened (connectionOf f) (peerOf f)),
      .toCoordinator (.messageReceived (connectionOf f) (.join f s.federationId))]
  | .toCoordinator e =>
    ((s.answering e).allowed ((s.coordinator.setTime s.now).handle e).2).filterMap delivery?
  | .toFederate f message =>
    match s.federates.get? f with
    | none => []
    | some federate =>
      (federate.onMessage message s.clockReading).2.map fun output =>
        .toCoordinator (output.event f)

/-- What is sent when the next delivery is made. -/
def sends (s : Simulation) : List Transit :=
  match s.queue.entries with
  | [] => []
  | entry :: rest => ((s.taken entry rest).answers entry.event).map (⟨entry.time, ·⟩)

/-- Whether a delivery travels over a link. -/
def Transit.isOn (l : Link) (t : Transit) : Bool := t.delivery.link? = some l

/-- What has been delivered on a link. -/
def deliveredOn (l : Link) (past : List Simulation) : List Transit :=
  (past.filterMap due?).filter (Transit.isOn l)

/-- What has been sent on a link. -/
def sentOn (l : Link) (past : List Simulation) : List Transit :=
  (past.flatMap sends).filter (Transit.isOn l)

/-- An entry of the queue that travels over a link. -/
def transitOn? (l : Link) (entry : Scheduled Delivery) : Option Transit :=
  if entry.event.link? = some l then some ⟨entry.time, entry.event⟩ else none

/-- What is under way on a link. -/
def underWayOn (l : Link) (s : Simulation) : List Transit :=
  s.queue.entries.filterMap (transitOn? l)

/-- What is sent arrives as it is, and no earlier than the latency allows. -/
structure Transit.Arrives (base : Duration) (sent delivered : Transit) : Prop where
  delivery : delivered.delivery = sent.delivery
  time : sent.time + base ≤ delivered.time

/-! ## Sending -/

/-- Nothing happens on the network. -/
structure Still (s s' : Simulation) : Prop extends SameTraffic s s' where
  now : s'.now = s.now

/-- The second simulation comes of the first by sending deliveries in order. -/
inductive Sends : Simulation → List Delivery → Simulation → Prop
  | still {s s' : Simulation} (h : Still s s') : Sends s [] s'
  | send {s s₁ s' : Simulation} {d : Delivery} {l : Link} {ds : List Delivery} (h : Still s s₁)
      (hlink : d.link? = some l) (hrest : Sends (s₁.transmit l d) ds s') : Sends s (d :: ds) s'

variable {s s' s₁ : Simulation} {d : Delivery} {l : Link} {ds : List Delivery} {f : FederateId}

theorem Still.refl (s : Simulation) : Still s s := ⟨⟨rfl, rfl⟩, rfl⟩

theorem Still.trans (h : Still s s₁) (h' : Still s₁ s') : Still s s' :=
  ⟨⟨h'.queue.trans h.queue, h'.network.trans h.network⟩, h'.now.trans h.now⟩

theorem Sends.after_still (h : Still s s₁) (h' : Sends s₁ ds s') : Sends s ds s' := by
  cases h' with
  | still hstill => exact .still (h.trans hstill)
  | send hstill hlink hrest => exact .send (h.trans hstill) hlink hrest

theorem Sends.one (h : Still s s₁) (hlink : d.link? = some l) :
    Sends s [d] (s₁.transmit l d) :=
  .send h hlink (.still (.refl _))

theorem Sends.append {ds' : List Delivery} (h : Sends s ds s₁) (h' : Sends s₁ ds' s') :
    Sends s (ds ++ ds') s' := by
  induction h with
  | still hstill => exact h'.after_still hstill
  | send hstill hlink _ ih => exact .send hstill hlink (ih h')

theorem still_noteMessage (s : Simulation) (f : FederateId) (message : Message) :
    Still s (s.noteMessage f message) := by
  cases message <;> exact ⟨⟨rfl, rfl⟩, rfl⟩

theorem still_noteOutput (s : Simulation) (f : FederateId) (output : Output) :
    Still s (s.noteOutput f output) := by
  cases output with
  | send message => cases message <;> exact ⟨⟨rfl, rfl⟩, rfl⟩
  | disconnect => exact .refl s

theorem sends_emit (s : Simulation) (f : FederateId) (output : Output) :
    Sends s [.toCoordinator (output.event f)] (s.emit f output) := by
  rw [emit_eq]
  exact .one (still_noteOutput s f output) (link?_toCoordinator (output.connection?_event f))

theorem sends_foldl_emit (s : Simulation) (f : FederateId) (outputs : List Output) :
    Sends s (outputs.map fun output => .toCoordinator (output.event f))
      (outputs.foldl (·.emit f ·) s) := by
  induction outputs generalizing s with
  | nil => exact .still (.refl s)
  | cons output outputs ih => exact (sends_emit s f output).append (ih (s.emit f output))

theorem sends_perform (s : Simulation) (a : Action) :
    (∃ violation, s.perform a = (s, some violation)) ∨
      (s.perform a).2 = none ∧ Sends s (delivery? a).toList (s.perform a).1 := by
  cases a with
  | send c message =>
    unfold perform
    dsimp only
    split
    · rename_i violation _
      exact Or.inl ⟨violation, rfl⟩
    · exact Or.inr ⟨rfl, .one (still_noteMessage s _ message) rfl⟩
  | closeConnection | sendClockSync | federationFinished =>
    exact Or.inr ⟨rfl, .still (.refl s)⟩

/-- Whatever a check objects to is not sent, nor anything behind it. -/
theorem sends_performAll (s : Simulation) (actions : List Action) :
    Sends s ((s.allowed actions).filterMap delivery?) (s.performAll actions).1 := by
  induction actions generalizing s with
  | nil => exact .still (.refl s)
  | cons a actions ih =>
    rw [allowed, performAll]
    rcases sends_perform s a with ⟨violation, hfault⟩ | ⟨hnone, hsends⟩
    · rw [hfault]
      exact .still (.refl s)
    · generalize hperform : s.perform a = result at hnone hsends
      obtain ⟨next, violation⟩ := result
      obtain rfl : violation = none := hnone
      have happend := hsends.append (ih next)
      dsimp only [Checked.andThen]
      rw [List.filterMap_cons]
      cases hd : delivery? a <;> rw [hd] at happend <;> exact happend

theorem sends_startFederate (s : Simulation) (f : FederateId) :
    Sends s (s.answers (.start f)) (s.startFederate f) :=
  (Sends.one (.refl s) (link?_toCoordinator rfl)).append
    (.one (.refl _) (link?_toCoordinator rfl))

theorem Checked.fst_andThen_check (first : Checked) (check : Simulation → Option Violation) :
    (first.andThen fun s => (s, check s)).1 = first.1 := by
  obtain ⟨s, violation⟩ := first
  cases violation <;> rfl

/-- A delivery is answered by what the federate or the coordinator has to say. -/
theorem sends_deliver (s : Simulation) (d : Delivery) : Sends s (s.answers d) (s.deliver d).1 := by
  cases d with
  | start f => exact sends_startFederate s f
  | toCoordinator e =>
    have hstill : Still s (s.answering e) := by cases e <;> exact ⟨⟨rfl, rfl⟩, rfl⟩
    rw [deliver, deliverToCoordinator_eq, Checked.fst_andThen_check]
    exact (sends_performAll _ _).after_still hstill
  | toFederate f message =>
    rw [deliver]
    cases hf : s.federates.get? f with
    | none =>
      rw [deliverToFederate_eq_of_none hf, answers, hf]
      exact .still (.refl s)
    | some federate =>
      let told : Simulation :=
        { s with federates := s.federates.set f (federate.onMessage message s.clockReading).1 }
      have hstill : Still s told := ⟨⟨rfl, rfl⟩, rfl⟩
      rw [deliverToFederate_eq hf, answers, hf]
      exact (sends_foldl_emit told f _).after_still hstill

/-! ## One link -/

/-- The queue is in order, nothing in it is past, and nothing on a link is due later than the last
message there. -/
structure Flows (s : Simulation) : Prop extends Orderly s where
  le_time : ∀ entry ∈ s.queue.entries, s.now ≤ entry.time

theorem Still.flows (h : Still s s') (hs : s.Flows) : s'.Flows where
  toOrderly := h.toSameTraffic.orderly hs.toOrderly
  le_time := h.now ▸ h.queue ▸ hs.le_time

theorem Still.underWayOn_eq (h : Still s s') (l : Link) : underWayOn l s' = underWayOn l s := by
  unfold underWayOn
  rw [h.queue]

theorem link?_of_transitOn? {entry : Scheduled Delivery} (h : (transitOn? l entry).isSome) :
    entry.event.link? = some l := by
  unfold transitOn? at h
  split at h
  · assumption
  · cases h

namespace Network

theorem latency_drawJitter (n : Network) : n.drawJitter.2.latency = n.latency := by
  unfold drawJitter
  dsimp only
  split <;> rfl

theorem latency_send (n : Network) (now : Duration) (l : Link) :
    (n.send now l).2.latency = n.latency :=
  n.latency_drawJitter

/-- A message takes no less time than the latency. -/
theorem add_base_le_send (n : Network) (now : Duration) (l : Link) :
    now + n.latency.base ≤ (n.send now l).1 := by
  rw [← n.latency_drawJitter]
  exact le_trans (Nat.le_add_right _ _) (le_max_left _ _)

end Network

theorem Flows.transmit (h : s.Flows) (hlink : d.link? = some l) : (s.transmit l d).Flows where
  toOrderly := h.toOrderly.send hlink
  le_time entry hentry := by
    rcases Queue.mem_insert.1 hentry with rfl | hentry
    · exact le_trans (Nat.le_add_right _ _) (s.network.add_base_le_send s.now l)
    · exact h.le_time entry hentry

/-- What is sent is the last that is under way on its link. -/
theorem Orderly.underWayOn_transmit (h : s.Orderly) (hlink : d.link? = some l) (l' : Link) :
    underWayOn l' (s.transmit l d) = underWayOn l' s ++
      if d.link? = some l' then [⟨(s.network.send s.now l).1, d⟩] else [] := by
  refine (Queue.filterMap_insert h.sorted fun entry hentry hpicked hd => ?_).trans ?_
  · have hl : d.link? = some l' := link?_of_transitOn? hd
    obtain rfl := Option.some.inj (hlink.symm.trans hl)
    have hle := h.le_lastArrival entry hentry l (link?_of_transitOn? hpicked)
    exact hle.trans (Network.le_send _ _ _)
  · unfold transitOn?
    dsimp only
    split <;> rfl

/-- What is sent goes behind what is under way, each delivery on its own link, and arrives as it
is. -/
theorem Sends.exists_underWayOn (h : Sends s ds s') (hs : s.Flows) : s'.Flows ∧
    s'.now = s.now ∧ s'.network.latency = s.network.latency ∧
    ∀ l, ∃ coming, underWayOn l s' = underWayOn l s ++ coming ∧
      List.Forall₂ (Transit.Arrives s.network.latency.base)
        ((ds.map (Transit.mk s.now)).filter (Transit.isOn l)) coming := by
  induction h with
  | still hstill =>
    refine ⟨hstill.flows hs, hstill.now, by rw [hstill.network], fun l => ⟨[], ?_, .nil⟩⟩
    rw [hstill.underWayOn_eq, List.append_nil]
  | @send s s₁ s' d l ds hstill hlink hrest ih =>
    have hs₁ := hstill.flows hs
    obtain ⟨hflows, hnow, hlatency, hcoming⟩ := ih (hs₁.transmit hlink)
    have hlatency₁ : (s₁.transmit l d).network.latency = s.network.latency := by
      rw [← hstill.network]
      exact s₁.network.latency_send s₁.now l
    have hnow₁ : (s₁.transmit l d).now = s.now := hstill.now
    refine ⟨hflows, hnow.trans hnow₁, hlatency.trans hlatency₁, fun l' => ?_⟩
    obtain ⟨coming, hunder, harrives⟩ := hcoming l'
    rw [hs₁.underWayOn_transmit hlink, hstill.underWayOn_eq, List.append_assoc] at hunder
    rw [hnow₁, hlatency₁] at harrives
    refine ⟨_, hunder, ?_⟩
    rw [List.map_cons, List.filter_cons]
    by_cases hl : d.link? = some l'
    · have hon : Transit.isOn l' ⟨s.now, d⟩ = true := decide_eq_true hl
      have hle := s₁.network.add_base_le_send s₁.now l
      rw [hstill.network, hstill.now] at hle
      rw [if_pos hon, if_pos hl, hstill.network, hstill.now]
      exact .cons ⟨rfl, hle⟩ harrives
    · have hoff : ¬ Transit.isOn l' ⟨s.now, d⟩ = true := fun hon => hl (of_decide_eq_true hon)
      rw [if_neg hoff, if_neg hl]
      exact harrives

/-! ## Steps -/

theorem deliveredOn_cons (l : Link) (s : Simulation) (past : List Simulation) :
    deliveredOn l (s :: past) = deliveredOn l [s] ++ deliveredOn l past := by
  unfold deliveredOn
  rw [← List.singleton_append, List.filterMap_append, List.filter_append]

theorem sentOn_cons (l : Link) (s : Simulation) (past : List Simulation) :
    sentOn l (s :: past) = sentOn l [s] ++ sentOn l past := by
  unfold sentOn
  rw [← List.singleton_append, List.flatMap_append, List.filter_append]

variable {entry : Scheduled Delivery} {rest : List (Scheduled Delivery)} {violation : Option Violation}

theorem due?_of_entries (hentries : s.queue.entries = entry :: rest) :
    s.due? = some ⟨entry.time, entry.event⟩ := by
  rw [due?, hentries]
  rfl

theorem deliveredOn_of_entries (hentries : s.queue.entries = entry :: rest) (l : Link) :
    deliveredOn l [s] = (transitOn? l entry).toList := by
  unfold deliveredOn transitOn?
  rw [List.filterMap_cons, due?_of_entries hentries, List.filterMap_nil]
  dsimp only
  rw [List.filter_cons, Transit.isOn]
  by_cases hl : entry.event.link? = some l
  · rw [if_pos hl, if_pos (decide_eq_true hl)]
    rfl
  · rw [if_neg hl, if_neg fun hon => hl (of_decide_eq_true hon)]
    rfl

theorem underWayOn_of_entries (hentries : s.queue.entries = entry :: rest) (l : Link) :
    underWayOn l s = deliveredOn l [s] ++ underWayOn l (s.taken entry rest) := by
  rw [deliveredOn_of_entries hentries, underWayOn, hentries, List.filterMap_cons]
  cases transitOn? l entry <;> rfl

theorem Flows.taken (h : s.Flows) (hentries : s.queue.entries = entry :: rest) :
    (s.taken entry rest).Flows where
  toOrderly := h.toOrderly.taken hentries
  le_time := (List.pairwise_cons.1 (hentries ▸ h.sorted)).1

/-- A step delivers what is due, and sends what answers it. -/
theorem Flows.exists_of_step? (h : s.Flows) (hstep : s.step? = some (s', violation)) :
    s'.Flows ∧ s'.network.latency = s.network.latency ∧
    (∃ transit, s.due? = some transit ∧ s.now ≤ transit.time ∧ s'.now = transit.time) ∧
    ∀ l, ∃ coming, deliveredOn l [s] ++ underWayOn l s' = underWayOn l s ++ coming ∧
      List.Forall₂ (Transit.Arrives s.network.latency.base) (sentOn l [s]) coming := by
  obtain ⟨entry, rest, hentries, hdeliver⟩ := step?_eq_some hstep
  have hsends := sends_deliver (s.taken entry rest) entry.event
  rw [← hdeliver] at hsends
  obtain ⟨hflows, hnow, hlatency, hcoming⟩ := hsends.exists_underWayOn (h.taken hentries)
  refine ⟨hflows, hlatency, ⟨_, due?_of_entries hentries, ?_, hnow⟩, fun l => ?_⟩
  · exact h.le_time entry (hentries ▸ List.mem_cons_self)
  · obtain ⟨coming, hunder, harrives⟩ := hcoming l
    refine ⟨coming, ?_, ?_⟩
    · rw [hunder, underWayOn_of_entries hentries, List.append_assoc]
    · have hsent : sentOn l [s] = (((s.taken entry rest).answers entry.event).map
          (Transit.mk (s.taken entry rest).now)).filter (Transit.isOn l) := by
        rw [sentOn, List.flatMap_singleton, Simulation.sends, hentries]
        rfl
      rw [hsent]
      exact harrives

/-! ## Runs -/

/-- What has been delivered and what is under way are together what was under way and what has been
sent. -/
theorem Flows.exists_of_run (h : s.Flows) (fuel : Nat) (l : Link) :
    ∃ coming, deliveredOn l (s.visited fuel) ++ underWayOn l (s.runWithin fuel).1 =
        underWayOn l s ++ coming ∧
      List.Forall₂ (Transit.Arrives s.network.latency.base) (sentOn l (s.visited fuel)) coming := by
  have idle : ∃ coming, deliveredOn l [] ++ underWayOn l s = underWayOn l s ++ coming ∧
      List.Forall₂ (Transit.Arrives s.network.latency.base) (sentOn l []) coming :=
    ⟨[], (List.append_nil _).symm, .nil⟩
  induction fuel generalizing s with
  | zero => exact idle
  | succ fuel ih =>
    rw [visited, runWithin]
    cases hstep : s.step? with
    | none => exact idle
    | some checked =>
      obtain ⟨s', violation⟩ := checked
      obtain ⟨hflows, hlatency, -, hcoming⟩ := h.exists_of_step? hstep
      obtain ⟨coming, hunder, harrives⟩ := hcoming l
      cases violation with
      | some violation => exact ⟨coming, hunder, harrives⟩
      | none =>
        obtain ⟨later, hlater, harrives'⟩ :=
          ih hflows ⟨[], (List.append_nil _).symm, .nil⟩
        rw [hlatency] at harrives'
        refine ⟨coming ++ later, ?_, ?_⟩
        · dsimp only [Checked.andThen]
          rw [deliveredOn_cons, List.append_assoc, hlater, ← List.append_assoc, hunder,
            List.append_assoc]
        · rw [sentOn_cons]
          exact List.rel_append harrives harrives'

/-- What is delivered next has been under way. -/
theorem deliveredOn_succ_prefix (s : Simulation) (fuel : Nat) (l : Link) :
    deliveredOn l (s.visited (fuel + 1)) <+:
      deliveredOn l (s.visited fuel) ++ underWayOn l (s.runWithin fuel).1 := by
  induction fuel generalizing s with
  | zero =>
    show deliveredOn l (s.visited 1) <+: underWayOn l s
    rw [visited]
    cases hstep : s.step? with
    | none => exact List.nil_prefix
    | some checked =>
      obtain ⟨entry, rest, hentries, -⟩ := step?_eq_some hstep
      have hfirst : deliveredOn l [s] <+: underWayOn l s := by
        rw [underWayOn_of_entries hentries]
        exact List.prefix_append _ _
      obtain ⟨s', violation⟩ := checked
      cases violation <;> exact hfirst
  | succ fuel ih =>
    rw [visited, visited, runWithin]
    cases hstep : s.step? with
    | none => exact List.nil_prefix
    | some checked =>
      obtain ⟨s', violation⟩ := checked
      cases violation with
      | some violation => exact List.prefix_append _ _
      | none =>
        dsimp only [Checked.andThen]
        rw [deliveredOn_cons, deliveredOn_cons l s (s'.visited fuel), List.append_assoc]
        exact (List.prefix_append_right_inj _).2 (ih s')

/-- The times of the deliveries never decrease. -/
theorem Flows.pairwise_visited (h : s.Flows) (fuel : Nat) :
    ((s.visited fuel).filterMap due?).Pairwise (·.time ≤ ·.time) ∧
      ∀ transit ∈ (s.visited fuel).filterMap due?, s.now ≤ transit.time := by
  induction fuel generalizing s with
  | zero => exact ⟨.nil, nofun⟩
  | succ fuel ih =>
    rw [visited]
    cases hstep : s.step? with
    | none => exact ⟨.nil, nofun⟩
    | some checked =>
      obtain ⟨s', violation⟩ := checked
      obtain ⟨hflows, -, ⟨first, hdue, hle, hnow⟩, -⟩ := h.exists_of_step? hstep
      cases violation with
      | some violation =>
        rw [List.filterMap_cons, hdue]
        refine ⟨List.pairwise_singleton _ _, fun transit htransit => ?_⟩
        rwa [List.mem_singleton.1 htransit]
      | none =>
        obtain ⟨hpairwise, hlater⟩ := ih hflows
        rw [hnow] at hlater
        rw [List.filterMap_cons, hdue]
        refine ⟨List.pairwise_cons.2 ⟨hlater, hpairwise⟩, fun transit htransit => ?_⟩
        rcases List.mem_cons.1 htransit with rfl | htransit
        · exact hle
        · exact hle.trans (hlater transit htransit)

section OfScripts

variable (t : Topology) (scripts : List Script) (latency : Latency) (drawing : Drawing)
variable (random : RandomStream) (link : UInt64 → RandomStream)

theorem flows_ofScripts : (ofScripts t scripts latency drawing random link).Flows where
  toOrderly := orderly_ofScripts t scripts latency drawing random link
  le_time _ _ := Nat.zero_le _

theorem underWayOn_ofScripts (l : Link) :
    underWayOn l (ofScripts t scripts latency drawing random link) = [] := by
  refine List.filterMap_eq_nil_iff.2 fun entry hentry => ?_
  have hevent := (events_ofScripts_perm t scripts latency drawing random link).mem_iff.1
    (List.mem_map_of_mem (f := (·.event)) hentry)
  obtain ⟨f, -, hf⟩ := List.mem_map.1 hevent
  rw [transitOn?, ← hf]
  exact if_neg nofun

end OfScripts

/-- However far a run has come, its deliveries have been made in the order of their times. On each
link, whatever has been delivered has been sent by an earlier delivery, in the same order and without
a gap, and when nothing is under way any more it is all that has been sent; each delivery has taken
the latency of the network at least. -/
theorem links_in_order (t : Topology) (scripts : List Script) (latency : Latency)
    (drawing : Drawing) (random : RandomStream) (link : UInt64 → RandomStream) (fuel : Nat) :
    let s := ofScripts t scripts latency drawing random link
    let past := s.visited fuel
    (past.filterMap due?).Pairwise (·.time ≤ ·.time) ∧
    ∀ l, (deliveredOn l (s.visited (fuel + 1))).map (·.delivery) <+:
        (sentOn l past).map (·.delivery) ∧
      ((s.runWithin fuel).1.queue.isEmpty →
        (deliveredOn l past).map (·.delivery) = (sentOn l past).map (·.delivery)) ∧
      ∀ (i : Nat) (sent delivered : Transit), (sentOn l past)[i]? = some sent →
        (deliveredOn l past)[i]? = some delivered → sent.time + latency.base ≤ delivered.time := by
  intro s past
  have hs : s.Flows := flows_ofScripts t scripts latency drawing random link
  refine ⟨(hs.pairwise_visited fuel).1, fun l => ?_⟩
  obtain ⟨coming, htogether, harrives⟩ := hs.exists_of_run fuel l
  rw [underWayOn_ofScripts, List.nil_append] at htogether
  subst htogether
  have hsame : (deliveredOn l past ++ underWayOn l (s.runWithin fuel).1).map (·.delivery) =
      (sentOn l past).map (·.delivery) := by
    rw [← List.forall₂_eq_eq_eq, List.forall₂_map_left_iff, List.forall₂_map_right_iff]
    exact harrives.flip.imp fun _ _ h => h.delivery
  refine ⟨?_, fun hempty => ?_, fun i sent delivered hsent hdelivered => ?_⟩
  · rw [← hsame]
    exact (s.deliveredOn_succ_prefix fuel l).map _
  · have hnone : underWayOn l (s.runWithin fuel).1 = [] := by
      rw [underWayOn, List.isEmpty_iff.1 hempty]
      rfl
    rw [← hsame, hnone, List.append_nil]
  · obtain ⟨hi, rfl⟩ := List.getElem?_eq_some_iff.1 hsent
    have hcoming : (deliveredOn l past ++ underWayOn l (s.runWithin fuel).1)[i]? =
        some delivered := by
      rw [List.getElem?_append_left (List.getElem?_eq_some_iff.1 hdelivered).1]
      exact hdelivered
    obtain ⟨hi', rfl⟩ := List.getElem?_eq_some_iff.1 hcoming
    exact (harrives.get hi hi').time

end Simulation

namespace Relay

/-- The source has two things to do, and the sink one in between. -/
def scripts : List Simulation.Script :=
  [{ tags := [.ofTime 10, .ofTime 20] }, { tags := [.ofTime 15], ending := .disconnect }]

def staged : Simulation :=
  .ofScripts plan.graph scripts {} (RandomStream.below .double) (ChaCha.stream 7) ChaCha.stream

end Relay

namespace Simulation

/-- What the sink is told in the course of a run. -/
theorem links_in_order_relay :
    let past := Relay.staged.visited 24
    let told := (deliveredOn (.toFederate ⟨1⟩) past).map (·.delivery)
    told = [.toFederate ⟨1⟩ (.ack none), .toFederate ⟨1⟩ (.timestamp 1005529893),
        .toFederate ⟨1⟩ (.timeAdvanceGrant (.ofTime 15))] ∧
      told = (sentOn (.toFederate ⟨1⟩) past).map (·.delivery) ∧
      ∀ (i : Nat) (sent delivered : Transit), (sentOn (.toFederate ⟨1⟩) past)[i]? = some sent →
        (deliveredOn (.toFederate ⟨1⟩) past)[i]? = some delivered →
          sent.time + .ofMillis 1 ≤ delivered.time := by
  obtain ⟨-, hlinks⟩ := links_in_order Relay.plan.graph Relay.scripts {}
    (RandomStream.below .double) (ChaCha.stream 7) ChaCha.stream 24
  obtain ⟨-, hall, htimes⟩ := hlinks (.toFederate ⟨1⟩)
  exact ⟨by decide +kernel, hall (by decide +kernel), htimes⟩

end Simulation

end FederatedTime
