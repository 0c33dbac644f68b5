import FederatedTime.Simulation.Run
import Mathlib.Order.Lattice
import Mathlib.Order.Nat

/-!
# Links keep their order

Deliveries leave the queue in the order of their times, and those of one time in the order in which
they have been scheduled. On a link nothing arrives earlier than what has been sent before it
(`Orderly`), so that whatever is sent goes behind everything that is under way on the same link
(`Orderly.underWay_transmit`).
-/

namespace FederatedTime

namespace Simulation

/-! ## Queues -/

namespace Queue

variable {α β : Type} {e : Scheduled α} {l : List (Scheduled α)}

theorem perm_insert (e : Scheduled α) (l : List (Scheduled α)) : (insert e l).Perm (e :: l) := by
  induction l with
  | nil => exact .refl _
  | cons d rest ih =>
    unfold insert
    split
    · exact (ih.cons d).trans (.swap e d rest)
    · exact .refl _

theorem mem_insert {d : Scheduled α} : d ∈ insert e l ↔ d = e ∨ d ∈ l :=
  (perm_insert e l).mem_iff.trans List.mem_cons

theorem pairwise_insert (h : l.Pairwise (·.time ≤ ·.time)) :
    (insert e l).Pairwise (·.time ≤ ·.time) := by
  induction l with
  | nil => exact List.pairwise_singleton _ _
  | cons d rest ih =>
    obtain ⟨hd, hrest⟩ := List.pairwise_cons.1 h
    unfold insert
    split
    · rename_i hle
      refine List.pairwise_cons.2 ⟨fun x hx => ?_, ih hrest⟩
      rcases mem_insert.1 hx with rfl | hx
      · exact hle
      · exact hd x hx
    · rename_i hlt
      have hle : e.time ≤ d.time := Nat.le_of_not_le hlt
      refine List.pairwise_cons.2 ⟨fun x hx => ?_, h⟩
      rcases List.mem_cons.1 hx with rfl | hx
      · exact hle
      · exact hle.trans (hd x hx)

/-- An entry goes behind all entries of its kind that are not later. -/
theorem filterMap_insert {pick : Scheduled α → Option β} (hsorted : l.Pairwise (·.time ≤ ·.time))
    (hle : ∀ d ∈ l, (pick d).isSome → (pick e).isSome → d.time ≤ e.time) :
    (insert e l).filterMap pick = l.filterMap pick ++ (pick e).toList := by
  induction l with
  | nil => cases h : pick e <;> simp [insert, h]
  | cons d rest ih =>
    obtain ⟨hd, hrest⟩ := List.pairwise_cons.1 hsorted
    unfold insert
    split
    · have ih := ih hrest fun x hx => hle x (List.mem_cons_of_mem d hx)
      cases h : pick d <;> simp [h, ih]
    · rename_i hlt
      cases he : pick e with
      | none => simp [he]
      | some b =>
        -- everything from here on is later, so none of it is of this kind
        have hnil : (d :: rest).filterMap pick = [] := by
          refine List.filterMap_eq_nil_iff.2 fun x hx => ?_
          have htime : d.time ≤ x.time := by
            rcases List.mem_cons.1 hx with rfl | hx
            · exact le_refl _
            · exact hd x hx
          refine Option.not_isSome_iff_eq_none.1 fun hpick => hlt ?_
          exact htime.trans (hle x hx hpick (by rw [he]; rfl))
        rw [List.filterMap_cons, he, hnil]
        rfl

end Queue

/-! ## The network -/

namespace Network

variable {n : Network} {l l' : Link} {now time : Duration}

theorem lastArrival_noteArrival (n : Network) (l l' : Link) (time : Duration) :
    (n.noteArrival l time).lastArrival l' = if l' = l then time else n.lastArrival l' := by
  unfold lastArrival noteArrival
  by_cases h : l' = l
  · simp [h]
  · have hne : ¬ l = l' := fun h' => h h'.symm
    have hfilter : (n.lastArrivals.filter (·.1 ≠ l)).find? (·.1 = l') =
        n.lastArrivals.find? (·.1 = l') := by
      rw [List.find?_filter]
      congr 1
      funext entry
      by_cases hentry : entry.1 = l' <;> simp [hentry, h]
    rw [if_neg h]
    dsimp only
    rw [List.find?_cons_of_neg (by simpa using hne), hfilter]

theorem lastArrival_drawJitter (n : Network) (l : Link) :
    n.drawJitter.2.lastArrival l = n.lastArrival l := by
  unfold drawJitter
  dsimp only
  split <;> rfl

/-- A message is from then on the last on its link. -/
theorem lastArrival_send (n : Network) (now : Duration) (l l' : Link) :
    (n.send now l).2.lastArrival l' = if l' = l then (n.send now l).1 else n.lastArrival l' := by
  rw [← lastArrival_drawJitter n l']
  exact lastArrival_noteArrival n.drawJitter.2 l l' _

/-- A message arrives no earlier than those before it. -/
theorem le_send (n : Network) (now : Duration) (l : Link) :
    n.lastArrival l ≤ (n.send now l).1 := by
  rw [← lastArrival_drawJitter n l]
  exact le_max_right _ _

end Network

/-! ## What is under way -/

theorem federateOn_connectionOf (f : FederateId) : federateOn (connectionOf f) = f := by
  obtain ⟨number⟩ := f
  unfold federateOn connectionOf
  simp

theorem connectionOf_injective {f g : FederateId} (h : connectionOf f = connectionOf g) :
    f = g := by
  rw [← federateOn_connectionOf f, h, federateOn_connectionOf]

namespace Delivery

/-- The link that a delivery travels over. -/
def link? : Delivery → Option Link
  | start _ => none
  | toCoordinator e => e.connection?.map (.toCoordinator <| federateOn ·)
  | toFederate f _ => some (.toFederate f)

def start? : Delivery → Option FederateId
  | start f => some f
  | _ => none

/-- The event of `f` that reaches the coordinator. -/
def eventOf? (f : FederateId) : Delivery → Option Event
  | toCoordinator e => if e.connection? = some (connectionOf f) then some e else none
  | _ => none

def messageTo? (f : FederateId) : Delivery → Option Message
  | toFederate g message => if g = f then some message else none
  | _ => none

theorem link?_of_eventOf? {d : Delivery} {f : FederateId} (h : (d.eventOf? f).isSome) :
    d.link? = some (.toCoordinator f) := by
  unfold eventOf? at h
  split at h
  · split at h
    · rename_i hc
      rw [link?, hc, Option.map_some, federateOn_connectionOf]
    · cases h
  · cases h

theorem link?_of_messageTo? {d : Delivery} {f : FederateId} (h : (d.messageTo? f).isSome) :
    d.link? = some (.toFederate f) := by
  unfold messageTo? at h
  split at h
  · split at h
    · rename_i hf
      rw [link?, hf]
    · cases h
  · cases h

end Delivery

section UnderWay

variable {β : Type}

/-- What is picked of everything that is under way, in the order in which it is due. -/
def underWay (s : Simulation) (pick : Delivery → Option β) : List β :=
  s.queue.entries.filterMap (pick ·.event)

/-- The federates that are going to start. -/
def starting (s : Simulation) : List FederateId := s.underWay Delivery.start?

/-- The events of `f` under way to the coordinator. -/
def sentBy (s : Simulation) (f : FederateId) : List Event := s.underWay (Delivery.eventOf? f)

/-- The messages under way to `f`. -/
def sentTo (s : Simulation) (f : FederateId) : List Message := s.underWay (Delivery.messageTo? f)

variable {s : Simulation} {l : Link} {d : Delivery} {pick : Delivery → Option β}

theorem mem_underWay {b : β} :
    b ∈ s.underWay pick ↔ ∃ entry ∈ s.queue.entries, pick entry.event = some b :=
  List.mem_filterMap

/-- The queue is in the order of times, and nothing on a link is due later than the last message
there. -/
structure Orderly (s : Simulation) : Prop where
  sorted : s.queue.entries.Pairwise (·.time ≤ ·.time)
  le_lastArrival : ∀ entry ∈ s.queue.entries, ∀ l ∈ entry.event.link?,
    entry.time ≤ s.network.lastArrival l

theorem Orderly.transmit (h : s.Orderly) (hlink : ∀ l' ∈ d.link?, l' = l) :
    (s.transmit l d).Orderly where
  sorted := Queue.pairwise_insert h.sorted
  le_lastArrival entry hentry l' hl' := by
    show entry.time ≤ (s.network.send s.now l).2.lastArrival l'
    rw [Network.lastArrival_send]
    rcases Queue.mem_insert.1 hentry with rfl | hentry
    · rw [if_pos (hlink l' hl')]
      exact le_refl _
    · have hle := h.le_lastArrival entry hentry l' hl'
      split
      · rename_i heq
        exact (heq ▸ hle).trans (Network.le_send _ _ _)
      · exact hle

/-- What is sent goes behind everything that is under way on its link. -/
theorem Orderly.underWay_transmit (h : s.Orderly)
    (hpick : (pick d).isSome → ∀ d', (pick d').isSome → d'.link? = some l) :
    (s.transmit l d).underWay pick = s.underWay pick ++ (pick d).toList := by
  refine Queue.filterMap_insert h.sorted fun entry hentry hpicked hd => ?_
  have hle := h.le_lastArrival entry hentry l (hpick hd _ hpicked)
  exact hle.trans (Network.le_send _ _ _)

theorem underWay_transmit_perm (s : Simulation) (l : Link) (d : Delivery)
    (pick : Delivery → Option β) :
    ((s.transmit l d).underWay pick).Perm ((pick d).toList ++ s.underWay pick) := by
  have hperm : ((s.transmit l d).underWay pick).Perm
      ((⟨(s.network.send s.now l).1, s.queue.scheduled, d⟩ :: s.queue.entries).filterMap
        (pick ·.event)) := (Queue.perm_insert _ _).filterMap _
  refine hperm.trans (.of_eq ?_)
  rw [List.filterMap_cons]
  unfold underWay
  cases pick d <;> rfl

end UnderWay

end Simulation

end FederatedTime
