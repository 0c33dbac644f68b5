import FederatedTime.Proofs.Coordinator.Notices

/-!
# What is said on a connection

On each connection the coordinator first answers the join, by an ack or a reject, and it says
nothing before that. After an ack come messages that are neither, and a reject if the federate does
what it may not; after a reject, or when the federate leaves, the connection is closed, and nothing
is said on it any more (`Conversation`). Most of what is said on a connection answers events of
other federates: `Exchange` is what any event comes to on one connection, and `Course` how far the
conversation on it has come.
-/

namespace FederatedTime

theorem Event.connection?_of_opens? {e : Event} {c : ConnectionId} (h : e.opens? = some c) :
    e.connection? = some c := by
  unfold opens? at h
  split at h
  · exact h
  · cases h

/-! ## Actions on a connection -/

namespace Message

/-- Whether a message admits a federate, or turns it away. -/
def isVerdict : Message → Bool
  | ack _ | reject _ => true
  | _ => false

end Message

namespace Action

/-- The actions that send on a connection or close it. -/
def on (c : ConnectionId) (actions : List Action) : List Action :=
  actions.filter (·.connection? = some c)

variable {actions first second : List Action} {c : ConnectionId}

@[simp] theorem on_append (c : ConnectionId) (first second : List Action) :
    on c (first ++ second) = on c first ++ on c second :=
  List.filter_append ..

theorem mem_on {a : Action} : a ∈ on c actions ↔ a ∈ actions ∧ a.connection? = some c := by
  simp [on]

theorem on_eq_self (h : ∀ a ∈ actions, a.connection? = some c) : on c actions = actions :=
  List.filter_eq_self.2 fun a ha => decide_eq_true (h a ha)

theorem on_eq_nil (h : ∀ a ∈ actions, a.connection? ≠ some c) : on c actions = [] :=
  List.filter_eq_nil_iff.2 fun a ha => decide_eq_true_iff.not.2 (h a ha)

/-- The actions tell joined federates something other than a verdict, and close nothing. -/
def Tells (r : Registry) (actions : List Action) : Prop :=
  ∀ a ∈ actions, ∀ c, a.connection? = some c →
    ∃ f message, r.connection? f = some c ∧ ¬ message.isVerdict ∧ a = .send c message

variable {r r' : Registry}

theorem Offline.tells (h : Offline actions) (r : Registry) : Tells r actions := by
  intro a ha c hc
  rw [h a ha] at hc
  cases hc

theorem tells_append (hfirst : Tells r first) (hsecond : Tells r second) :
    Tells r (first ++ second) :=
  List.forall_mem_append.2 ⟨hfirst, hsecond⟩

theorem tells_flatMap {α : Type} {l : List α} {part : α → List Action}
    (h : ∀ a ∈ l, Tells r (part a)) : Tells r (l.flatMap part) := by
  intro a ha
  obtain ⟨b, hb, ha⟩ := List.mem_flatMap.1 ha
  exact h b hb a ha

theorem Tells.of_sameMembers (h : Tells r' actions) (hr : r.SameMembers r') : Tells r actions := by
  intro a ha c hc
  obtain ⟨f, message, hf, hmessage⟩ := h a ha c hc
  rw [hr.connection?] at hf
  exact ⟨f, message, hf, hmessage⟩

/-- Nothing is told on a connection that nobody is joined on. -/
theorem Tells.on_eq_nil (h : Tells r actions) (hc : ∀ f, r.connection? f ≠ some c) :
    on c actions = [] := by
  refine Action.on_eq_nil fun a ha heq => ?_
  obtain ⟨f, message, hf, -⟩ := h a ha c heq
  exact hc f hf

theorem Tells.on_eq_map (h : Tells r actions) (c : ConnectionId) :
    ∃ messages : List Message, on c actions = messages.map (.send c) ∧
      ∀ message ∈ messages, ¬ message.isVerdict := by
  have hsend : ∀ a ∈ on c actions, ∃ message, ¬ message.isVerdict ∧ a = .send c message := by
    intro a ha
    obtain ⟨ha, hc⟩ := mem_on.1 ha
    obtain ⟨f, message, -, hmessage⟩ := h a ha c hc
    exact ⟨message, hmessage⟩
  generalize on c actions = l at hsend
  induction l with
  | nil => exact ⟨[], rfl, nofun⟩
  | cons a l ih =>
    obtain ⟨⟨message, hverdict, rfl⟩, hrest⟩ := List.forall_mem_cons.1 hsend
    obtain ⟨messages, rfl, hmessages⟩ := ih hrest
    exact ⟨message :: messages, rfl, List.forall_mem_cons.2 ⟨hverdict, hmessages⟩⟩

end Action

open FederatedTime.Action (Tells)

namespace Coordinator

variable {s : Coordinator} {e : Event} {f : FederateId} {c : ConnectionId}
variable {record : FederateRecord} {message : Message}

theorem tells_sendTo (h : ¬ message.isVerdict) (s : Coordinator) (f : FederateId) :
    Tells s.registry (s.sendTo f message) := by
  intro a ha c hc
  unfold sendTo at ha
  obtain ⟨d, hd, rfl⟩ := Option.map_eq_some_iff.1 (Option.mem_toList.1 ha)
  obtain rfl := Option.some.inj hc
  exact ⟨f, message, hd, h, rfl⟩

section Size

variable (hsize : s.registry.size ≤ Topology.maxFederates)
include hsize

theorem tells_broadcast (h : ¬ message.isVerdict) : Tells s.registry (s.broadcast message) := by
  intro a ha c hc
  obtain ⟨d, hd, rfl⟩ := List.mem_map.1 ha
  obtain rfl := Option.some.inj hc
  obtain ⟨f, hf⟩ := (Registry.mem_connections_iff hsize).1 hd
  exact ⟨f, message, hf, h, rfl⟩

theorem tells_settleStop (result : StopNegotiation × StopOutcome) :
    Tells s.registry (s.settleStop result).2 := by
  obtain ⟨stop, outcome⟩ := result
  cases outcome with
  | ignored | waiting => nofun
  | agreed tag => exact tells_broadcast hsize nofun
  | forward federates proposal =>
    refine Action.tells_flatMap fun f _ => ?_
    exact tells_sendTo (by nofun) { s with stop := stop } f

theorem tells_settleStart (f : FederateId) (result : StartNegotiation × StartOutcome) :
    Tells s.registry (s.settleStart f result).2 := by
  obtain ⟨start, outcome⟩ := result
  cases outcome with
  | waiting => nofun
  | fixed time => exact tells_broadcast hsize nofun
  | late time => exact tells_sendTo (by nofun) { s with start := start } f

theorem tells_contribute (h : s.registry.get? f = some record)
    (result : StopNegotiation × StopOutcome) : Tells s.registry (s.contribute f result).2 := by
  unfold contribute
  split
  · nofun
  · unfold markCounted
    split
    · exact tells_settleStop hsize result
    · have hmarked : s.registry.SameMembers
          (s.registry.modify f ({ · with stopCounted := true })) := Registry.sameMembers_modify h rfl
      have hsize' : (s.registry.modify f ({ · with stopCounted := true })).size ≤
          Topology.maxFederates := hmarked.size_eq ▸ hsize
      exact Action.Tells.of_sameMembers (tells_settleStop hsize' result) hmarked

end Size

theorem tells_advance (s : Coordinator) (seeds : List FederateId) :
    Tells s.registry (s.advance seeds).2 := by
  refine Action.Tells.of_sameMembers ?_ (Registry.sameMembers_sweep s.registry s.stopTag seeds)
  refine Action.tells_flatMap fun g _ => ?_
  exact tells_sendTo (by nofun) (s.advance seeds).1 g.federate

/-- A departure closes the connection, and then speaks to those who stay. -/
theorem exists_of_depart (h : s.registry.get? f = some record)
    (hsize : s.registry.size ≤ Topology.maxFederates) (c : ConnectionId) :
    ∃ rest, (s.depart f c).2 = .closeConnection c :: rest ∧ Tells (s.forget f c).registry rest := by
  unfold depart
  rw [h]
  refine ⟨_, (Step.andThen_snd ..).trans List.singleton_append, ?_⟩
  have hsize₁ : (s.forget f c).registry.size ≤ Topology.maxFederates := by
    rw [forget, Registry.size_modify]
    exact hsize
  generalize s.forget f c = s₁ at hsize₁
  simp only [Step.andThen_snd]
  refine Action.tells_append (tells_settleStop hsize₁ _) ?_
  -- neither negotiation changes the registry
  generalize hs₂ : (s₁.settleStop _).1 = s₂
  have hregistry₂ : s₂.registry = s₁.registry := by rw [← hs₂, settleStop_fst]
  rw [← hregistry₂] at hsize₁ ⊢
  refine Action.tells_append (tells_settleStart hsize₁ f _) ?_
  generalize hs₃ : (s₂.settleStart f _).1 = s₃
  have hregistry₃ : s₃.registry = s₂.registry := by rw [← hs₃, settleStart_fst]
  rw [← hregistry₃]
  exact Action.tells_append (tells_advance s₃ _) ((offline_finishIfDone _).tells _)

/-! ## One event on one connection -/

/-- What an event comes to on the connection `c`: the session before it, what is done on the
connection, and the session after it. -/
inductive Exchange (e : Event) (c : ConnectionId) :
    Option Session → List Action → Option Session → Prop
  /-- A federate is told something, or nobody is told anything. -/
  | told {session : Option Session} {messages : List Message}
      (hverdict : ∀ message ∈ messages, ¬ message.isVerdict)
      (hjoined : messages ≠ [] → ∃ f, session = some (.joined f)) :
    Exchange e c session (messages.map (.send c)) session
  | opened {session : Option Session} (peer : SocketAddress) (he : e.opens? = some c) :
    Exchange e c session [] (some (.handshaking peer))
  | admitted (peer : SocketAddress) (port : Option UInt16) (f : FederateId) :
    Exchange e c (some (.handshaking peer)) [.send c (.ack port)] (some (.joined f))
  | refused (peer : SocketAddress) (reason : RejectReason) (he : e.connection? = some c) :
    Exchange e c (some (.handshaking peer)) [.send c (.reject reason), .closeConnection c] none
  | expelled (f : FederateId) :
    Exchange e c (some (.joined f)) [.send c (.reject .unexpectedMessage), .closeConnection c] none
  | ended (session : Session) : Exchange e c (some session) [.closeConnection c] none
  | closed (he : e.connection? = some c) : Exchange e c none [.closeConnection c] none

theorem Exchange.idle (e : Event) (c : ConnectionId) (session : Option Session) :
    Exchange e c session [] session :=
  @Exchange.told e c session [] nofun (absurd rfl)

variable {actions : List Action}

theorem Exchange.of_tells (hs : s.Consistent) (h : Tells s.registry actions) (e : Event)
    (c : ConnectionId) :
    Exchange e c (s.sessions.get? c) (Action.on c actions) (s.sessions.get? c) := by
  by_cases hc : ∃ f, s.registry.connection? f = some c
  · obtain ⟨f, hf⟩ := hc
    obtain ⟨messages, heq, hverdict⟩ := h.on_eq_map c
    rw [heq]
    exact .told hverdict fun _ => ⟨f, (hs.joined_iff c f).2 hf⟩
  · rw [h.on_eq_nil (not_exists.1 hc)]
    exact .idle e c _

variable {d : ConnectionId} {before after : Sessions}

/-- An event that has to do with the connection `d` only. -/
theorem Exchange.of_own (h : Exchange e d (before.get? d) actions (after.get? d))
    (hactions : ∀ a ∈ actions, a.connection? = some d)
    (hother : ∀ c, c ≠ d → after.get? c = before.get? c) (c : ConnectionId) :
    Exchange e c (before.get? c) (Action.on c actions) (after.get? c) := by
  by_cases hc : c = d
  · rw [hc, Action.on_eq_self hactions]
    exact h
  · rw [hother c hc, Action.on_eq_nil fun a ha heq => ?_]
    · exact .idle e c _
    · rw [hactions a ha] at heq
      exact hc (Option.some.inj heq).symm

theorem Exchange.put {session : Session}
    (h : Exchange e d (before.get? d) actions (some session))
    (hactions : ∀ a ∈ actions, a.connection? = some d) (c : ConnectionId) :
    Exchange e c (before.get? c) (Action.on c actions) ((before.put d session).get? c) := by
  refine Exchange.of_own ?_ hactions (fun c hc => before.get?_put_of_ne session hc) c
  rw [Sessions.get?_put_self]
  exact h

theorem Exchange.remove (h : Exchange e d (before.get? d) actions none)
    (hactions : ∀ a ∈ actions, a.connection? = some d) (c : ConnectionId) :
    Exchange e c (before.get? c) (Action.on c actions) ((before.remove d).get? c) := by
  refine Exchange.of_own ?_ hactions (fun c hc => before.get?_remove_of_ne hc) c
  rw [Sessions.get?_remove_self]
  exact h

theorem sessions_contribute (s : Coordinator) (f : FederateId)
    (result : StopNegotiation × StopOutcome) : (s.contribute f result).1.sessions = s.sessions := by
  rcases contribute_fst s f result with h | h | h <;> rw [h]

theorem sessions_onClockSyncProbe (s : Coordinator) (f : FederateId) (address : SocketAddress) :
    (s.onClockSyncProbe f address).1.sessions = s.sessions := by
  rcases onClockSyncProbe_fst s f address with h | ⟨clock, h⟩ <;> rw [h]

theorem Joined.consistent_forget (hs : s.Consistent) (h : s.Joined d f record) :
    (s.forget f d).Consistent :=
  hs.leave h rfl rfl

theorem Joined.on_depart (hs : s.Consistent) (hsize : s.registry.size ≤ Topology.maxFederates)
    (h : s.Joined d f record) : Action.on d (s.depart f d).2 = [.closeConnection d] := by
  obtain ⟨rest, heq, htells⟩ := exists_of_depart h.get?_eq hsize d
  have hrest : Action.on d rest = [] := by
    refine htells.on_eq_nil fun g hg => ?_
    rw [← (h.consistent_forget hs).joined_iff, forget, Sessions.get?_remove_self] at hg
    cases hg
  rw [heq, ← List.singleton_append, Action.on_append, hrest, List.append_nil]
  exact Action.on_eq_self (by simp)

theorem Joined.exchange_depart (hs : s.Consistent)
    (hsize : s.registry.size ≤ Topology.maxFederates) (h : s.Joined d f record) (e : Event)
    (hc : c ≠ d) : Exchange e c (s.sessions.get? c) (Action.on c (s.depart f d).2)
      ((s.sessions.remove d).get? c) := by
  obtain ⟨rest, heq, htells⟩ := exists_of_depart h.get?_eq hsize d
  have hclose : Action.on c [.closeConnection d] = [] :=
    Action.on_eq_nil (by simp [Ne.symm hc])
  have hexchange := Exchange.of_tells (h.consistent_forget hs) htells e c
  rw [heq, ← List.singleton_append, Action.on_append, hclose, List.nil_append]
  rw [forget, Sessions.get?_remove_of_ne _ hc] at hexchange
  rw [Sessions.get?_remove_of_ne _ hc]
  exact hexchange

/-- What comes of an event comes, on each connection, to one of these exchanges. -/
theorem Transition.exchange {out : Step} (h : Transition s e out) (hs : s.Consistent)
    (hsize : s.registry.size ≤ Topology.maxFederates) (c : ConnectionId) :
    Exchange e c (s.sessions.get? c) (Action.on c out.2) (out.1.sessions.get? c) := by
  have tells {out : Step} (h : Tells s.registry out.2) (hsessions : out.1.sessions = s.sessions) :
      Exchange e c (s.sessions.get? c) (Action.on c out.2) (out.1.sessions.get? c) := by
    rw [hsessions]
    exact .of_tells hs h e c
  cases h with
  | opened d peer => exact .put (.opened peer rfl) (by simp) c
  | ignored => exact .idle e c _
  | @closed d reason h =>
    have hown : Exchange (.malformedMessage d reason) d (s.sessions.get? d) [.closeConnection d]
        (s.sessions.get? d) := by
      rw [h]
      exact .closed rfl
    exact hown.of_own (by simp) (fun _ _ => rfl) c
  | refused reason he h =>
    exact .remove (h ▸ .refused _ reason he) (by simp [refuse]) c
  | abandoned he h => exact .remove (h ▸ .ended _) (by simp) c
  | admitted h => exact .put (h ▸ .admitted _ _ _) (by simp) c
  | proposed proposal h =>
    refine tells (tells_settleStart hsize _ _) ?_
    rw [onTimestamp, settleStart_fst]
  | nextEvent h | completed h =>
    refine tells (Action.Tells.of_sameMembers (tells_advance _ _) ?_) rfl
    exact Registry.sameMembers_modify h.get?_eq rfl
  | requested time h | replied time h =>
    exact tells (tells_contribute hsize h.get?_eq _) (sessions_contribute _ _ _)
  | forwardedUntimed m h | forwardedTimed m h =>
    refine tells (tells_sendTo ?_ s _) rfl
    exact Bool.false_ne_true
  | queried target h =>
    refine tells (tells_sendTo ?_ s _) rfl
    unfold Directory.reply
    split <;> exact Bool.false_ne_true
  | advertised port h =>
    obtain ⟨directory, hdirectory⟩ := onAddressAd_eq s _ port
    rw [hdirectory]
    exact .idle _ c _
  | @departed _ d f record h he =>
    rw [sessions_depart h.get?_eq]
    by_cases hc : c = d
    · subst hc
      rw [h.on_depart hs hsize, h.session, Sessions.get?_remove_self]
      exact .ended _
    · exact h.exchange_depart hs hsize e hc
  | @expelled _ d f record he h =>
    rw [expel, Step.andThen_fst, Step.andThen_snd, sessions_depart h.get?_eq, Action.on_append]
    by_cases hc : c = d
    · subst hc
      rw [h.on_depart hs hsize, h.session, Sessions.get?_remove_self,
        Action.on_eq_self (by simp)]
      exact .expelled f
    · rw [Action.on_eq_nil (by simp [Ne.symm hc])]
      exact h.exchange_depart hs hsize e hc
  | probed address h hf =>
    exact tells ((offline_onClockSyncProbe _ _ _).tells _) (sessions_onClockSyncProbe _ _ _)
  | timer => exact tells ((ClockSchedule.offline_timer _ _ _).tells _) rfl

/-- A reject is followed by a close, and comes on a connection that waits for its join, or because
of a message that was not expected. -/
theorem Exchange.of_reject {before after : Option Session} {reason : RejectReason}
    (h : Exchange e c before actions after) (hmem : .send c (.reject reason) ∈ actions) :
    actions = [.send c (.reject reason), .closeConnection c] ∧
      (reason = .unexpectedMessage ∨
        e.connection? = some c ∧ ∃ peer, before = some (.handshaking peer)) := by
  cases h with
  | told hverdict =>
    obtain ⟨message, hmessage, heq⟩ := List.mem_map.1 hmem
    obtain rfl := (Action.send.inj heq).2
    exact absurd rfl (hverdict _ hmessage)
  | refused peer reason' he =>
    obtain rfl : reason = reason' := by simpa using hmem
    exact ⟨rfl, Or.inr ⟨he, peer, rfl⟩⟩
  | expelled f =>
    obtain rfl : reason = .unexpectedMessage := by simpa using hmem
    exact ⟨rfl, Or.inl rfl⟩
  | opened | admitted | ended | closed => simp at hmem

end Coordinator

/-! ## Conversations -/

/-- What is sent on a connection, from its beginning on. -/
inductive Conversation : List Message → Prop
  | silent : Conversation []
  | refused (reason : RejectReason) : Conversation [.reject reason]
  | admitted (port : Option UInt16) {told : List Message}
      (htold : ∀ message ∈ told, ¬ message.isVerdict) : Conversation (.ack port :: told)
  | expelled (port : Option UInt16) {told : List Message}
      (htold : ∀ message ∈ told, ¬ message.isVerdict) (reason : RejectReason) :
    Conversation (.ack port :: told ++ [.reject reason])

/-- How far the conversation on a connection has come: its session, and what has been done on it. -/
inductive Course (c : ConnectionId) (opened : List ConnectionId) :
    Option Session → List Action → Prop
  | unopened : Course c opened none []
  | waiting (hc : c ∈ opened) (peer : SocketAddress) :
    Course c opened (some (.handshaking peer)) []
  | admitted (hc : c ∈ opened) (f : FederateId) (port : Option UInt16) {told : List Message}
      (htold : ∀ message ∈ told, ¬ message.isVerdict) :
    Course c opened (some (.joined f)) ((.ack port :: told).map (.send c))
  | ended (hc : c ∈ opened) {messages : List Message} (h : Conversation messages) (n : Nat) :
    Course c opened none (messages.map (.send c) ++ List.replicate (n + 1) (.closeConnection c))

section Course

open FederatedTime.Coordinator (Exchange)

variable {e : Event} {c : ConnectionId} {opened opened' : List ConnectionId}
variable {session session' : Option Session} {actions more : List Action}

/-- What an event comes to on a connection takes the conversation there one step further. -/
theorem Course.step (h : Course c opened session actions)
    (hexchange : Exchange e c session more session') (hfresh : ∀ c ∈ e.opens?, c ∉ opened)
    (hmono : c ∈ opened → c ∈ opened') (hnamed : e.connection? = some c → c ∈ opened') :
    Course c opened' session' (actions ++ more) := by
  cases hexchange with
  | @told _ messages hverdict hjoined =>
    have hnil (hsession : ∀ f, session ≠ some (.joined f)) : messages = [] := by
      by_contra hne
      obtain ⟨f, hf⟩ := hjoined hne
      exact hsession f hf
    cases h with
    | unopened =>
      rw [hnil nofun]
      exact .unopened
    | waiting hc peer =>
      rw [hnil nofun]
      exact .waiting (hmono hc) peer
    | admitted hc f port htold =>
      rw [← List.map_append]
      exact .admitted (hmono hc) f port (List.forall_mem_append.2 ⟨htold, hverdict⟩)
    | ended hc h n =>
      rw [hnil nofun, List.map_nil, List.append_nil]
      exact .ended (hmono hc) h n
  | opened peer he =>
    cases h with
    | unopened => exact .waiting (hnamed (Event.connection?_of_opens? he)) peer
    | waiting hc | admitted hc | ended hc => exact absurd hc (hfresh c he)
  | admitted peer port f =>
    cases h with
    | waiting hc => exact @Course.admitted c opened' (hmono hc) f port [] nofun
  | refused peer reason he =>
    cases h with
    | waiting hc => exact .ended (hmono hc) (.refused reason) 0
  | expelled f =>
    cases h with
    | @admitted hc _ port told htold =>
      have hexpelled := Course.ended (hmono hc) (.expelled port htold .unexpectedMessage) 0
      rw [List.map_append, List.append_assoc] at hexpelled
      exact hexpelled
  | ended =>
    cases h with
    | waiting hc => exact .ended (hmono hc) .silent 0
    | admitted hc f port htold => exact .ended (hmono hc) (.admitted port htold) 0
  | closed he =>
    cases h with
    | unopened => exact .ended (hnamed he) .silent 0
    | ended hc h n =>
      rw [List.append_assoc, ← List.replicate_succ']
      exact .ended (hmono hc) h (n + 1)

end Course

/-! ## A whole run -/

/-- The actions of a history that send on a connection or close it. -/
def actionsOn (c : ConnectionId) (history : List Moment) : List Action :=
  history.flatMap fun m => Action.on c m.actions

/-- No event of a history names a connection that has not been opened yet. -/
def OpenedFirst (history : List Moment) : Prop :=
  ∀ i (hi : i < history.length), ∀ c ∈ history[i].event.connection?,
    c ∈ opened (history.take (i + 1))

instance (history : List Moment) : Decidable (OpenedFirst history) :=
  inferInstanceAs (Decidable (∀ i (hi : i < history.length), ∀ c ∈ history[i].event.connection?,
    c ∈ opened (history.take (i + 1))))

theorem OpenedFirst.of_append_singleton {history : List Moment} {m : Moment}
    (h : OpenedFirst (history ++ [m])) :
    OpenedFirst history ∧ ∀ c ∈ m.event.connection?, c ∈ opened (history ++ [m]) := by
  refine ⟨fun i hi c hc => ?_, fun c hc => ?_⟩
  · have hopened := h i (by rw [List.length_append]; omega) c
    rw [List.getElem_append_left hi, List.take_append_of_le_length (by omega)] at hopened
    exact hopened hc
  · have hopened := h history.length (by simp) c
    rw [List.getElem_concat_length rfl, List.take_of_length_le (by simp)] at hopened
    exact hopened hc

namespace Run

variable {t : Topology} {settings : CoordinatorSettings} {history : List Moment} {s : Coordinator}
variable {p : Topology.Plan}

theorem exchange (hbuild : p.build = .ok t) (run : Run t settings history s) (now : Duration)
    (e : Event) (c : ConnectionId) :
    Coordinator.Exchange e c (s.sessions.get? c) (Action.on c ((s.setTime now).handle e).2)
      (((s.setTime now).handle e).1.sessions.get? c) := by
  have hs := consistent_setTime run.consistent now
  have hsize : s.registry.size ≤ Topology.maxFederates := run.size_le hbuild
  exact (Coordinator.handle_transition hs e).exchange hs hsize c

theorem course (hbuild : p.build = .ok t) (run : Run t settings history s)
    (hopened : OpenedFirst history) (c : ConnectionId) :
    Course c (opened history) (s.sessions.get? c) (actionsOn c history) := by
  induction run with
  | start => exact .unopened
  | @event history s run now e fresh ih =>
    obtain ⟨hearlier, hnamed⟩ := hopened.of_append_singleton
    have hactions : actionsOn c (history ++ [(s.setTime now).moment e]) =
        actionsOn c history ++ Action.on c ((s.setTime now).handle e).2 := by
      unfold actionsOn
      rw [List.flatMap_append, List.flatMap_singleton]
      rfl
    rw [hactions]
    refine (ih hearlier).step (run.exchange hbuild now e c) fresh (fun hc => ?_) (hnamed c)
    rw [opened_append]
    exact List.mem_append_left _ hc

/-- What is done on a connection is a conversation, and then the connection is closed, perhaps more
than once. A reject is followed by a close in the same moment. -/
theorem exists_conversation (hbuild : p.build = .ok t) (run : Run t settings history s)
    (hopened : OpenedFirst history) (c : ConnectionId) :
    (∃ messages n, actionsOn c history =
        messages.map (.send c) ++ List.replicate n (.closeConnection c) ∧
      Conversation messages ∧ ((∃ reason, .reject reason ∈ messages) → 0 < n)) ∧
    ∀ m ∈ history, ∀ reason, .send c (.reject reason) ∈ m.actions →
      Action.on c m.actions = [.send c (.reject reason), .closeConnection c] := by
  refine ⟨?_, fun m hm reason hreject => ?_⟩
  · have hcourse := run.course hbuild hopened c
    generalize s.sessions.get? c = session at hcourse
    generalize actionsOn c history = actions at hcourse
    cases hcourse with
    | unopened | waiting => exact ⟨[], 0, rfl, .silent, nofun⟩
    | @admitted _ f port told htold =>
      refine ⟨.ack port :: told, 0, (List.append_nil _).symm, .admitted port htold, ?_⟩
      rintro ⟨reason, hmem⟩
      rcases List.mem_cons.1 hmem with heq | hmem
      · cases heq
      · exact absurd rfl (htold _ hmem)
    | @ended _ messages h n => exact ⟨messages, n + 1, rfl, h, fun _ => n.succ_pos⟩
  · obtain ⟨earlier, before, now, run', -, hmoment⟩ := run.exists_of_mem hm
    have hmem : .send c (.reject reason) ∈ Action.on c m.actions := Action.mem_on.2 ⟨hreject, rfl⟩
    have hexchange := run'.exchange hbuild now m.event c
    have hactions : ((before.setTime now).handle m.event).2 = m.actions :=
      (congrArg Moment.actions hmoment).symm
    rw [hactions] at hexchange
    exact (hexchange.of_reject hmem).1

end Run

namespace Relay

/-- What the source sends makes no message, twice, and its connection is lost in between. -/
def brokenHistory : List Moment :=
  history ++ state.trace [.malformedMessage ⟨0⟩ .unexpectedMessage, .connectionLost ⟨0⟩,
    .malformedMessage ⟨0⟩ .unexpectedMessage]

end Relay

namespace Run

theorem exists_conversation_relay : OpenedFirst Relay.brokenHistory ∧
    (∃ messages n, actionsOn ⟨0⟩ Relay.brokenHistory =
        messages.map (.send ⟨0⟩) ++ List.replicate n (.closeConnection ⟨0⟩) ∧
      Conversation messages ∧ ((∃ reason, .reject reason ∈ messages) → 0 < n)) ∧
    ∀ m ∈ Relay.brokenHistory, ∀ reason, .send ⟨0⟩ (.reject reason) ∈ m.actions →
      Action.on ⟨0⟩ m.actions = [.send ⟨0⟩ (.reject reason), .closeConnection ⟨0⟩] := by
  have hopened : OpenedFirst Relay.brokenHistory := by decide +kernel
  have run := Relay.run.append_trace [.malformedMessage ⟨0⟩ .unexpectedMessage,
    .connectionLost ⟨0⟩, .malformedMessage ⟨0⟩ .unexpectedMessage] (by decide)
  exact ⟨hopened, run.exists_conversation Relay.build_eq hopened ⟨0⟩⟩

example : actionsOn ⟨0⟩ Relay.brokenHistory =
    [.send ⟨0⟩ (.ack none), .send ⟨0⟩ (.timeAdvanceGrant (.ofTime 10)),
      .send ⟨0⟩ (.timeAdvanceGrant (.ofTime 20)), .send ⟨0⟩ (.reject .unexpectedMessage),
      .closeConnection ⟨0⟩, .closeConnection ⟨0⟩] := by
  decide +kernel

end Run

end FederatedTime
