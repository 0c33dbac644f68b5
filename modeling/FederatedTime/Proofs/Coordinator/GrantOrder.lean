import FederatedTime.Proofs.Coordinator.Membership
import Mathlib.Data.List.Pairwise

/-!
# Grants rise

The grants that are sent on a connection strictly increase over a run, and no event sends two of
them (`Run.grants_rise`). The last of them is what the next one is compared with
(`Run.lastGranted_eq_getLast`), and only a join resets it, so that a federate that returns on another
connection starts over from `Tag.never`.
-/

namespace FederatedTime

open FederatedTime.Action (grants)

/-! ## The grants of a connection -/

namespace Action

/-- The grants that actions send on a connection, in order. -/
def grantsTo (c : ConnectionId) (actions : List Action) : List Tag :=
  (grants actions).filterMap fun (d, tag) => if d = c then some tag else none

theorem mem_grantsTo {c : ConnectionId} {actions : List Action} {tag : Tag} :
    tag ∈ grantsTo c actions ↔ (c, tag) ∈ grants actions := by
  unfold grantsTo
  rw [List.mem_filterMap]
  constructor
  · rintro ⟨⟨d, tag'⟩, hmem, h⟩
    dsimp only at h
    split at h
    · rename_i hd
      rw [← hd, ← Option.some.inj h]
      exact hmem
    · cases h
  · intro hmem
    exact ⟨(c, tag), hmem, if_pos rfl⟩

end Action

/-- The grants sent on a connection in a history, in order. -/
def grantsOn (c : ConnectionId) (history : List Moment) : List Tag :=
  history.flatMap fun m => Action.grantsTo c m.actions

theorem grantsOn_append_singleton (c : ConnectionId) (history : List Moment) (m : Moment) :
    grantsOn c (history ++ [m]) = grantsOn c history ++ Action.grantsTo c m.actions := by
  simp [grantsOn]

/-! ## Last grants in an update -/

namespace Registry

variable {r r' : Registry} {stop : Option Tag} {gs : List Grant} {f : FederateId} {tag : Tag}
variable {record record' : FederateRecord}

theorem Change.le_lastGranted {t : Topology} {change : FederateRecord → FederateRecord}
    {seeds : List FederateId} (h : Change t f record change seeds) (hconnected : record.isConnected) :
    record.lastGranted ≤ (change record).lastGranted := by
  cases h with
  | marked halike => exact le_of_eq halike.lastGranted.symm
  | nextEvent | completed | left => exact le_refl _
  | joined hrecord => exact absurd hconnected hrecord

/-- The change of a record takes no grant from a federate that is joined. -/
theorem Change.exists_le_lastGranted {g : FederateId} {old : FederateRecord}
    {change : FederateRecord → FederateRecord} {seeds : List FederateId}
    (h : Change r.topology g old change seeds) (hg : r.get? g = some old)
    (hf : r.get? f = some record) (hconnected : record.isConnected) :
    ∃ middle, (r.modify g change).get? f = some middle ∧
      record.lastGranted ≤ middle.lastGranted := by
  rw [get?_modify, hf]
  by_cases hgf : g = f
  · subst hgf
    obtain rfl := Option.some.inj (hg.symm.trans hf)
    exact ⟨change old, if_pos rfl, h.le_lastGranted hconnected⟩
  · exact ⟨record, if_neg hgf, le_refl _⟩

theorem Update.nodup_federates (h : r.Update stop r' gs) : (gs.map (·.federate)).Nodup := by
  cases h with
  | idle _ hgs =>
    rw [hgs]
    exact List.nodup_nil
  | change _ _ _ hgs =>
    rw [hgs]
    exact nodup_federates_sweep _ _ _

/-- Who is granted a tag is joined, and has it as its last grant. -/
theorem Update.lastGranted_of_grant (h : r.Update stop r' gs) (hg : ⟨f, tag⟩ ∈ gs)
    (hf : r'.get? f = some record') : record'.isConnected ∧ record'.lastGranted = tag := by
  cases h with
  | idle _ hgs =>
    rw [hgs] at hg
    cases hg
  | change hold hchange heq hgs =>
    subst heq hgs
    obtain ⟨hmem, hraise⟩ := mem_grants_sweep.1 hg
    obtain ⟨middle, hmiddle, hconnected, -⟩ := raise?_eq_some_iff.1 hraise
    rw [get?_sweep, if_pos hmem, hmiddle] at hf
    rw [← Option.some.inj hf, isConnected_settle, lastGranted_settle, hraise]
    exact ⟨hconnected, rfl⟩

/-- Who is granted nothing, and does not join, keeps its last grant. -/
theorem Update.lastGranted_of_not_grant (h : r.Update stop r' gs) (hf : r.get? f = some record)
    (hf' : r'.get? f = some record') (hjoin : record'.isConnected → record.isConnected)
    (hnone : ∀ tag, ⟨f, tag⟩ ∉ gs) : record'.lastGranted = record.lastGranted := by
  cases h with
  | idle heq =>
    rw [heq, hf] at hf'
    rw [Option.some.inj hf']
  | @change g old change seeds hg hchange heq hgs =>
    subst heq hgs
    obtain ⟨middle, hmiddle, hsettle⟩ := get?_sweep_eq_some hf'
    have hsame : record'.lastGranted = middle.lastGranted ∧
        record'.isConnected = middle.isConnected := by
      rcases hsettle with rfl | ⟨hmem, rfl⟩
      · exact ⟨rfl, rfl⟩
      · cases hraise : (r.modify g change).raise? stop f with
        | none => exact ⟨lastGranted_settle none middle, isConnected_settle none middle⟩
        | some tag => exact absurd (mem_grants_sweep.2 ⟨hmem, hraise⟩) (hnone tag)
    rw [hsame.1]
    rw [hsame.2] at hjoin
    rcases get?_modify_cases hg hmiddle with ⟨rfl, rfl⟩ | ⟨-, hmiddle⟩
    · obtain rfl := Option.some.inj (hf.symm.trans hg)
      cases hchange with
      | marked halike => exact halike.lastGranted
      | nextEvent | completed | left => rfl
      | joined hrecord => exact absurd (hjoin rfl) hrecord
    · rw [Option.some.inj (hf.symm.trans hmiddle)]

/-- A grant exceeds the last grant before. -/
theorem Update.lt_of_grant (h : r.Update stop r' gs) (hf : r.get? f = some record)
    (hconnected : record.isConnected) (hg : ⟨f, tag⟩ ∈ gs) : record.lastGranted < tag := by
  cases h with
  | idle _ hgs =>
    rw [hgs] at hg
    cases hg
  | change hold hchange _ hgs =>
    subst hgs
    obtain ⟨middle, hmiddle, hle⟩ := hchange.exists_le_lastGranted hold hf hconnected
    obtain ⟨middle', hmiddle', -, hlt, -⟩ := raise?_eq_some_iff.1 (mem_grants_sweep.1 hg).2
    rw [Option.some.inj (hmiddle.symm.trans hmiddle')] at hle
    exact lt_of_le_of_lt hle hlt

end Registry

/-! ## Grants of one event -/

namespace Coordinator

variable {s s' : Coordinator} {e : Event} {c : ConnectionId} {f : FederateId}
variable {record record' : FederateRecord} {gs : List Grant}

/-- No two grants go to the same connection, as no two federates are joined on it. -/
theorem Consistent.pairwise_grantsTo {actions : List Action} (hs : s.Consistent)
    (hgs : (gs.map (·.federate)).Nodup) (hactions : grants actions = s.sent gs) (c : ConnectionId) :
    (Action.grantsTo c actions).Pairwise fun _ _ => False := by
  have honce : gs.Pairwise fun a b => a.federate ≠ b.federate := List.pairwise_map.1 hgs
  have session_eq {g : Grant} {tag : Tag} (hg : ((s.registry.connection? g.federate).map
      fun d => (d, g.tag)).bind (fun (d, tag) => if d = c then some tag else none) = some tag) :
      s.sessions.get? c = some (.joined g.federate) := by
    obtain ⟨⟨d, tag'⟩, hd, hif⟩ := Option.bind_eq_some_iff.1 hg
    obtain ⟨d', hd', heq⟩ := Option.map_eq_some_iff.1 hd
    obtain ⟨rfl, rfl⟩ := Prod.mk.inj heq
    dsimp only at hif
    split at hif
    · rename_i hdc
      rw [hs.joined_iff, ← hdc]
      exact hd'
    · cases hif
  unfold Action.grantsTo sent at *
  rw [hactions, List.filterMap_filterMap]
  refine honce.filterMap _ ?_
  intro a b hab tag ha tag' hb
  have hsession := (session_eq ha).symm.trans (session_eq hb)
  exact hab (Session.joined.inj (Option.some.inj hsession))

/-- A federate that is joined after an event was joined on the same connection before, or has just
been admitted and starts over. -/
theorem Move.joined_before (hs : s.Consistent) (h : Move s e s' gs) (hj : s'.Joined c f record') :
    (∃ record, s.Joined c f record) ∨
      (∃ peer, s.sessions.get? c = some (.handshaking peer)) ∧ gs = [] ∧
        record'.lastGranted = .never := by
  have hsession := hj.session
  cases h with
  | idle hsessions | progressed _ _ _ hsessions =>
    rw [hsessions] at hsession
    exact Or.inl (hs.exists_joined hsession)
  | @opened c' _ _ hsessions =>
    rw [hsessions, Sessions.get?_put] at hsession
    split at hsession
    · cases hsession
    · exact Or.inl (hs.exists_joined hsession)
  | @closed c' _ _ hsessions | @departed c' _ _ _ _ hsessions =>
    rw [hsessions, Sessions.get?_remove] at hsession
    split at hsession
    · cases hsession
    · exact Or.inl (hs.exists_joined hsession)
  | @joined c' peer f' record h hf hrecord host hsessions hregistry =>
    rw [hsessions, Sessions.get?_put] at hsession
    split at hsession
    · rename_i hc
      obtain rfl := Session.joined.inj (Option.some.inj hsession)
      have hget := hj.get?_eq
      rw [hregistry, Registry.get?_modify, if_pos rfl, hf] at hget
      refine Or.inr ⟨⟨peer, by rw [hc, h]⟩, rfl, ?_⟩
      rw [← Option.some.inj hget]
      rfl
    · exact Or.inl (hs.exists_joined hsession)

/-- A federate that is joined may not join again. -/
theorem Joined.handle_join (h : s.Joined c f record) (g : FederateId) (federationId : String) :
    s.handle (.messageReceived c (.join g federationId)) = s.expel f c := by
  rw [h.handle_message]
  unfold onMessage
  dsimp only
  rw [h.connection?_eq]

theorem Joined.federateOf_expel (h : s.Joined c f record) :
    (s.expel f c).1.federateOf c = none := by
  have hsessions : (s.expel f c).1.sessions = s.sessions.remove c := by
    rw [expel, Step.andThen_fst, depart_fst h.get?_eq]
    rfl
  unfold federateOf
  rw [hsessions, Sessions.get?_remove_self]

theorem Move.handshaking_before {peer : SocketAddress} (h : Move s e s' gs)
    (hpeer : s'.sessions.get? c = some (.handshaking peer)) :
    (∃ peer', s.sessions.get? c = some (.handshaking peer')) ∨ c ∈ e.opens? := by
  cases h with
  | idle hsessions | progressed _ _ _ hsessions =>
    rw [hsessions] at hpeer
    exact Or.inl ⟨peer, hpeer⟩
  | @opened c' _ he hsessions =>
    rw [hsessions, Sessions.get?_put] at hpeer
    split at hpeer
    · rename_i hc
      exact Or.inr (hc ▸ he)
    · exact Or.inl ⟨peer, hpeer⟩
  | @closed c' _ _ hsessions | @departed c' _ _ _ _ hsessions =>
    rw [hsessions, Sessions.get?_remove] at hpeer
    split at hpeer
    · cases hpeer
    · exact Or.inl ⟨peer, hpeer⟩
  | @joined c' _ _ _ _ _ _ _ hsessions =>
    rw [hsessions, Sessions.get?_put] at hpeer
    split at hpeer
    · cases hpeer
    · exact Or.inl ⟨peer, hpeer⟩

end Coordinator

/-! ## Grants of a run -/

namespace Run

variable {t : Topology} {settings : CoordinatorSettings} {history : List Moment} {s : Coordinator}

/-- The grants on a connection have come in order, and the last of them is the last grant of whoever
is joined on it; there is none before the join. -/
structure Rising (history : List Moment) (s : Coordinator) (c : ConnectionId) : Prop where
  increasing : (grantsOn c history).Pairwise (· < ·)
  lastGranted_eq : ∀ f record, s.Joined c f record →
    record.lastGranted = (grantsOn c history).getLast?.getD .never
  eq_nil_of_handshaking : ∀ peer, s.sessions.get? c = some (.handshaking peer) →
    grantsOn c history = []
  eq_nil_of_not_mem : c ∉ opened history → grantsOn c history = []

theorem Rising.le_lastGranted {c : ConnectionId} {f : FederateId} {record : FederateRecord}
    {tag : Tag} (h : Rising history s c) (hjoined : s.Joined c f record)
    (htag : tag ∈ grantsOn c history) : tag ≤ record.lastGranted := by
  rw [h.lastGranted_eq f record hjoined,
    List.getLast?_eq_some_getLast (List.ne_nil_of_mem htag), Option.getD_some]
  exact (h.increasing.imp le_of_lt).rel_getLast htag

/-- A grant of the next event goes to a federate that was joined on the same connection before. -/
theorem exists_joined_of_grant (run : Run t settings history s) (now : Duration) (e : Event)
    (fresh : ∀ c ∈ e.opens?, c ∉ opened history) {c : ConnectionId} {tag : Tag}
    (h : tag ∈ Action.grantsTo c ((s.setTime now).handle e).2) :
    ∃ f record record', s.Joined c f record ∧
      ((s.setTime now).handle e).1.Joined c f record' ∧ record.lastGranted < tag ∧
      record'.lastGranted = tag := by
  have hs := consistent_setTime run.consistent now
  have hs' := (run.event now e fresh).consistent
  obtain ⟨gs, hmove, hgrants⟩ := (Coordinator.handle_transition hs e).move
  rw [Action.mem_grantsTo, hgrants] at h
  obtain ⟨f, hf, hconnection⟩ := Coordinator.mem_sent.1 h
  obtain ⟨record', hrecord'⟩ := hs'.exists_joined ((hs'.joined_iff c f).2 hconnection)
  rcases hmove.joined_before hs hrecord' with ⟨record, hrecord⟩ | ⟨-, hgs, -⟩
  · have hjoined : s.Joined c f record :=
      ⟨hrecord.session, hrecord.get?_eq, hrecord.connection, hrecord.connected⟩
    exact ⟨f, record, record', hjoined, hrecord',
      hmove.update.lt_of_grant hrecord.get?_eq hrecord.connected hf,
      (hmove.update.lastGranted_of_grant hf hrecord'.get?_eq).2⟩
  · rw [hgs] at hf
    cases hf

theorem pairwise_grantsTo (run : Run t settings history s) (now : Duration) (e : Event)
    (fresh : ∀ c ∈ e.opens?, c ∉ opened history) (c : ConnectionId) :
    (Action.grantsTo c ((s.setTime now).handle e).2).Pairwise fun _ _ => False := by
  obtain ⟨gs, hupdate, hgrants⟩ := run.update now e
  exact (run.event now e fresh).consistent.pairwise_grantsTo hupdate.nodup_federates hgrants c

/-- The next event grants a joined federate what becomes its last grant, or leaves that as it is. -/
theorem lastGranted_of_joined (run : Run t settings history s) (now : Duration) (e : Event)
    (fresh : ∀ c ∈ e.opens?, c ∉ opened history) {c : ConnectionId} {f : FederateId}
    {record record' : FederateRecord} (hjoined : s.Joined c f record)
    (hjoined' : ((s.setTime now).handle e).1.Joined c f record') :
    record'.lastGranted =
      (Action.grantsTo c ((s.setTime now).handle e).2).getLast?.getD record.lastGranted := by
  cases hgrants : (Action.grantsTo c ((s.setTime now).handle e).2).getLast? with
  | some tag =>
    obtain ⟨g, -, granted, -, hgranted, -, hlast⟩ :=
      run.exists_joined_of_grant now e fresh (List.mem_of_getLast? hgrants)
    obtain ⟨rfl, rfl⟩ := hjoined'.unique hgranted
    exact hlast
  | none =>
    obtain ⟨gs, hupdate, hsent⟩ := run.update now e
    refine hupdate.lastGranted_of_not_grant hjoined.get?_eq hjoined'.get?_eq
      (fun _ => hjoined.connected) fun tag hg => ?_
    have htag : tag ∈ Action.grantsTo c ((s.setTime now).handle e).2 := by
      rw [Action.mem_grantsTo, hsent]
      exact Coordinator.mem_sent.2 ⟨f, hg, hjoined'.connection?_eq⟩
    rw [List.getLast?_eq_none_iff.1 hgrants] at htag
    cases htag

theorem rising (run : Run t settings history s) (c : ConnectionId) : Rising history s c := by
  induction run with
  | start =>
    refine ⟨List.Pairwise.nil, ?_, fun _ _ => rfl, fun _ => rfl⟩
    intro f record hjoined
    cases hjoined.session
  | @event history s run now e fresh ih =>
    have hs := consistent_setTime run.consistent now
    have hs' := (run.event now e fresh).consistent
    obtain ⟨gs, hmove, hsent⟩ := (Coordinator.handle_transition hs e).move
    -- a grant goes to who was joined before, whose last grant bounds all earlier ones
    have hgrant (tag : Tag) (htag : tag ∈ Action.grantsTo c ((s.setTime now).handle e).2) :=
      run.exists_joined_of_grant now e fresh htag
    refine ⟨?_, ?_, ?_, ?_⟩
    · rw [grantsOn_append_singleton, List.pairwise_append]
      refine ⟨ih.increasing, (run.pairwise_grantsTo now e fresh c).imp False.elim, ?_⟩
      intro old hold tag htag
      obtain ⟨f, record, -, hjoined, -, hlt, -⟩ := hgrant tag htag
      exact lt_of_le_of_lt (ih.le_lastGranted hjoined hold) hlt
    · intro f record' hjoined'
      rw [grantsOn_append_singleton, List.getLast?_append, Option.getD_or]
      rcases hmove.joined_before hs hjoined' with ⟨record, hjoined⟩ | ⟨⟨peer, hpeer⟩, hgs, hlast⟩
      · have hbefore : s.Joined c f record := joined_setTime.1 hjoined
        rw [run.lastGranted_of_joined now e fresh hbefore hjoined',
          ih.lastGranted_eq f record hbefore]
        rfl
      · -- who has just been admitted has no grants yet
        rw [hgs] at hsent
        have hnone : grants ((s.setTime now).moment e).actions = [] := hsent
        rw [hlast, Action.grantsTo, hnone, ih.eq_nil_of_handshaking peer hpeer]
        rfl
    · intro peer hpeer
      rw [grantsOn_append_singleton, List.append_eq_nil_iff]
      constructor
      · rcases hmove.handshaking_before hpeer with ⟨peer', hpeer'⟩ | hc
        · exact ih.eq_nil_of_handshaking peer' hpeer'
        · exact ih.eq_nil_of_not_mem (fresh c hc)
      · refine List.eq_nil_iff_forall_not_mem.2 fun tag htag => ?_
        obtain ⟨f, -, record', -, hjoined', -⟩ := hgrant tag htag
        rw [hjoined'.session] at hpeer
        cases hpeer
    · intro hc
      rw [opened_append, List.mem_append, not_or] at hc
      rw [grantsOn_append_singleton, ih.eq_nil_of_not_mem hc.1, List.nil_append]
      refine List.eq_nil_iff_forall_not_mem.2 fun tag htag => ?_
      obtain ⟨f, record, -, hjoined, -⟩ := hgrant tag htag
      exact hc.1 (run.mem_opened_of_joined hjoined)

/-- The last grant of a joined federate is the last one that has been sent on its connection, and
`Tag.never` if there was none. -/
theorem lastGranted_eq_getLast (run : Run t settings history s) {c : ConnectionId} {f : FederateId}
    {record : FederateRecord} (h : s.Joined c f record) :
    record.lastGranted = (grantsOn c history).getLast?.getD .never :=
  (run.rising c).lastGranted_eq f record h

/-- The grants on each connection strictly increase, no event sends two of them on one connection,
and whoever is admitted on a connection starts over: nothing has been granted on it, and the last
grant is reset. -/
theorem grants_rise (run : Run t settings history s) :
    (∀ c, (grantsOn c history).Pairwise (· < ·)) ∧
    (∀ m ∈ history, ∀ c, (Action.grantsTo c m.actions).length ≤ 1) ∧
    ∀ earlier m later c f federationId, history = earlier ++ m :: later →
      m.event = .messageReceived c (.join f federationId) → m.after.federateOf c = some f →
      grantsOn c (earlier ++ [m]) = [] ∧
        ∃ record, m.after.registry.get? f = some record ∧ record.lastGranted = .never := by
  refine ⟨fun c => (run.rising c).increasing, ?_, ?_⟩
  · intro m hm c
    obtain ⟨earlier, before, now, run', fresh, heq⟩ := run.exists_of_mem hm
    have hactions : m.actions = ((before.setTime now).handle m.event).2 :=
      congrArg Moment.actions heq
    have hpairwise := run'.pairwise_grantsTo now m.event fresh c
    rw [← hactions] at hpairwise
    match hgrants : Action.grantsTo c m.actions with
    | [] => exact Nat.zero_le 1
    | [_] => exact Nat.le_refl 1
    | tag :: tag' :: _ =>
      rw [hgrants, List.pairwise_cons] at hpairwise
      exact absurd List.mem_cons_self (hpairwise.1 tag')
  · intro earlier m later c f federationId hhistory hevent hfederate
    rw [hhistory] at run
    obtain ⟨before, now, run', fresh, heq, run''⟩ := run.exists_of_append_cons
    have hs := consistent_setTime run'.consistent now
    have hafter : m.after = ((before.setTime now).handle m.event).1 := congrArg Moment.after heq
    obtain ⟨record, hjoined⟩ := run''.consistent.exists_joined_of_federateOf hfederate
    obtain ⟨gs, hmove, -⟩ := (Coordinator.handle_transition hs m.event).move
    rw [← hafter] at hmove
    rcases hmove.joined_before hs hjoined with ⟨old, hold⟩ | ⟨⟨peer, hpeer⟩, -, hlast⟩
    · -- a second join would have cost the federate its session
      have hnone : m.after.federateOf c = none := by
        rw [hafter, hevent, hold.handle_join]
        exact hold.federateOf_expel
      rw [hnone] at hfederate
      cases hfederate
    · refine ⟨?_, record, hjoined.get?_eq, hlast⟩
      refine List.eq_nil_iff_forall_not_mem.2 fun tag htag => ?_
      rw [grantsOn_append_singleton, (run'.rising c).eq_nil_of_handshaking peer hpeer,
        List.nil_append, heq] at htag
      obtain ⟨g, earlier, -, hearlier, -⟩ := run'.exists_joined_of_grant now m.event fresh htag
      have hsession : before.sessions.get? c = some (.joined g) := hearlier.session
      have hpeer' : before.sessions.get? c = some (.handshaking peer) := hpeer
      rw [hsession] at hpeer'
      cases hpeer'

end Run

namespace Relay

/-- The sink loses its connection and returns on another one, where it is granted an earlier tag
than before. -/
def returning : List Moment :=
  (Coordinator.ofTopology plan.graph {}).trace (events ++
    [.connectionLost ⟨1⟩, .connectionOpened ⟨2⟩ default, .messageReceived ⟨2⟩ (.join ⟨1⟩ "relay"),
      .messageReceived ⟨2⟩ (.nextEventTag (.ofTime 4))])

end Relay

namespace Run

theorem grants_rise_relay : grantsOn ⟨1⟩ Relay.returning = [.ofTime 5, .ofTime 20] ∧
    grantsOn ⟨2⟩ Relay.returning = [.ofTime 4] ∧
    ∀ c, (grantsOn c Relay.returning).Pairwise (· < ·) := by
  refine ⟨by decide +kernel, by decide +kernel, ?_⟩
  have hrun : Run Relay.plan.graph {} Relay.returning _ := run_trace (by decide)
  exact hrun.grants_rise.1

end Run

end FederatedTime
