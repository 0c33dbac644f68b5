import FederatedTime.Proofs.Coordinator.Move

/-!
# Who is joined in a run

The sessions and the registry agree throughout a run on who is joined on which connection
(`Run.consistent`). It takes that no connection is opened twice: a connection that is opened while a
federate is joined on it would lose its session, but not its record.
-/

namespace FederatedTime

namespace Registry

variable {r r' : Registry} {f : FederateId} {record : FederateRecord}

/-- The same federates are joined on the same connections. -/
structure SameMembers (r r' : Registry) : Prop where
  topology_eq : r'.topology = r.topology
  size_eq : r'.size = r.size
  membership_eq : ∀ f, (r'.get? f).map (·.membership) = (r.get? f).map (·.membership)

theorem membership_settle (granted : Option Tag) (record : FederateRecord) :
    (settle granted record).membership = record.membership := by
  simp [FederateRecord.membership]

theorem sameMembers_modify {change : FederateRecord → FederateRecord}
    (hf : r.get? f = some record) (h : (change record).membership = record.membership) :
    r.SameMembers (r.modify f change) := by
  refine ⟨topology_modify r f change, size_modify r f change, fun g => ?_⟩
  rw [get?_modify]
  by_cases hfg : f = g
  · subst hfg
    rw [if_pos rfl, hf]
    exact congrArg some h
  · rw [if_neg hfg]

theorem sameMembers_sweep (r : Registry) (stop : Option Tag) (seeds : List FederateId) :
    r.SameMembers (r.sweep stop seeds).1 :=
  ⟨topology_sweep r stop seeds, size_sweep r stop seeds, map_get?_sweep membership_settle⟩

theorem SameMembers.trans {r'' : Registry} (h : r.SameMembers r') (h' : r'.SameMembers r'') :
    r.SameMembers r'' where
  topology_eq := h'.topology_eq.trans h.topology_eq
  size_eq := h'.size_eq.trans h.size_eq
  membership_eq f := (h'.membership_eq f).trans (h.membership_eq f)

theorem SameMembers.of_eq (h : r' = r) : r.SameMembers r' := by
  rw [h]
  exact ⟨rfl, rfl, fun _ => rfl⟩

theorem SameMembers.connection? (h : r.SameMembers r') (f : FederateId) :
    r'.connection? f = r.connection? f := by
  have bind (r : Registry) :
      r.connection? f = ((r.get? f).map (·.membership)).bind (·.2.1) := by
    unfold Registry.connection?
    cases r.get? f <;> rfl
  rw [bind, bind, h.membership_eq]

theorem SameMembers.exists_of_get? (h : r.SameMembers r') (hf : r'.get? f = some record) :
    ∃ earlier, r.get? f = some earlier ∧ earlier.membership = record.membership := by
  have hmap := h.membership_eq f
  rw [hf] at hmap
  exact Option.map_eq_some_iff.1 hmap.symm

end Registry

namespace Coordinator

variable {s s' : Coordinator} {e : Event} {f : FederateId} {c : ConnectionId}
variable {record : FederateRecord} {gs : List Grant}

theorem Consistent.of_sameMembers (hs : s.Consistent)
    (hsessions : ∀ c f, s'.sessions.get? c = some (.joined f) ↔
      s.sessions.get? c = some (.joined f))
    (hr : s.registry.SameMembers s'.registry) : s'.Consistent where
  size_eq := by rw [hr.size_eq, hr.topology_eq, hs.size_eq]
  id_eq := by
    intro f record hf
    obtain ⟨earlier, hearlier, hmembership⟩ := hr.exists_of_get? hf
    rw [← hs.id_eq f earlier hearlier]
    exact (congrArg (·.1) hmembership).symm
  joined_iff := by
    intro c f
    rw [hsessions, hs.joined_iff, hr.connection?]
  connected_iff := by
    intro f record hf
    obtain ⟨earlier, hearlier, hmembership⟩ := hr.exists_of_get? hf
    have hconnection : earlier.connection = record.connection := congrArg (·.2.1) hmembership
    have hconnected : earlier.isConnected = record.isConnected := congrArg (·.2.2) hmembership
    rw [← hconnection, ← hconnected]
    exact hs.connected_iff f earlier hearlier

/-! ## The beginning -/

theorem get?_ofTopology {t : Topology} (h : (Registry.ofTopology t).get? f = some record) :
    record = { id := f } := by
  unfold Registry.ofTopology Registry.get? Roster.get? Roster.tabulate at h
  dsimp only at h
  rw [Array.getElem?_ofFn] at h
  split at h
  · obtain rfl := Option.some.inj h
    rw [FederateId.index_injective (FederateId.index_ofNat f.number.toNat_lt)]
  · cases h

theorem consistent_ofTopology (t : Topology) (settings : CoordinatorSettings) :
    (ofTopology t settings).Consistent where
  size_eq := Array.size_ofFn
  id_eq := by
    intro f record hf
    rw [get?_ofTopology hf]
  joined_iff := by
    intro c f
    refine iff_of_false (fun h => ?_) (fun h => ?_)
    · cases h
    · obtain ⟨record, hrecord, hconnection⟩ := Option.bind_eq_some_iff.1 h
      rw [get?_ofTopology hrecord] at hconnection
      cases hconnection
  connected_iff := by
    intro f record hf
    rw [get?_ofTopology hf]
    exact iff_of_false Bool.false_ne_true Bool.false_ne_true

/-! ## Joining and leaving -/

/-- The change of one record in step with the sessions. -/
theorem Consistent.modify (hs : s.Consistent) {change : FederateRecord → FederateRecord}
    (hf : s.registry.get? f = some record) (hid : (change record).id = record.id)
    (hconnected : (change record).isConnected ↔ (change record).connection.isSome)
    (hregistry : s'.registry = s.registry.modify f change)
    (hown : ∀ c, s'.sessions.get? c = some (.joined f) ↔ (change record).connection = some c)
    (hother : ∀ c g, f ≠ g → (s'.sessions.get? c = some (.joined g) ↔
      s.sessions.get? c = some (.joined g))) : s'.Consistent where
  size_eq := by
    rw [hregistry, Registry.size_modify, Registry.topology_modify]
    exact hs.size_eq
  id_eq := by
    intro g record' hg
    rw [hregistry] at hg
    rcases Registry.get?_modify_cases hf hg with ⟨rfl, rfl⟩ | ⟨-, hg⟩
    · rw [hid]
      exact hs.id_eq f record hf
    · exact hs.id_eq g record' hg
  joined_iff := by
    intro c g
    rw [hregistry, Registry.connection?_modify hf]
    by_cases hfg : f = g
    · subst hfg
      rw [if_pos rfl]
      exact hown c
    · rw [if_neg hfg, hother c g hfg]
      exact hs.joined_iff c g
  connected_iff := by
    intro g record' hg
    rw [hregistry] at hg
    rcases Registry.get?_modify_cases hf hg with ⟨rfl, rfl⟩ | ⟨-, hg⟩
    · exact hconnected
    · exact hs.connected_iff g record' hg

theorem Consistent.join {peer : SocketAddress} {host : IpAddress} (hs : s.Consistent)
    (h : s.sessions.get? c = some (.handshaking peer)) (hf : s.registry.get? f = some record)
    (hrecord : ¬ record.isConnected) (hsessions : s'.sessions = s.sessions.put c (.joined f))
    (hregistry : s'.registry = s.registry.modify f (·.join c host)) : s'.Consistent := by
  refine hs.modify hf rfl (iff_of_true rfl rfl) hregistry ?_ ?_
  · intro c'
    rw [hsessions, Sessions.get?_put]
    by_cases hc : c' = c
    · subst hc
      exact iff_of_true (if_pos rfl) rfl
    · refine iff_of_false (fun hjoined => hrecord ?_) (fun heq => hc (Option.some.inj heq).symm)
      rw [if_neg hc] at hjoined
      obtain ⟨record', hrecord'⟩ := hs.exists_joined hjoined
      obtain rfl := Option.some.inj (hf.symm.trans hrecord'.get?_eq)
      exact hrecord'.connected
  · intro c' g hfg
    rw [hsessions, Sessions.get?_put]
    by_cases hc : c' = c
    · subst hc
      rw [if_pos rfl, h]
      refine iff_of_false (fun heq => hfg ?_) (fun heq => nomatch heq)
      exact Session.joined.inj (Option.some.inj heq)
    · rw [if_neg hc]

theorem Consistent.leave (hs : s.Consistent) (h : s.Joined c f record)
    (hsessions : s'.sessions = s.sessions.remove c)
    (hregistry : s'.registry = s.registry.modify f (·.leave)) : s'.Consistent := by
  refine hs.modify h.get?_eq rfl ?_ hregistry ?_ ?_
  · exact iff_of_false Bool.false_ne_true Bool.false_ne_true
  · intro c'
    refine iff_of_false (fun hjoined => ?_) (fun heq => nomatch heq)
    rw [hsessions, Sessions.get?_remove] at hjoined
    by_cases hc : c' = c
    · rw [if_pos hc] at hjoined
      cases hjoined
    · rw [if_neg hc, hs.joined_iff, h.connection?_eq] at hjoined
      exact hc (Option.some.inj hjoined).symm
  · intro c' g hfg
    rw [hsessions, Sessions.get?_remove]
    by_cases hc : c' = c
    · subst hc
      rw [if_pos rfl, h.session]
      refine iff_of_false (fun heq => nomatch heq) (fun heq => hfg ?_)
      exact Session.joined.inj (Option.some.inj heq)
    · rw [if_neg hc]

/-! ## One event -/

theorem Move.consistent (hs : s.Consistent) (hfresh : ∀ c ∈ e.opens?, s.sessions.get? c = none)
    (h : Move s e s' gs) : s'.Consistent := by
  -- a session that is joined to nobody may replace another such without anybody noticing
  have put_iff {c : ConnectionId} {session : Session}
      (hc : ∀ f, s.sessions.get? c ≠ some (.joined f)) (hsession : ∀ f, session ≠ .joined f)
      (c' : ConnectionId) (f : FederateId) :
      (s.sessions.put c session).get? c' = some (.joined f) ↔
        s.sessions.get? c' = some (.joined f) := by
    rw [Sessions.get?_put]
    by_cases hcc : c' = c
    · subst hcc
      rw [if_pos rfl]
      exact iff_of_false (fun heq => hsession f (Option.some.inj heq)) (hc f)
    · rw [if_neg hcc]
  cases h with
  | idle hsessions hregistry =>
    refine hs.of_sameMembers (fun c f => ?_) (.of_eq hregistry)
    rw [hsessions]
  | @opened c _ he hsessions hregistry =>
    refine hs.of_sameMembers (fun c' f => ?_) (.of_eq hregistry)
    rw [hsessions]
    apply put_iff
    · intro f hjoined
      rw [hfresh c he] at hjoined
      cases hjoined
    · intro f heq
      cases heq
  | @closed c _ h hsessions hregistry =>
    refine hs.of_sameMembers (fun c' f => ?_) (.of_eq hregistry)
    rw [hsessions, Sessions.get?_remove]
    by_cases hcc : c' = c
    · subst hcc
      rw [if_pos rfl, h]
      exact iff_of_false (fun heq => nomatch heq) (fun heq => nomatch heq)
    · rw [if_neg hcc]
  | joined h hf hrecord host hsessions hregistry => exact hs.join h hf hrecord hsessions hregistry
  | progressed hf hchange hmembership hsessions hregistry =>
    refine hs.of_sameMembers (fun c f => ?_) ?_
    · rw [hsessions]
    · rw [hregistry]
      exact (Registry.sameMembers_modify hf hmembership).trans (Registry.sameMembers_sweep _ _ _)
  | @departed _ f _ _ h hsessions hregistry =>
    have hleft : ({ s' with registry := s.registry.modify f (·.leave) } : Coordinator).Consistent :=
      hs.leave h hsessions rfl
    refine hleft.of_sameMembers (fun c f => Iff.rfl) ?_
    rw [hregistry]
    exact Registry.sameMembers_sweep _ _ _

/-- A connection has a session only once it has been opened. -/
theorem Move.exists_session (h : Move s e s' gs) (hc : s'.sessions.get? c ≠ none) :
    s.sessions.get? c ≠ none ∨ c ∈ e.opens? := by
  cases h with
  | idle hsessions | progressed _ _ _ hsessions =>
    rw [hsessions] at hc
    exact Or.inl hc
  | @opened c' _ he hsessions =>
    rw [hsessions, Sessions.get?_put] at hc
    by_cases hcc : c = c'
    · subst hcc
      exact Or.inr he
    · rw [if_neg hcc] at hc
      exact Or.inl hc
  | @joined c' _ _ _ h _ _ _ hsessions =>
    rw [hsessions, Sessions.get?_put] at hc
    by_cases hcc : c = c'
    · subst hcc
      exact Or.inl (by rw [h]; exact Option.some_ne_none _)
    · rw [if_neg hcc] at hc
      exact Or.inl hc
  | @closed c' _ _ hsessions | @departed c' _ _ _ _ hsessions =>
    rw [hsessions, Sessions.get?_remove] at hc
    by_cases hcc : c = c'
    · rw [if_pos hcc] at hc
      exact absurd rfl hc
    · rw [if_neg hcc] at hc
      exact Or.inl hc

/-- A federate that is joined stays on its connection, or leaves. -/
theorem Move.connection?_eq_or (h : Move s e s' gs) (hj : s.Joined c f record) :
    s'.registry.connection? f = some c ∨
      s'.registry.connection? f = none ∧ s'.registry.hasLeft f := by
  have hconnection := hj.connection?_eq
  cases h with
  | idle _ hregistry | opened _ _ hregistry | closed _ _ hregistry =>
    rw [hregistry]
    exact Or.inl hconnection
  | @joined _ _ g record' _ hg hrecord' _ _ hregistry =>
    rw [hregistry, Registry.connection?_modify hg]
    split
    · rename_i hgf
      subst hgf
      obtain rfl := Option.some.inj (hg.symm.trans hj.get?_eq)
      exact absurd hj.connected hrecord'
    · exact Or.inl hconnection
  | progressed hg hchange hmembership _ hregistry =>
    rw [hregistry, (Registry.sameMembers_sweep _ _ _).connection?,
      (Registry.sameMembers_modify hg hmembership).connection?]
    exact Or.inl hconnection
  | @departed _ g _ _ hg _ hregistry =>
    rw [hregistry, (Registry.sameMembers_sweep _ _ _).connection?,
      Registry.connection?_modify hg.get?_eq, Registry.hasLeft_sweep, Registry.hasLeft,
      Registry.flag_modify hg.get?_eq]
    by_cases hgf : g = f
    · rw [if_pos hgf, if_pos hgf]
      exact Or.inr ⟨rfl, rfl⟩
    · rw [if_neg hgf]
      exact Or.inl hconnection

theorem Move.joined_of_isConnected (h : Move s e s' gs) (hs' : s'.Consistent)
    (hj : s.Joined c f record) (hafter : s'.registry.isConnected f) :
    ∃ record', s'.Joined c f record' := by
  obtain ⟨c', record', hj'⟩ := hs'.isConnected_iff.1 hafter
  rcases h.connection?_eq_or hj with hc | ⟨hc, -⟩
  · exact hs'.exists_joined ((hs'.joined_iff c f).2 hc)
  · rw [hj'.connection?_eq] at hc
    cases hc

end Coordinator

/-! ## A whole run -/

namespace Run

open FederatedTime.Action (grants)

variable {t : Topology} {settings : CoordinatorSettings} {history : List Moment} {s : Coordinator}

theorem consistent_setTime (hs : s.Consistent) (now : Duration) : (s.setTime now).Consistent :=
  ⟨hs.size_eq, hs.id_eq, hs.joined_iff, hs.connected_iff⟩

theorem joined_setTime {c : ConnectionId} {f : FederateId} {record : FederateRecord}
    {now : Duration} : (s.setTime now).Joined c f record ↔ s.Joined c f record :=
  ⟨fun h => ⟨h.session, h.get?_eq, h.connection, h.connected⟩,
    fun h => ⟨h.session, h.get?_eq, h.connection, h.connected⟩⟩

theorem consistent_and_opened (run : Run t settings history s) :
    s.Consistent ∧ ∀ c, s.sessions.get? c ≠ none → c ∈ opened history := by
  induction run with
  | start => exact ⟨Coordinator.consistent_ofTopology t settings, fun c hc => absurd rfl hc⟩
  | @event history s run now e fresh ih =>
    obtain ⟨hs, hopened⟩ := ih
    have hs' := consistent_setTime hs now
    obtain ⟨gs, hmove, -⟩ := (Coordinator.handle_transition hs' e).move
    refine ⟨hmove.consistent hs' fun c hc => ?_, fun c hc => ?_⟩
    · -- a connection that is opened now has not been opened before, so it has no session yet
      by_contra hsession
      exact fresh c hc (hopened c hsession)
    · rw [opened_append, opened_moment, List.mem_append]
      rcases hmove.exists_session hc with hsession | hc
      · exact Or.inl (hopened c hsession)
      · exact Or.inr (Option.mem_toList.2 hc)

/-- Sessions and registry agree in every run on who is joined where. -/
theorem consistent (run : Run t settings history s) : s.Consistent := run.consistent_and_opened.1

theorem mem_opened_of_joined (run : Run t settings history s) {c : ConnectionId} {f : FederateId}
    {record : FederateRecord} (h : s.Joined c f record) : c ∈ opened history := by
  refine run.consistent_and_opened.2 c ?_
  rw [h.session]
  exact Option.some_ne_none _

/-- What the next event of a run does to the registry, and which grants it sends. -/
theorem update (run : Run t settings history s) (now : Duration) (e : Event) :
    ∃ gs, s.registry.Update ((s.setTime now).handle e).1.stopTag
        ((s.setTime now).handle e).1.registry gs ∧
      grants ((s.setTime now).handle e).2 = ((s.setTime now).handle e).1.sent gs := by
  have hs := consistent_setTime run.consistent now
  obtain ⟨gs, hmove, hgrants⟩ := (Coordinator.handle_transition hs e).move
  exact ⟨gs, hmove.update, hgrants⟩

theorem stopTag (run : Run t settings history s) (now : Duration) (e : Event) :
    s.stopTag = none ∨ ((s.setTime now).handle e).1.stopTag = s.stopTag :=
  (Coordinator.handle_transition (consistent_setTime run.consistent now) e).stopTag

theorem topology_eq (run : Run t settings history s) : s.registry.topology = t := by
  induction run with
  | start => rfl
  | event run now e fresh ih =>
    obtain ⟨gs, hupdate, -⟩ := run.update now e
    rw [hupdate.topology_eq]
    exact ih

theorem registry_size_eq (run : Run t settings history s) : s.registry.size = t.size := by
  rw [run.consistent.size_eq, run.topology_eq]

theorem size_le {p : Topology.Plan} (hbuild : p.build = .ok t) (run : Run t settings history s) :
    s.registry.size ≤ Topology.maxFederates := by
  rw [run.registry_size_eq]
  exact (Topology.Plan.wellFormed_of_build hbuild).size_le

theorem exists_record {f : FederateId} (run : Run t settings history s) (hf : f.index < t.size) :
    ∃ record, s.registry.get? f = some record :=
  Roster.exists_get?_of_index_lt (lt_of_lt_of_eq hf run.registry_size_eq.symm)

end Run

end FederatedTime
