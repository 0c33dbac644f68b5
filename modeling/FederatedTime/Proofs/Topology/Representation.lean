import FederatedTime.Proofs.Topology.Faults

/-!
# What a topology says of its plan

A topology keeps the least of the delays that are declared for each pair of federates, lists the
dependencies of a federate in the order in which they were first declared, and its dependents in
ascending order (`Represents`). `Plan.depicts_build` is that this holds of every topology that is
built, and that the order of the declarations makes no further difference. A plan that is refused
before its instant cycles are looked for is refused for its first fault (`Plan.FirstFault`).
-/

namespace FederatedTime.Topology

/-! ## Least delays -/

/-- The least of the delays at which `u` is connected to `f`. -/
structure IsLeastDelay (cs : List Connection) (u f : FederateId) (delay : Interval) : Prop where
  mem : ⟨u, f, delay⟩ ∈ cs
  le : ∀ c ∈ cs, c.upstream = u → c.downstream = f → delay.nanos.toInt ≤ c.delay.nanos.toInt

section IsLeastDelay

variable {cs cs' : List Connection} {c : Connection} {u f : FederateId} {delay other : Interval}

theorem IsLeastDelay.unique (h : IsLeastDelay cs u f delay) (h' : IsLeastDelay cs u f other) :
    delay = other := by
  have hle : delay.nanos.toInt ≤ other.nanos.toInt := h.le _ h'.mem rfl rfl
  have hge : other.nanos.toInt ≤ delay.nanos.toInt := h'.le _ h.mem rfl rfl
  obtain ⟨nanos⟩ := delay
  obtain ⟨nanos'⟩ := other
  exact congrArg Interval.mk (Int64.toInt_inj.1 (Int.le_antisymm hle hge))

theorem IsLeastDelay.of_mem_iff (hcs : ∀ c, c ∈ cs' ↔ c ∈ cs) (h : IsLeastDelay cs u f delay) :
    IsLeastDelay cs' u f delay :=
  ⟨(hcs _).2 h.mem, fun c hc => h.le c ((hcs c).1 hc)⟩

/-- A connection of another pair changes nothing. -/
theorem IsLeastDelay.append (h : IsLeastDelay cs u f delay)
    (hc : ¬ (c.upstream = u ∧ c.downstream = f)) : IsLeastDelay (cs ++ [c]) u f delay := by
  refine ⟨List.mem_append_left _ h.mem, fun c' hc' hu hf => ?_⟩
  rcases List.mem_append.1 hc' with hc' | hc'
  · exact h.le c' hc' hu hf
  · rw [List.mem_singleton.1 hc'] at hu hf
    exact absurd ⟨hu, hf⟩ hc

/-- The first connection of a pair sets its delay. -/
theorem isLeastDelay_append_of_first (hfirst : ∀ c' ∈ cs, c'.upstream = c.upstream →
    c'.downstream ≠ c.downstream) :
    IsLeastDelay (cs ++ [c]) c.upstream c.downstream c.delay := by
  refine ⟨List.mem_append_right _ (List.mem_singleton_self c), fun c' hc' hu hf => ?_⟩
  rcases List.mem_append.1 hc' with hc' | hc'
  · exact absurd hf (hfirst c' hc' hu)
  · rw [List.mem_singleton.1 hc']

/-- A further connection of a pair leaves the smaller of the two delays. -/
theorem IsLeastDelay.append_min (h : IsLeastDelay cs c.upstream c.downstream delay) :
    IsLeastDelay (cs ++ [c]) c.upstream c.downstream (delay.min c.delay) := by
  have hmin : (delay.min c.delay = delay ∨ delay.min c.delay = c.delay) ∧
      (delay.min c.delay).nanos.toInt ≤ delay.nanos.toInt ∧
      (delay.min c.delay).nanos.toInt ≤ c.delay.nanos.toInt := by
    unfold Interval.min
    split
    · rename_i hle
      exact ⟨Or.inl rfl, Int.le_refl _, Int64.le_iff_toInt_le.1 hle⟩
    · rename_i hnle
      rw [Int64.le_iff_toInt_le] at hnle
      exact ⟨Or.inr rfl, by omega, Int.le_refl _⟩
  obtain ⟨hchoice, hold, hnew⟩ := hmin
  refine ⟨?_, fun c' hc' hu hf => ?_⟩
  · rcases hchoice with heq | heq
    · rw [heq]
      exact List.mem_append_left _ h.mem
    · rw [heq]
      exact List.mem_append_right _ (List.mem_singleton_self c)
  · rcases List.mem_append.1 hc' with hc' | hc'
    · exact hold.trans (h.le c' hc' hu hf)
    · rwa [List.mem_singleton.1 hc']

end IsLeastDelay

namespace Plan

variable {u : FederateId} {delay : Interval} {l : List Dependency} {d : Dependency}

/-- An entry is as it was, or it is the new one, at its delay or at the smaller one of the two. -/
theorem of_mem_addDependency (hl : (l.map (·.federate)).Nodup)
    (hd : d ∈ addDependency u delay l) : d ∈ l ∧ d.federate ≠ u ∨
      d.federate = u ∧ (u ∉ l.map (·.federate) ∧ d.delay = delay ∨
        ∃ old, ⟨u, old⟩ ∈ l ∧ d.delay = old.min delay) := by
  induction l with
  | nil =>
    obtain rfl := List.mem_singleton.1 hd
    exact Or.inr ⟨rfl, Or.inl ⟨List.not_mem_nil, rfl⟩⟩
  | cons v rest ih =>
    obtain ⟨hv, hrest⟩ := List.nodup_cons.1 hl
    unfold addDependency at hd
    split at hd
    · rename_i hu
      subst hu
      rcases List.mem_cons.1 hd with rfl | hd
      · exact Or.inr ⟨rfl, Or.inr ⟨v.delay, List.mem_cons_self, rfl⟩⟩
      · refine Or.inl ⟨List.mem_cons_of_mem v hd, fun heq => hv ?_⟩
        show v.federate ∈ rest.map (·.federate)
        rw [← heq]
        exact List.mem_map_of_mem hd
    · rename_i hu
      rcases List.mem_cons.1 hd with rfl | hd
      · exact Or.inl ⟨List.mem_cons_self, hu⟩
      · rcases ih hrest hd with ⟨hmem, hne⟩ | ⟨heq, ⟨hfirst, hdelay⟩ | ⟨old, hold, hdelay⟩⟩
        · exact Or.inl ⟨List.mem_cons_of_mem v hmem, hne⟩
        · refine Or.inr ⟨heq, Or.inl ⟨fun hmem => ?_, hdelay⟩⟩
          rcases List.mem_cons.1 hmem with hv' | hmem
          · exact hu hv'.symm
          · exact hfirst hmem
        · exact Or.inr ⟨heq, Or.inr ⟨old, List.mem_cons_of_mem v hold, hdelay⟩⟩

end Plan

/-! ## Connections and the topology made of them -/

/-- The federates that are declared upstream of `f`, in the order of their first declarations. -/
def declaredUpstream (cs : List Connection) (f : FederateId) : List FederateId :=
  ((cs.filter (·.downstream = f)).map (·.upstream)).eraseDups

theorem mem_declaredUpstream_iff {cs : List Connection} {u f : FederateId} :
    u ∈ declaredUpstream cs f ↔ ∃ c ∈ cs, c.upstream = u ∧ c.downstream = f := by
  unfold declaredUpstream
  rw [List.mem_eraseDups, List.mem_map]
  constructor
  · rintro ⟨c, hc, rfl⟩
    obtain ⟨hc, hf⟩ := List.mem_filter.1 hc
    exact ⟨c, hc, rfl, of_decide_eq_true hf⟩
  · rintro ⟨c, hc, rfl, hf⟩
    exact ⟨c, List.mem_filter.2 ⟨hc, decide_eq_true hf⟩, rfl⟩

theorem eraseDups_append_singleton (fs : List FederateId) (f : FederateId) :
    (fs ++ [f]).eraseDups = if f ∈ fs.eraseDups then fs.eraseDups else fs.eraseDups ++ [f] := by
  rw [List.eraseDups_append]
  split
  · rename_i hf
    rw [List.mem_eraseDups] at hf
    have hnil : [f].removeAll fs = [] := by simp [List.removeAll, hf]
    rw [hnil, List.eraseDups_nil, List.append_nil]
  · rename_i hf
    rw [List.mem_eraseDups] at hf
    have hone : [f].removeAll fs = [f] := by simp [List.removeAll, hf]
    rw [hone]
    rfl

theorem declaredUpstream_append_singleton (cs : List Connection) (c : Connection)
    (f : FederateId) : declaredUpstream (cs ++ [c]) f =
      if c.downstream = f then
        if c.upstream ∈ declaredUpstream cs f then declaredUpstream cs f
        else declaredUpstream cs f ++ [c.upstream]
      else declaredUpstream cs f := by
  unfold declaredUpstream
  rw [List.filter_append, List.map_append]
  by_cases hf : c.downstream = f
  · rw [if_pos hf, List.filter_singleton, decide_eq_true hf]
    exact eraseDups_append_singleton _ _
  · rw [if_neg hf, List.filter_singleton, decide_eq_false hf]
    exact congrArg List.eraseDups (List.append_nil _)

/-- The topology is the one that the connections make: it has each of their edges at its least
delay, with the dependencies in the order of their first declarations. -/
structure Represents (cs : List Connection) (t : Topology) : Prop where
  federates_eq : ∀ f, (t.upstream f).map (·.federate) = declaredUpstream cs f
  isLeastDelay : ∀ f, ∀ d ∈ t.upstream f, IsLeastDelay cs d.federate f d.delay

section Represents

variable {t : Topology} {n : Nat} {cs cs' : List Connection} {c : Connection} {u f : FederateId}
  {delay : Interval}

theorem Represents.connect (h : Represents cs t) (ht : Linked n t) (hc : c.Fits n) :
    Represents (cs ++ [c]) (Plan.connect t c) := by
  have hdown : c.downstream.index < t.dependencies.size :=
    ht.size_dependencies.symm ▸ hc.downstream_lt
  refine ⟨fun f => ?_, fun f d hd => ?_⟩
  · rw [upstream_connect hdown, declaredUpstream_append_singleton, ← h.federates_eq]
    split
    · exact Plan.map_federate_addDependency
    · rfl
  · rw [upstream_connect hdown] at hd
    split at hd
    · rename_i hf
      subst hf
      rcases Plan.of_mem_addDependency (ht.nodup _) hd with
        ⟨hmem, hne⟩ | ⟨heq, ⟨hfirst, hdelay⟩ | ⟨old, hold, hdelay⟩⟩
      · exact (h.isLeastDelay _ d hmem).append fun hu => hne hu.1.symm
      · rw [heq, hdelay]
        refine isLeastDelay_append_of_first fun c' hc' hu hdown' => hfirst ?_
        rw [h.federates_eq]
        exact mem_declaredUpstream_iff.2 ⟨c', hc', hu, hdown'⟩
      · rw [heq, hdelay]
        exact (h.isLeastDelay _ _ hold).append_min
    · rename_i hf
      exact (h.isLeastDelay f d hd).append fun hdown' => hf hdown'.2

theorem represents_nil (federationId : String) (n : Nat) :
    Represents [] ⟨federationId, .replicate n [], .replicate n .empty⟩ := by
  refine ⟨fun f => ?_, fun f d hd => ?_⟩
  · rw [upstream_empty]
    rfl
  · rw [upstream_empty] at hd
    exact absurd hd List.not_mem_nil

theorem Represents.foldl_connect (h : Represents cs t) (ht : Linked n t)
    (hcs' : ∀ c ∈ cs', c.Fits n) : Represents (cs ++ cs') (cs'.foldl Plan.connect t) := by
  induction cs' generalizing cs t with
  | nil =>
    rw [List.append_nil]
    exact h
  | cons c cs' ih =>
    obtain ⟨hc, hcs'⟩ := List.forall_mem_cons.1 hcs'
    have hnext := ih (h.connect ht hc) (ht.connect hc) hcs'
    rwa [List.append_assoc] at hnext

/-- The entries of `f` are the federates declared upstream of it, at their least delays. -/
theorem Represents.mem_upstream_iff (h : Represents cs t) :
    ⟨u, delay⟩ ∈ t.upstream f ↔ IsLeastDelay cs u f delay := by
  refine ⟨h.isLeastDelay f _, fun hleast => ?_⟩
  have hu : u ∈ (t.upstream f).map (·.federate) := by
    rw [h.federates_eq]
    exact mem_declaredUpstream_iff.2 ⟨_, hleast.mem, rfl, rfl⟩
  obtain ⟨⟨u', other⟩, hd, rfl⟩ := List.mem_map.1 hu
  rwa [hleast.unique (h.isLeastDelay f _ hd)]

end Represents

/-! ## Plans and the topologies built from them -/

/-- What a topology says of its plan, and all that it says. -/
structure Depicts (p : Plan) (t : Topology) : Prop where
  federationId_eq : t.federationId = p.federationId
  size_eq : t.size = p.size
  /-- A federate is upstream of another one if and only if that has been declared. -/
  mem_federates_iff : ∀ u f, u ∈ (t.upstream f).map (·.federate) ↔
    ∃ c ∈ p.connections, c.upstream = u ∧ c.downstream = f
  /-- Its delay is the least of those declared. -/
  mem_upstream_iff : ∀ u f delay, ⟨u, delay⟩ ∈ t.upstream f ↔
    IsLeastDelay p.connections u f delay
  /-- The dependencies stand in the order in which they were first declared. -/
  federates_eq : ∀ f, (t.upstream f).map (·.federate) = declaredUpstream p.connections f
  mem_downstream_iff : ∀ u f, f ∈ t.downstream u ↔ u ∈ (t.upstream f).map (·.federate)
  ascending : ∀ u, (t.downstream u).Pairwise (· < ·)

/-- The same is declared in both plans, in whatever order and however often. -/
structure Plan.Rearranges (p' p : Plan) : Prop where
  federationId_eq : p'.federationId = p.federationId
  size_eq : p'.size = p.size
  mem_iff : ∀ c, c ∈ p'.connections ↔ c ∈ p.connections

theorem federationId_foldl_connect (cs : List Connection) (t : Topology) :
    (cs.foldl Plan.connect t).federationId = t.federationId := by
  induction cs generalizing t with
  | nil => rfl
  | cons c cs ih => exact ih (Plan.connect t c)

/-- Lists of federates in ascending order are equal if they have the same members. -/
theorem eq_of_ascending {l l' : List FederateId} (h : l.Pairwise (· < ·))
    (h' : l'.Pairwise (· < ·)) (hmem : ∀ f, f ∈ l ↔ f ∈ l') : l = l' := by
  have hne : ∀ f g : FederateId, f < g → f ≠ g := fun f g hlt heq =>
    Nat.lt_irrefl g.index (heq ▸ hlt)
  have hperm : l.Perm l' := (List.perm_ext_iff_of_nodup (h.imp (hne _ _)) (h'.imp (hne _ _))).2 hmem
  refine hperm.eq_of_pairwise (fun f g _ _ hfg hgf => ?_) h h'
  exact absurd hgf (Nat.lt_asymm hfg)

namespace Plan

variable {p p' : Plan} {t : Topology}

theorem Sound.linked (h : p.Sound) : Linked p.size p.graph :=
  (linked_empty p.federationId p.size).foldl_connect h.fits

theorem Sound.represents (h : p.Sound) : Represents p.connections p.graph :=
  (represents_nil p.federationId p.size).foldl_connect (linked_empty p.federationId p.size) h.fits

theorem Sound.depicts (h : p.Sound) : Depicts p p.graph where
  federationId_eq := federationId_foldl_connect _ _
  size_eq := h.linked.size_dependencies
  mem_federates_iff u f := by
    rw [h.represents.federates_eq]
    exact mem_declaredUpstream_iff
  mem_upstream_iff _ _ _ := h.represents.mem_upstream_iff
  federates_eq := h.represents.federates_eq
  mem_downstream_iff := h.linked.mem_downstream_iff
  ascending u := (p.graph.dependents.getD u .empty).ascending

theorem Rearranges.sound (hp : p'.Rearranges p) (h : p.Sound) : p'.Sound where
  size_pos := hp.size_eq ▸ h.size_pos
  size_le := hp.size_eq ▸ h.size_le
  federationId_le := hp.federationId_eq ▸ h.federationId_le
  fits c hc := hp.size_eq ▸ h.fits c ((hp.mem_iff c).1 hc)

theorem Rearranges.mem_upstream_iff (hp : p'.Rearranges p) (h : p.Sound) (f : FederateId)
    (d : Dependency) : d ∈ p'.graph.upstream f ↔ d ∈ p.graph.upstream f := by
  obtain ⟨u, delay⟩ := d
  rw [(hp.sound h).represents.mem_upstream_iff, h.represents.mem_upstream_iff]
  exact ⟨.of_mem_iff fun c => (hp.mem_iff c).symm, .of_mem_iff hp.mem_iff⟩

theorem Rearranges.upstream_perm (hp : p'.Rearranges p) (h : p.Sound) (f : FederateId) :
    (p'.graph.upstream f).Perm (p.graph.upstream f) :=
  (List.perm_ext_iff_of_nodup ((hp.sound h).linked.nodup f).of_map (h.linked.nodup f).of_map).2
    (hp.mem_upstream_iff h f)

theorem Rearranges.downstream_eq (hp : p'.Rearranges p) (h : p.Sound) (u : FederateId) :
    p'.graph.downstream u = p.graph.downstream u := by
  refine eq_of_ascending ((hp.sound h).depicts.ascending u) (h.depicts.ascending u) fun f => ?_
  rw [(hp.sound h).linked.mem_downstream_iff, h.linked.mem_downstream_iff]
  exact ((hp.upstream_perm h f).map (·.federate)).mem_iff

theorem Rearranges.instantDownstream_eq (hp : p'.Rearranges p) (h : p.Sound) :
    p'.graph.instantDownstream = p.graph.instantDownstream := by
  funext u
  have hdelay : ∀ f, p'.graph.delay? u f = p.graph.delay? u f := fun f => by
    ext delay
    rw [(hp.sound h).linked.delay?_eq_some_iff, h.linked.delay?_eq_some_iff]
    exact hp.mem_upstream_iff h f ⟨u, delay⟩
  unfold instantDownstream
  rw [hp.downstream_eq h]
  exact List.filter_congr fun f _ => by rw [hdelay]

theorem sound_of_build (h : p.build = .ok t) : p.Sound := by
  obtain ⟨hlimits, hconnections, -, -⟩ := build_eq_ok_iff.1 h
  exact sound_iff.2 ⟨hlimits, hconnections⟩

/-- The order of the declarations makes no difference to whether a topology is built. -/
theorem Rearranges.build_eq (hp : p'.Rearranges p) (h : p.build = .ok t) :
    p'.build = .ok p'.graph := by
  have hsound := sound_of_build h
  obtain ⟨-, -, hcycle, -⟩ := build_eq_ok_iff.1 h
  obtain ⟨hlimits, hconnections⟩ := sound_iff.1 (hp.sound hsound)
  refine build_eq_ok_iff.2 ⟨hlimits, hconnections, ?_, rfl⟩
  have hsize : p'.graph.size = p.graph.size := by
    rw [(hp.sound hsound).depicts.size_eq, hsound.depicts.size_eq, hp.size_eq]
  rw [hp.instantDownstream_eq hsound, hsize, hcycle]

/-- A topology that is built depicts its plan, and a plan that declares the same in another order
has the same topology but for the order of the dependencies. A plan that is refused for anything but
an instant cycle is refused for its first fault. -/
theorem depicts_build (p : Plan) :
    (∀ t, p.build = .ok t → Depicts p t ∧ ∀ p' : Plan, p'.Rearranges p → ∃ t',
      p'.build = .ok t' ∧ t'.federationId = t.federationId ∧ t'.size = t.size ∧
      ∀ f, (t'.upstream f).Perm (t.upstream f) ∧ t'.downstream f = t.downstream f) ∧
    ∀ e, (∀ cycle, e ≠ .zeroDelayCycle cycle) → (p.build = .error e ↔ p.FirstFault e) := by
  refine ⟨fun t h => ?_, fun e he => ?_⟩
  · have hsound := sound_of_build h
    have hgraph : p.graph = t := (build_eq_ok_iff.1 h).2.2.2
    rw [← hgraph]
    refine ⟨hsound.depicts, fun p' hp => ⟨p'.graph, hp.build_eq h, ?_, ?_, fun f => ?_⟩⟩
    · rw [(hp.sound hsound).depicts.federationId_eq, hsound.depicts.federationId_eq,
        hp.federationId_eq]
    · rw [(hp.sound hsound).depicts.size_eq, hsound.depicts.size_eq, hp.size_eq]
    · exact ⟨hp.upstream_perm hsound f, hp.downstream_eq hsound f⟩
  · rw [build_eq_error_iff]
    refine or_iff_left ?_
    rintro ⟨-, cycle, -, rfl⟩
    exact he cycle rfl

/-- One connection is declared twice, and one goes the other way. -/
def repeated : Plan :=
  { federationId := "repeated", size := 2,
    connections := [⟨⟨0⟩, ⟨1⟩, ⟨10⟩⟩, ⟨⟨1⟩, ⟨0⟩, ⟨5⟩⟩, ⟨⟨0⟩, ⟨1⟩, ⟨2⟩⟩] }

theorem depicts_build_repeated : repeated.build = .ok repeated.graph ∧
    repeated.graph.upstream ⟨1⟩ = [⟨⟨0⟩, ⟨2⟩⟩] ∧ Depicts repeated repeated.graph := by
  have hbuild : repeated.build = .ok repeated.graph :=
    build_eq_ok_iff.2 ⟨rfl, rfl, by cbv, rfl⟩
  exact ⟨hbuild, by decide, ((depicts_build repeated).1 _ hbuild).1⟩

end Plan

end FederatedTime.Topology
