import FederatedTime.Config.Federation
import FederatedTime.Proofs.Topology.InstantCycles
import Mathlib.Data.List.Perm.Subperm

/-!
# Configurations and their topologies

A topology follows from a configuration if and only if the configuration is `Federation.Valid`: the
federates bear the numbers below their count, in any order, and the least delays that they list make
a sound federation. The topology then shows what is listed and nothing else (`Federation.Shows`),
and the order of the federates in the file makes no difference to it
(`Federation.topology_determined`).
-/

namespace FederatedTime

namespace Config

/-! ## Numbers of federates -/

/-- The federates bear the numbers below their count, each once. -/
def Numbered (federates : List Federate) : Prop :=
  (federates.map (·.id.toNat)).Perm (List.range federates.length)

instance (federates : List Federate) : Decidable (Numbered federates) :=
  inferInstanceAs (Decidable ((federates.map (·.id.toNat)).Perm (List.range federates.length)))

/-- As many numbers as there may be, all of them different, are all there are. -/
theorem numbered_iff {federates : List Federate} : Numbered federates ↔
    (∀ f ∈ federates, f.id.toNat < federates.length) ∧ (federates.map (·.id)).Nodup := by
  have hmap : (federates.map (·.id.toNat)).Nodup ↔ (federates.map (·.id)).Nodup := by
    have hcomp : federates.map (·.id.toNat) = (federates.map (·.id)).map UInt16.toNat := by
      rw [List.map_map]
      rfl
    rw [hcomp]
    exact List.nodup_map_iff fun _ _ => UInt16.toNat_inj.1
  constructor
  · intro h
    refine ⟨fun f hf => List.mem_range.1 (h.mem_iff.1 (List.mem_map_of_mem hf)), ?_⟩
    exact hmap.1 (h.nodup_iff.2 List.nodup_range)
  · rintro ⟨hlt, hnodup⟩
    have hsub : federates.map (·.id.toNat) ⊆ List.range federates.length := by
      intro i hi
      obtain ⟨f, hf, rfl⟩ := List.mem_map.1 hi
      exact List.mem_range.2 (hlt f hf)
    refine ((hmap.2 hnodup).subperm hsub).perm_of_length_le ?_
    rw [List.length_range, List.length_map]

theorem Numbered.length_le {federates : List Federate} (h : Numbered federates) :
    federates.length ≤ Topology.maxFederates := by
  cases hlength : federates.length with
  | zero => exact Nat.zero_le _
  | succ n =>
    have hmem : n ∈ federates.map (·.id.toNat) :=
      h.mem_iff.2 (List.mem_range.2 (hlength ▸ n.lt_succ_self))
    obtain ⟨f, -, rfl⟩ := List.mem_map.1 hmem
    exact f.id.toNat_lt

/-- The connections that an entry lists, in its order. -/
def Federate.connections (e : Federate) : List Topology.Connection :=
  e.upstream.map fun u => ⟨⟨u.id⟩, ⟨e.id⟩, ⟨u.delayNanos⟩⟩

/-- All connections of an entry lead to its own federate. -/
theorem Federate.filter_connections (e : Federate) (id : UInt16) :
    e.connections.filter (·.downstream = ⟨id⟩) = if e.id = id then e.connections else [] := by
  unfold connections
  split
  · next heq =>
    refine List.filter_eq_self.2 ?_
    rw [List.forall_mem_map]
    exact fun u _ => decide_eq_true (congrArg _ heq)
  · next hne =>
    refine List.filter_eq_nil_iff.2 ?_
    rw [List.forall_mem_map]
    exact fun u _ h => hne (FederateId.mk.inj (of_decide_eq_true h))

namespace Federation

variable {c c' : Federation} {t : Topology} {u f : FederateId} {delay : Interval}

theorem checkIds_eq_ok_iff {n : Nat} {seen : List UInt16} {federates : List Federate} :
    checkIds n seen federates = .ok () ↔ (∀ f ∈ federates, f.id.toNat < n) ∧
      (federates.map (·.id)).Nodup ∧ ∀ f ∈ federates, f.id ∉ seen := by
  induction federates generalizing seen with
  | nil => exact iff_of_true rfl ⟨nofun, .nil, nofun⟩
  | cons f rest ih =>
    unfold checkIds
    rw [List.forall_mem_cons, List.forall_mem_cons, List.map_cons, List.nodup_cons]
    by_cases hlt : n ≤ f.id.toNat
    · rw [if_pos hlt]
      exact iff_of_false nofun fun h => absurd h.1.1 (Nat.not_lt.2 hlt)
    by_cases hseen : f.id ∈ seen
    · rw [if_neg hlt, if_pos hseen]
      exact iff_of_false nofun fun h => h.2.2.1 hseen
    rw [if_neg hlt, if_neg hseen, ih]
    -- the rest avoids `f` and what was seen before it
    have hrest : (∀ g ∈ rest, g.id ∉ f.id :: seen) ↔
        f.id ∉ rest.map (·.id) ∧ ∀ g ∈ rest, g.id ∉ seen := by
      simp only [List.mem_cons, List.mem_map, not_or, not_exists, not_and]
      exact forall₂_and
    rw [hrest]
    exact ⟨fun ⟨h, hn, hf, hs⟩ => ⟨⟨Nat.not_le.1 hlt, h⟩, ⟨hf, hn⟩, hseen, hs⟩,
      fun ⟨⟨_, h⟩, ⟨hf, hn⟩, _, hs⟩ => ⟨h, hn, hf, hs⟩⟩

theorem topology_eq_ok_iff :
    c.topology = .ok t ↔ Numbered c.federates ∧ c.plan.build = .ok t := by
  have hids : checkIds c.federates.length [] c.federates = .ok () ↔ Numbered c.federates := by
    rw [checkIds_eq_ok_iff, numbered_iff]
    exact and_congr_right fun _ => and_iff_left fun _ _ => List.not_mem_nil
  rw [← hids]
  unfold topology
  dsimp only [bind, Except.bind]
  cases checkIds c.federates.length [] c.federates with
  | error e => exact iff_of_false nofun nofun
  | ok u =>
    cases c.plan.build with
    | error e => exact iff_of_false nofun nofun
    | ok t' =>
      show Except.ok t' = Except.ok t ↔ _
      simp only [Except.ok.injEq, true_and]

/-! ## What is listed -/

/-- The entry of `f` lists `u` upstream, at the given delay. -/
def Lists (c : Federation) (u f : FederateId) (delay : Interval) : Prop :=
  ∃ entry ∈ c.federates, entry.id = f.number ∧ ⟨u.number, delay.nanos⟩ ∈ entry.upstream

/-- The least of the delays at which `u` is listed upstream of `f`. -/
structure LeastDelay (c : Federation) (u f : FederateId) (delay : Interval) : Prop where
  lists : c.Lists u f delay
  le : ∀ other, c.Lists u f other → delay.nanos.toInt ≤ other.nanos.toInt

/-- What `u` sends reaches `f` without delay. -/
def Instant (c : Federation) (u f : FederateId) : Prop := c.LeastDelay u f .zero

theorem connections_eq (c : Federation) :
    c.connections = c.federates.flatMap (·.connections) := rfl

theorem mem_connections_iff : ⟨u, f, delay⟩ ∈ c.connections ↔ c.Lists u f delay := by
  unfold connections Lists
  rw [List.mem_flatMap]
  refine exists_congr fun entry => and_congr_right fun _ => ?_
  rw [List.mem_map]
  constructor
  · rintro ⟨listed, hlisted, heq⟩
    obtain ⟨rfl, rfl, rfl⟩ := Topology.Connection.mk.inj heq
    exact ⟨rfl, hlisted⟩
  · rintro ⟨hid, hlisted⟩
    exact ⟨_, hlisted, by rw [hid]⟩

theorem leastDelay_iff : c.LeastDelay u f delay ↔
    Topology.IsLeastDelay c.plan.connections u f delay := by
  constructor
  · intro h
    refine ⟨mem_connections_iff.2 h.lists, fun edge hedge hu hf => ?_⟩
    subst hu hf
    exact h.le edge.delay (mem_connections_iff.1 hedge)
  · intro h
    exact ⟨mem_connections_iff.1 h.mem,
      fun other hother => h.le _ (mem_connections_iff.2 hother) rfl rfl⟩

theorem instant_eq : c.Instant = c.plan.Instant :=
  funext₂ fun _ _ => propext leastDelay_iff

/-- The connections of one federate are those of its entry, as it stands in the file. -/
theorem filter_connections (hids : (c.federates.map (·.id)).Nodup) {entry : Federate}
    (hentry : entry ∈ c.federates) :
    c.connections.filter (·.downstream = ⟨entry.id⟩) = entry.connections := by
  rw [connections_eq]
  generalize c.federates = federates at hids hentry
  induction federates with
  | nil => cases hentry
  | cons e rest ih =>
    obtain ⟨he, hrest⟩ := List.nodup_cons.1 hids
    rw [List.flatMap_cons, List.filter_append, e.filter_connections]
    rcases List.mem_cons.1 hentry with rfl | hentry
    · -- no later entry has this number
      have hothers : ∀ e' ∈ rest, ¬ e'.id = entry.id := fun e' he' heq =>
        he (List.mem_map.2 ⟨e', he', heq⟩)
      rw [if_pos rfl, List.filter_flatMap, List.append_right_eq_self, List.flatMap_eq_nil_iff]
      intro e' he'
      rw [e'.filter_connections, if_neg (hothers e' he')]
    · have hne : ¬ e.id = entry.id := fun heq => he (List.mem_map.2 ⟨entry, hentry, heq.symm⟩)
      rw [if_neg hne, List.nil_append, ih hrest hentry]

theorem declaredUpstream_eq (hids : (c.federates.map (·.id)).Nodup) {entry : Federate}
    (hentry : entry ∈ c.federates) : Topology.declaredUpstream c.plan.connections ⟨entry.id⟩ =
      (entry.upstream.map fun u => ⟨u.id⟩).eraseDups := by
  have hown : c.plan.connections.filter (·.downstream = ⟨entry.id⟩) = entry.connections :=
    filter_connections hids hentry
  rw [Topology.declaredUpstream, hown, Federate.connections, List.map_map]
  rfl

/-! ## Valid configurations -/

/-- What a configuration must be for a topology to follow from it. -/
structure Valid (c : Federation) : Prop where
  one_le : 1 ≤ c.federates.length
  numbered : Numbered c.federates
  federationId_le : c.federationId.utf8ByteSize ≤ 255
  upstream_lt : ∀ f ∈ c.federates, ∀ u ∈ f.upstream, u.id.toNat < c.federates.length
  delay_nonneg : ∀ f ∈ c.federates, ∀ u ∈ f.upstream, 0 ≤ u.delayNanos.toInt
  acyclic : ∀ f, ¬ Relation.TransGen c.Instant f f

theorem fits_iff (h : Numbered c.federates) :
    (∀ edge ∈ c.plan.connections, edge.Fits c.plan.size) ↔
      (∀ f ∈ c.federates, ∀ u ∈ f.upstream, u.id.toNat < c.federates.length) ∧
      ∀ f ∈ c.federates, ∀ u ∈ f.upstream, 0 ≤ u.delayNanos.toInt := by
  have hlt := (numbered_iff.1 h).1
  constructor
  · intro hfits
    have edge (f) (hf : f ∈ c.federates) (u) (hu : u ∈ f.upstream) :
        Topology.Connection.Fits c.plan.size ⟨⟨u.id⟩, ⟨f.id⟩, ⟨u.delayNanos⟩⟩ :=
      hfits _ (mem_connections_iff.2 ⟨f, hf, rfl, hu⟩)
    exact ⟨fun f hf u hu => (edge f hf u hu).upstream_lt,
      fun f hf u hu => (edge f hf u hu).delay_nonneg⟩
  · rintro ⟨hupstream, hdelay⟩ ⟨u, f, delay⟩ hedge
    obtain ⟨entry, hentry, hid, hlisted⟩ := mem_connections_iff.1 hedge
    have hf : f.number.toNat < c.federates.length := by
      rw [← hid]
      exact hlt entry hentry
    exact ⟨hupstream entry hentry _ hlisted, hf, hdelay entry hentry _ hlisted⟩

theorem exists_topology_iff : (∃ t, c.topology = .ok t) ↔ c.Valid := by
  simp only [topology_eq_ok_iff, exists_and_left, Topology.Plan.exists_build_iff, ← instant_eq]
  constructor
  · rintro ⟨hnumbered, hsound, hacyclic⟩
    obtain ⟨hupstream, hdelay⟩ := (fits_iff hnumbered).1 hsound.fits
    exact ⟨hsound.size_pos, hnumbered, hsound.federationId_le, hupstream, hdelay, hacyclic⟩
  · intro h
    exact ⟨h.numbered, ⟨⟨h.one_le, h.numbered.length_le, h.federationId_le⟩,
      (fits_iff h.numbered).2 ⟨h.upstream_lt, h.delay_nonneg⟩⟩, h.acyclic⟩

/-! ## Topologies of configurations -/

/-- The topology shows what the configuration lists, and nothing else. -/
structure Shows (c : Federation) (t : Topology) : Prop where
  federationId_eq : t.federationId = c.federationId
  size_eq : t.size = c.federates.length
  /-- There is an edge for each upstream federate that is listed, at the least delay. -/
  mem_upstream_iff : ∀ u f delay, ⟨u, delay⟩ ∈ t.upstream f ↔ c.LeastDelay u f delay
  /-- The edges of one federate stand in the order in which its entry first lists them. -/
  federates_eq : ∀ entry ∈ c.federates, (t.upstream ⟨entry.id⟩).map (·.federate) =
    (entry.upstream.map fun u => ⟨u.id⟩).eraseDups
  mem_downstream_iff : ∀ u f, f ∈ t.downstream u ↔ ∃ delay, ⟨u, delay⟩ ∈ t.upstream f

theorem shows_of_topology (h : c.topology = .ok t) : c.Shows t := by
  obtain ⟨hnumbered, hbuild⟩ := topology_eq_ok_iff.1 h
  have hsound := Topology.Plan.sound_of_build hbuild
  obtain rfl : c.plan.graph = t := (Topology.Plan.build_eq_ok_iff.1 hbuild).2.2.2
  have hdepicts := hsound.depicts
  refine ⟨hdepicts.federationId_eq, hdepicts.size_eq, fun u f delay => ?_, fun entry hentry => ?_,
    fun u f => ?_⟩
  · rw [hdepicts.mem_upstream_iff, leastDelay_iff]
  · rw [hdepicts.federates_eq, declaredUpstream_eq (numbered_iff.1 hnumbered).2 hentry]
  · rw [hdepicts.mem_downstream_iff, List.mem_map]
    constructor
    · rintro ⟨d, hd, rfl⟩
      exact ⟨d.delay, hd⟩
    · rintro ⟨delay, hd⟩
      exact ⟨_, hd, rfl⟩

/-- The configurations differ at most in the order of their federates. -/
structure Reorders (c' c : Federation) : Prop where
  federationId_eq : c'.federationId = c.federationId
  federates_perm : c'.federates.Perm c.federates

theorem Reorders.symm (h : c'.Reorders c) : c.Reorders c' :=
  ⟨h.federationId_eq.symm, h.federates_perm.symm⟩

theorem Reorders.plan (h : c'.Reorders c) : c'.plan.Rearranges c.plan where
  federationId_eq := h.federationId_eq
  size_eq := h.federates_perm.length_eq
  mem_iff _ := (h.federates_perm.flatMap_right _).mem_iff

/-- Dependencies on the same federates in the same order are the same, if the delays are. -/
theorem eq_of_federates_eq {l l' : List Dependency}
    (h : l.map (·.federate) = l'.map (·.federate))
    (hdelay : ∀ d ∈ l, ∀ d' ∈ l', d.federate = d'.federate → d = d') : l = l' := by
  induction l generalizing l' with
  | nil => exact (List.map_eq_nil_iff.1 h.symm).symm
  | cons d l ih =>
    cases l' with
    | nil => cases h
    | cons d' l' =>
      obtain ⟨hd, hl⟩ := List.cons.inj h
      obtain rfl := hdelay d List.mem_cons_self d' List.mem_cons_self hd
      rw [ih hl fun e he e' he' =>
        hdelay e (List.mem_cons_of_mem d he) e' (List.mem_cons_of_mem d he')]

theorem Reorders.numbered (h : c'.Reorders c) (hnumbered : Numbered c.federates) :
    Numbered c'.federates := by
  unfold Numbered
  rw [h.federates_perm.length_eq]
  exact (h.federates_perm.map _).trans hnumbered

/-- One federate has the same dependencies in the same order, since its entry is the same. -/
theorem Reorders.upstream_eq (h : c'.Reorders c) (hnumbered : Numbered c.federates)
    (hsound : c.plan.Sound) (f : FederateId) :
    c'.plan.graph.upstream f = c.plan.graph.upstream f := by
  have hsound' := h.plan.sound hsound
  have hperm := h.plan.upstream_perm hsound f
  by_cases hf : ∃ entry ∈ c.federates, entry.id = f.number
  · obtain ⟨entry, hentry, hid⟩ := hf
    obtain rfl : ⟨entry.id⟩ = f := congrArg FederateId.mk hid
    refine eq_of_federates_eq ?_ fun d hd d' hd' => ?_
    · rw [hsound'.represents.federates_eq, hsound.represents.federates_eq,
        declaredUpstream_eq (numbered_iff.1 hnumbered).2 hentry,
        declaredUpstream_eq (numbered_iff.1 (h.numbered hnumbered)).2
          (h.federates_perm.mem_iff.2 hentry)]
    · exact List.inj_on_of_nodup_map (hsound.linked.nodup _) (hperm.mem_iff.1 hd) hd'
  · have hnil : c.plan.graph.upstream f = [] := by
      refine List.eq_nil_iff_forall_not_mem.2 fun d hd => hf ?_
      obtain ⟨entry, hentry, hid, -⟩ :=
        mem_connections_iff.1 (hsound.represents.mem_upstream_iff.1 hd).mem
      exact ⟨entry, hentry, hid⟩
    rw [hnil] at hperm ⊢
    exact hperm.eq_nil

/-- The same topology follows whatever the order of the federates in the file. -/
theorem Reorders.topology_eq (h : c'.Reorders c) (ht : c.topology = .ok t) :
    c'.topology = .ok t := by
  obtain ⟨hnumbered, hbuild⟩ := topology_eq_ok_iff.1 ht
  have hsound := Topology.Plan.sound_of_build hbuild
  have hsound' := h.plan.sound hsound
  obtain rfl : c.plan.graph = t := (Topology.Plan.build_eq_ok_iff.1 hbuild).2.2.2
  have hid : c'.plan.graph.federationId = c.plan.graph.federationId := by
    rw [hsound'.depicts.federationId_eq, hsound.depicts.federationId_eq, h.plan.federationId_eq]
  have hsame : c'.plan.graph = c.plan.graph :=
    (h.plan.size_eq ▸ hsound'.linked).ext hsound.linked hsound.size_le hid
      (h.upstream_eq hnumbered hsound) (h.plan.downstream_eq hsound)
  exact topology_eq_ok_iff.2
    ⟨h.numbered hnumbered, (h.plan.build_eq hbuild).trans (congrArg Except.ok hsame)⟩

/-- A topology follows from exactly the valid configurations; it shows what they list, and it, or
none, follows as well if the federates stand in another order in the file. -/
theorem topology_determined (c : Federation) :
    ((∃ t, c.topology = .ok t) ↔ c.Valid) ∧ (∀ t, c.topology = .ok t → c.Shows t) ∧
    ∀ c' : Federation, c'.Reorders c → (∀ t, c.topology = .ok t → c'.topology = .ok t) ∧
      ((∃ e, c.topology = .error e) → ∃ e, c'.topology = .error e) := by
  refine ⟨exists_topology_iff, fun t => shows_of_topology, fun c' h =>
    ⟨fun t => h.topology_eq, ?_⟩⟩
  rintro ⟨e, he⟩
  cases ht' : c'.topology with
  | error e' => exact ⟨e', rfl⟩
  | ok t =>
    rw [h.symm.topology_eq ht'] at he
    cases he

/-- Federate 1 stands first in the file, and lists federate 0 twice. -/
def backwards : Federation where
  federationId := "backwards"
  federates := [⟨1, [⟨0, 9⟩, ⟨1, 4⟩, ⟨0, 7⟩]⟩, ⟨0, []⟩]

/-- The same federates in the order of their numbers. -/
def forwards : Federation := { backwards with federates := backwards.federates.reverse }

/-- The topology has the smaller delay at the first place, in whatever order the federates stand. -/
theorem topology_determined_backwards : backwards.Valid ∧
    backwards.topology = .ok backwards.plan.graph ∧
    backwards.plan.graph.upstream ⟨1⟩ = [⟨⟨0⟩, ⟨7⟩⟩, ⟨⟨1⟩, ⟨4⟩⟩] ∧
    backwards.Shows backwards.plan.graph ∧ forwards.topology = .ok backwards.plan.graph := by
  obtain ⟨hvalid, hshows, hreorders⟩ := topology_determined backwards
  have hbuild : backwards.plan.build = .ok backwards.plan.graph :=
    Topology.Plan.build_eq_ok_iff.2 ⟨rfl, rfl, by cbv, rfl⟩
  have htopology : backwards.topology = .ok backwards.plan.graph :=
    topology_eq_ok_iff.2 ⟨by decide, hbuild⟩
  have hforwards : forwards.Reorders backwards := ⟨rfl, List.reverse_perm _⟩
  exact ⟨hvalid.1 ⟨_, htopology⟩, htopology, by decide, hshows _ htopology,
    (hreorders forwards hforwards).1 _ htopology⟩

end Federation

end Config

end FederatedTime
