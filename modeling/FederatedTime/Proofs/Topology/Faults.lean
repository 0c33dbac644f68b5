import FederatedTime.Proofs.Topology.WellFormed

/-!
# Faults of a plan

A plan is refused for the first thing that is wrong with it: its size, the length of its federation
id, then its connections one after the other (`Plan.FirstFault`). Only a plan without such a fault
is searched for instant cycles, and only for one of these can it then be refused
(`Plan.build_eq_error_iff`).
-/

namespace FederatedTime.Topology

/-- What is wrong with a connection in a federation of `n`. -/
inductive Connection.Fault (n : Nat) (c : Connection) : TopologyError → Prop where
  | upstream (h : n ≤ c.upstream.index) : Fault n c (.outOfRange c.upstream n)
  | downstream (hup : c.upstream.index < n) (h : n ≤ c.downstream.index) :
    Fault n c (.outOfRange c.downstream n)
  | delay (hup : c.upstream.index < n) (hdown : c.downstream.index < n)
    (h : c.delay.nanos.toInt < 0) :
    Fault n c (.negativeDelay c.upstream c.downstream c.delay)

namespace Plan

/-- The size and the federation id of a plan are such as identifiers and messages have room for. -/
structure Supported (p : Plan) : Prop where
  size_pos : 0 < p.size
  size_le : p.size ≤ maxFederates
  federationId_le : p.federationId.utf8ByteSize ≤ maxFederationIdBytes

/-- Nothing is wrong with a plan, its instant cycles aside. -/
structure Sound (p : Plan) : Prop extends Supported p where
  fits : ∀ c ∈ p.connections, c.Fits p.size

/-- The first thing that is wrong with a plan, its instant cycles aside. -/
inductive FirstFault (p : Plan) : TopologyError → Prop where
  | noFederates (h : p.size = 0) : FirstFault p .noFederates
  | tooManyFederates (h : maxFederates < p.size) : FirstFault p (.tooManyFederates p.size)
  | federationIdTooLong (hpos : 0 < p.size) (hsize : p.size ≤ maxFederates)
    (h : maxFederationIdBytes < p.federationId.utf8ByteSize) :
    FirstFault p (.federationIdTooLong p.federationId.utf8ByteSize)
  | connection {before after : List Connection} {c : Connection} {e : TopologyError}
    (hsupported : p.Supported) (hsplit : p.connections = before ++ c :: after)
    (hbefore : ∀ earlier ∈ before, earlier.Fits p.size) (h : c.Fault p.size e) : FirstFault p e

variable {p : Plan} {n : Nat} {c : Connection} {e : TopologyError}

theorem FirstFault.ne_zeroDelayCycle (h : p.FirstFault e) (cycle : List FederateId) :
    e ≠ .zeroDelayCycle cycle := by
  cases h with
  | connection _ _ _ h => cases h <;> exact nofun
  | _ => exact nofun

/-! ## The checks one by one -/

theorem checkLimits_eq_ok_iff : p.checkLimits = .ok () ↔ p.Supported := by
  unfold checkLimits
  constructor
  · intro h
    split_ifs at h with hzero hmany hlong
    exact ⟨by omega, by omega, by omega⟩
  · intro h
    rw [if_neg (Nat.ne_of_gt h.size_pos), if_neg (Nat.not_lt.2 h.size_le),
      if_neg (Nat.not_lt.2 h.federationId_le)]
    rfl

theorem checkConnection_eq_ok_iff : checkConnection n c = .ok () ↔ c.Fits n := by
  refine ⟨fits_of_checkConnection, fun h => ?_⟩
  have hneg : ¬ c.delay.isNegative = true := fun hneg =>
    absurd h.delay_nonneg (Int.not_le.2 (Interval.isNegative_iff.1 hneg))
  unfold checkConnection
  rw [if_neg (Nat.not_le.2 h.upstream_lt), if_neg (Nat.not_le.2 h.downstream_lt), if_neg hneg]
  rfl

theorem checkConnection_eq_error_iff : checkConnection n c = .error e ↔ c.Fault n e := by
  unfold checkConnection
  constructor
  · intro h
    split_ifs at h with hup hdown hneg
    · cases h
      exact .upstream hup
    · cases h
      exact .downstream (Nat.not_le.1 hup) hdown
    · cases h
      exact .delay (Nat.not_le.1 hup) (Nat.not_le.1 hdown) (Interval.isNegative_iff.1 hneg)
    · cases h
  · intro h
    cases h with
    | upstream h =>
      rw [if_pos h]
      rfl
    | downstream hup h =>
      rw [if_neg (Nat.not_le.2 hup), if_pos h]
      rfl
    | delay hup hdown h =>
      rw [if_neg (Nat.not_le.2 hup), if_neg (Nat.not_le.2 hdown),
        if_pos (Interval.isNegative_iff.2 h)]
      rfl

section ForM

variable {α ε : Type} {l : List α} {check : α → Except ε Unit}

theorem forM_eq_ok_iff : l.forM check = .ok () ↔ ∀ a ∈ l, check a = .ok () := by
  refine ⟨forall_of_forM_eq_ok, fun h => ?_⟩
  induction l with
  | nil => rfl
  | cons a l ih =>
    obtain ⟨ha, hl⟩ := List.forall_mem_cons.1 h
    show (check a >>= fun _ => l.forM check) = _
    rw [ha]
    exact ih hl

/-- Checks one after the other fail with what the first one that fails says. -/
theorem forM_eq_error_iff {e : ε} : l.forM check = .error e ↔ ∃ before a after,
    l = before ++ a :: after ∧ (∀ b ∈ before, check b = .ok ()) ∧ check a = .error e := by
  induction l with
  | nil =>
    refine iff_of_false nofun ?_
    rintro ⟨before, a, after, hsplit, -⟩
    exact List.append_ne_nil_of_right_ne_nil before (List.cons_ne_nil a after) hsplit.symm
  | cons b l ih =>
    have hcons : (b :: l).forM check = (check b >>= fun _ => l.forM check) := rfl
    rw [hcons]
    constructor
    · intro h
      cases hb : check b with
      | error e' =>
        rw [hb] at h
        cases h
        exact ⟨[], b, l, rfl, nofun, hb⟩
      | ok u =>
        rw [hb] at h
        obtain ⟨before, a, after, rfl, hbefore, ha⟩ := ih.1 h
        exact ⟨b :: before, a, after, rfl, List.forall_mem_cons.2 ⟨hb, hbefore⟩, ha⟩
    · rintro ⟨before, a, after, hsplit, hbefore, ha⟩
      cases before with
      | nil =>
        obtain ⟨rfl, -⟩ := List.cons.inj hsplit
        rw [ha]
        rfl
      | cons b' before =>
        obtain ⟨rfl, rfl⟩ := List.cons.inj hsplit
        obtain ⟨hb, hbefore⟩ := List.forall_mem_cons.1 hbefore
        rw [hb]
        exact ih.2 ⟨before, a, after, rfl, hbefore, ha⟩

end ForM

/-! ## All checks -/

theorem sound_iff : p.Sound ↔
    p.checkLimits = .ok () ∧ p.connections.forM (checkConnection p.size) = .ok () := by
  rw [checkLimits_eq_ok_iff, forM_eq_ok_iff]
  simp only [checkConnection_eq_ok_iff]
  exact ⟨fun h => ⟨h.toSupported, h.fits⟩, fun ⟨hsupported, hfits⟩ => ⟨hsupported, hfits⟩⟩

theorem firstFault_iff : p.FirstFault e ↔ p.checkLimits = .error e ∨
    p.checkLimits = .ok () ∧ p.connections.forM (checkConnection p.size) = .error e := by
  rw [forM_eq_error_iff, checkLimits_eq_ok_iff]
  simp only [checkConnection_eq_ok_iff, checkConnection_eq_error_iff]
  constructor
  · intro h
    cases h with
    | noFederates h => exact Or.inl (if_pos h)
    | tooManyFederates h =>
      refine Or.inl ?_
      unfold checkLimits
      rw [if_neg (by omega), if_pos h]
      rfl
    | federationIdTooLong hpos hsize h =>
      refine Or.inl ?_
      unfold checkLimits
      rw [if_neg (by omega), if_neg (by omega), if_pos h]
      rfl
    | connection hsupported hsplit hbefore h =>
      exact Or.inr ⟨hsupported, _, _, _, hsplit, hbefore, h⟩
  · rintro (h | ⟨hsupported, before, c, after, hsplit, hbefore, h⟩)
    · unfold checkLimits at h
      split_ifs at h with hzero hmany hlong
      · cases h
        exact .noFederates hzero
      · cases h
        exact .tooManyFederates hmany
      · cases h
        exact .federationIdTooLong (Nat.pos_of_ne_zero hzero) (Nat.not_lt.1 hmany) hlong
      · cases h
    · exact .connection hsupported hsplit hbefore h

/-- A plan is refused for its first fault, or else for an instant cycle. -/
theorem build_eq_error_iff : p.build = .error e ↔ p.FirstFault e ∨ p.Sound ∧
    ∃ cycle, Graph.findCycle p.graph.size p.graph.instantDownstream = some cycle ∧
      e = .zeroDelayCycle cycle := by
  rw [firstFault_iff, sound_iff]
  unfold build
  dsimp only [bind, Except.bind]
  cases p.checkLimits with
  | error e' => simp
  | ok u =>
    cases p.connections.forM (checkConnection p.size) with
    | error e' => simp
    | ok v =>
      cases Graph.findCycle p.graph.size p.graph.instantDownstream with
      | some cycle =>
        show Except.error (TopologyError.zeroDelayCycle cycle) = .error e ↔ _
        simp [eq_comm (a := e)]
      | none =>
        show Except.ok p.graph = .error e ↔ _
        simp

end Plan

end FederatedTime.Topology
