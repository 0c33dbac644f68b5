import FederatedTime.Net.Address

/-!
# The IPv4 form of an address

Every address has one IPv4 form (`IpAddress.hasIpv4Form_iff`): an IPv4 address is its own, the
address of the own host has `127.0.0.1`, an address that maps an IPv4 address has that one, and all
others have `0.0.0.0`.
-/

namespace FederatedTime

/-! ## Two octets in a group -/

theorem joined_octets (x : UInt16) :
    (x >>> 8).toUInt8.toUInt16 <<< 8 ||| x.toUInt8.toUInt16 = x := by
  apply UInt16.toBitVec_inj.1
  simp only [UInt16.toBitVec_or, UInt16.toBitVec_shiftLeft, UInt8.toBitVec_toUInt16,
    UInt16.toBitVec_toUInt8, UInt16.toBitVec_shiftRight]
  ext i hi
  by_cases h : i < 8
  · simp [h, BitVec.getLsbD_eq_getElem hi]
  · have hhigh : i - 8 < 8 := by omega
    have hback : 8 + (i - 8) = i := by omega
    simp [h, hhigh, hback, BitVec.getLsbD_eq_getElem hi]

theorem high_octet (a b : UInt8) : ((a.toUInt16 <<< 8 ||| b.toUInt16) >>> 8).toUInt8 = a := by
  apply UInt8.toBitVec_inj.1
  simp only [UInt16.toBitVec_or, UInt16.toBitVec_shiftLeft, UInt8.toBitVec_toUInt16,
    UInt16.toBitVec_toUInt8, UInt16.toBitVec_shiftRight]
  ext i hi
  have hfits : 8 + i < 16 ∧ ¬ 8 + i < 8 ∧ i < 16 := by omega
  simp [hfits, BitVec.getLsbD_eq_getElem hi]

theorem low_octet (a b : UInt8) : (a.toUInt16 <<< 8 ||| b.toUInt16).toUInt8 = b := by
  apply UInt8.toBitVec_inj.1
  simp only [UInt16.toBitVec_or, UInt16.toBitVec_shiftLeft, UInt8.toBitVec_toUInt16,
    UInt16.toBitVec_toUInt8]
  ext i hi
  simp

namespace Ipv6

/-- The address `::ffff:a.b.c.d`, which maps the address `a.b.c.d`. -/
def mapping (ip : Ipv4) : Ipv6 :=
  ⟨#v[0, 0, 0, 0, 0, 0xffff, ip.a.toUInt16 <<< 8 ||| ip.b.toUInt16,
    ip.c.toUInt16 <<< 8 ||| ip.d.toUInt16]⟩

theorem lowIpv4_mapping (ip : Ipv4) : (mapping ip).lowIpv4 = ip := by
  show Ipv4.mk ((ip.a.toUInt16 <<< 8 ||| ip.b.toUInt16) >>> 8).toUInt8
    (ip.a.toUInt16 <<< 8 ||| ip.b.toUInt16).toUInt8
    ((ip.c.toUInt16 <<< 8 ||| ip.d.toUInt16) >>> 8).toUInt8
    (ip.c.toUInt16 <<< 8 ||| ip.d.toUInt16).toUInt8 = ip
  rw [high_octet, low_octet, high_octet, low_octet]

/-- The last two groups are all that the prefix leaves open. -/
theorem eq_mapping_lowIpv4 {ip : Ipv6} (h : ip.groups.toList.take 6 = [0, 0, 0, 0, 0, 0xffff]) :
    ip = mapping ip.lowIpv4 := by
  obtain ⟨⟨⟨groups⟩, hsize⟩⟩ := ip
  match groups, hsize with
  | [g₀, g₁, g₂, g₃, g₄, g₅, high, low], hsize =>
    obtain ⟨rfl, rfl, rfl, rfl, rfl, rfl⟩ : g₀ = 0 ∧ g₁ = 0 ∧ g₂ = 0 ∧ g₃ = 0 ∧ g₄ = 0 ∧
        g₅ = 0xffff := by simpa using h
    show _ = Ipv6.mk #v[0, 0, 0, 0, 0, 0xffff,
      (high >>> 8).toUInt8.toUInt16 <<< 8 ||| high.toUInt8.toUInt16,
      (low >>> 8).toUInt8.toUInt16 <<< 8 ||| low.toUInt8.toUInt16]
    rw [joined_octets, joined_octets]

theorem mapped?_eq_some_iff {ip : Ipv6} {v4 : Ipv4} : ip.mapped? = some v4 ↔ ip = mapping v4 := by
  unfold mapped?
  constructor
  · intro h
    split at h
    · rename_i hprefix
      rw [← Option.some.inj h]
      exact eq_mapping_lowIpv4 hprefix
    · cases h
  · rintro rfl
    rw [lowIpv4_mapping]
    exact if_pos rfl

end Ipv6

namespace IpAddress

/-- The address that stands for a host among IPv4 addresses. -/
inductive HasIpv4Form : IpAddress → Ipv4 → Prop
  | v4 (ip : Ipv4) : HasIpv4Form (.v4 ip) ip
  | loopback : HasIpv4Form (.v6 ⟨#v[0, 0, 0, 0, 0, 0, 0, 1]⟩) ⟨127, 0, 0, 1⟩
  | mapped (ip : Ipv4) : HasIpv4Form (.v6 (.mapping ip)) ip
  | other {ip : Ipv6} (hloopback : ip ≠ ⟨#v[0, 0, 0, 0, 0, 0, 0, 1]⟩)
      (hmapped : ∀ v4, ip ≠ .mapping v4) : HasIpv4Form (.v6 ip) ⟨0, 0, 0, 0⟩

theorem hasIpv4Form_iff {host : IpAddress} {ip : Ipv4} :
    host.HasIpv4Form ip ↔ host.toIpv4 = ip := by
  constructor
  · intro h
    cases h with
    | v4 => rfl
    | loopback => rfl
    | mapped =>
      rw [toIpv4, Ipv6.mapped?_eq_some_iff.2 rfl, if_neg nofun]
      rfl
    | @other v6 hloopback hmapped =>
      have hnone : v6.mapped? = none :=
        Option.eq_none_iff_forall_ne_some.2 fun v4 h => hmapped v4 (Ipv6.mapped?_eq_some_iff.1 h)
      have hother : ¬ v6 = .loopback := hloopback
      rw [toIpv4, if_neg hother, hnone]
      rfl
  · rintro rfl
    cases host with
    | v4 ip => exact .v4 ip
    | v6 ip =>
      unfold toIpv4
      dsimp only
      split
      · rename_i hloopback
        rw [hloopback]
        exact .loopback
      · rename_i hloopback
        cases hmapped : ip.mapped? with
        | none =>
          refine .other hloopback fun v4 h => ?_
          rw [Ipv6.mapped?_eq_some_iff.2 h] at hmapped
          cases hmapped
        | some v4 =>
          rw [Ipv6.mapped?_eq_some_iff.1 hmapped]
          exact .mapped v4

end IpAddress

end FederatedTime
