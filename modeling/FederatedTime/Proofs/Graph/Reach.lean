import FederatedTime.Graph.Search
import Mathlib.Data.List.Nodup
import Mathlib.Logic.Relation

/-!
# What a search meets

A search meets every federate in range among its seeds (`mem_reach`) and what follows one that it
meets (`mem_reach_of_mem_next`), and none of them twice (`nodup_reach`). This rests on one fact
about each meeting: the flags and the order agree. It meets nobody else (`forall_mem_reach`), so
nobody whom no path leads to from a seed (`exists_seed_of_mem_reach`).
-/

namespace FederatedTime.Graph

/-- The federates flagged are those in the list, where each stands once. -/
structure Flags (flags : Roster Bool) (fs : List FederateId) : Prop where
  nodup : fs.Nodup
  get?_iff : ∀ f, flags.get? f = some true ↔ f ∈ fs

namespace Flags

variable {flags : Roster Bool} {f : FederateId} {fs : List FederateId}

theorem replicate (n : Nat) : Flags (.replicate n false) [] where
  nodup := List.nodup_nil
  get?_iff f := by
    rw [Roster.get?_replicate]
    split <;> simp

theorem index_lt_of_mem (h : Flags flags fs) (hf : f ∈ fs) : f.index < flags.size :=
  Roster.index_lt_of_get? ((h.get?_iff f).2 hf)

theorem get?_eq_false_iff (h : Flags flags fs) :
    flags.get? f = some false ↔ f.index < flags.size ∧ f ∉ fs := by
  constructor
  · intro hf
    refine ⟨Roster.index_lt_of_get? hf, fun hmem => ?_⟩
    cases hf.symm.trans ((h.get?_iff f).2 hmem)
  · rintro ⟨hrange, hmem⟩
    obtain ⟨flag, hflag⟩ := Roster.exists_get?_of_index_lt hrange
    cases flag with
    | false => exact hflag
    | true => exact absurd ((h.get?_iff f).1 hflag) hmem

theorem append (h : Flags flags fs) (hrange : f.index < flags.size) (hf : f ∉ fs) :
    Flags (flags.set f true) (fs ++ [f]) := by
  refine ⟨h.nodup.append (List.nodup_singleton f) (List.disjoint_singleton.2 hf), fun g => ?_⟩
  rw [List.mem_append, List.mem_singleton, ← h.get?_iff g]
  by_cases hfg : f = g
  · subst hfg
    exact iff_of_true (Roster.get?_set_self hrange) (Or.inr rfl)
  · rw [Roster.get?_set_ne hfg, or_iff_left (Ne.symm hfg)]

theorem tail (h : Flags flags (f :: fs)) : Flags (flags.set f false) fs := by
  obtain ⟨hf, hfs⟩ := List.nodup_cons.1 h.nodup
  refine ⟨hfs, fun g => ?_⟩
  by_cases hfg : f = g
  · subst hfg
    rw [Roster.get?_set_self (h.index_lt_of_mem List.mem_cons_self)]
    exact iff_of_false (by simp) hf
  · rw [Roster.get?_set_ne hfg, h.get?_iff g, List.mem_cons, or_iff_right (Ne.symm hfg)]

end Flags

namespace Search

variable {s : Search} {f g : FederateId} {fs : List FederateId}

/-- The flags and the order of a search agree. -/
abbrev Agrees (s : Search) : Prop := Flags s.met s.order.toList

theorem agrees_start (n : Nat) : (start n).Agrees := .replicate n

theorem Agrees.meet_of_not_mem (h : s.Agrees) (hrange : f.index < s.met.size)
    (hf : f ∉ s.order.toList) : s.meet f = ⟨s.met.set f true, s.order.push f⟩ :=
  if_pos (h.get?_eq_false_iff.2 ⟨hrange, hf⟩)

theorem Agrees.meet_of_mem (h : s.Agrees) (hf : f ∈ s.order.toList) : s.meet f = s :=
  if_neg fun hmet => (h.get?_eq_false_iff.1 hmet).2 hf

theorem meet_of_size_le (hf : s.met.size ≤ f.index) : s.meet f = s :=
  if_neg fun hmet => Nat.not_lt_of_le hf (Roster.index_lt_of_get? hmet)

theorem Agrees.meet (h : s.Agrees) (f : FederateId) : (s.meet f).Agrees := by
  unfold Search.meet
  split
  · rename_i hf
    obtain ⟨hrange, hfresh⟩ := h.get?_eq_false_iff.1 hf
    show Flags _ (s.order.push f).toList
    rw [Array.toList_push]
    exact h.append hrange hfresh
  · exact h

theorem Agrees.foldl_meet (h : s.Agrees) (fs : List FederateId) :
    (fs.foldl Search.meet s).Agrees := by
  induction fs generalizing s with
  | nil => exact h
  | cons f fs ih => exact ih (h.meet f)

theorem Agrees.expand {next : FederateId → List FederateId} {i : Nat} (h : s.Agrees) :
    (s.expand next i).Agrees := by
  fun_induction Search.expand next s i with
  | case1 s i hi ih => exact ih (h.foldl_meet _)
  | case2 => exact h

/-! ## Meeting keeps what has been met -/

theorem prefix_meet (s : Search) (f : FederateId) :
    s.order.toList <+: (s.meet f).order.toList := by
  unfold meet
  split
  · rw [Array.toList_push]
    exact List.prefix_append _ _
  · exact List.prefix_rfl

theorem prefix_foldl_meet (s : Search) (fs : List FederateId) :
    s.order.toList <+: (fs.foldl meet s).order.toList := by
  induction fs generalizing s with
  | nil => exact List.prefix_rfl
  | cons f fs ih => exact (prefix_meet s f).trans (ih (s.meet f))

theorem prefix_expand (next : FederateId → List FederateId) (s : Search) (i : Nat) :
    s.order.toList <+: (s.expand next i).order.toList := by
  fun_induction expand next s i with
  | case1 s i hi ih => exact (prefix_foldl_meet s _).trans ih
  | case2 => exact List.prefix_rfl

@[simp] theorem size_met_meet : (s.meet f).met.size = s.met.size := by
  unfold meet
  split
  · exact Roster.size_set _ _ _
  · rfl

@[simp] theorem size_met_foldl_meet (s : Search) (fs : List FederateId) :
    (fs.foldl meet s).met.size = s.met.size := by
  induction fs generalizing s with
  | nil => rfl
  | cons f fs ih => rw [List.foldl_cons, ih, size_met_meet]

theorem mem_meet_self (h : s.Agrees) (hf : f.index < s.met.size) :
    f ∈ (s.meet f).order.toList := by
  by_cases hmem : f ∈ s.order.toList
  · exact (prefix_meet s f).subset hmem
  · rw [h.meet_of_not_mem hf hmem, Array.toList_push]
    exact List.mem_append_right _ (List.mem_singleton_self f)

theorem mem_foldl_meet (h : s.Agrees) (hf : f.index < s.met.size) (hmem : f ∈ fs) :
    f ∈ (fs.foldl meet s).order.toList := by
  induction fs generalizing s with
  | nil => exact absurd hmem List.not_mem_nil
  | cons g fs ih =>
    rw [List.foldl_cons]
    rcases List.mem_cons.1 hmem with rfl | hmem
    · exact (prefix_foldl_meet _ fs).subset (mem_meet_self h hf)
    · exact ih (h.meet g) (by rwa [size_met_meet]) hmem

/-! ## What is met has been given -/

theorem mem_of_mem_meet (h : g ∈ (s.meet f).order.toList) : g = f ∨ g ∈ s.order.toList := by
  unfold meet at h
  split at h
  · rw [Array.toList_push, List.mem_append, List.mem_singleton] at h
    exact h.symm
  · exact Or.inr h

theorem mem_of_mem_foldl_meet (h : g ∈ (fs.foldl meet s).order.toList) :
    g ∈ fs ∨ g ∈ s.order.toList := by
  induction fs generalizing s with
  | nil => exact Or.inr h
  | cons f fs ih =>
    rcases ih h with hmem | hmem
    · exact Or.inl (List.mem_cons_of_mem f hmem)
    · exact (mem_of_mem_meet hmem).imp_left fun heq => List.mem_cons.2 (Or.inl heq)

/-- What holds of everything met, and is passed on by `next`, holds of everything met later. -/
theorem forall_mem_expand {next : FederateId → List FederateId} {i : Nat}
    {P : FederateId → Prop} (hnext : ∀ f, P f → ∀ g ∈ next f, P g)
    (h : ∀ f ∈ s.order.toList, P f) : ∀ f ∈ (s.expand next i).order.toList, P f := by
  fun_induction expand next s i with
  | case1 s i hi ih =>
    refine ih fun g hg => ?_
    rcases mem_of_mem_foldl_meet hg with hg | hg
    · exact hnext _ (h _ (Array.getElem_mem_toList hi)) g hg
    · exact h g hg
  | case2 => exact h

/-! ## What is met is expanded -/

theorem drop_eq_getElem_cons {order : List FederateId} {i : Nat} (h : s.order.toList <+: order)
    (hi : i < s.order.size) : order.drop i = s.order[i] :: order.drop (i + 1) := by
  obtain ⟨rest, rfl⟩ := h
  have hlength : i < (s.order.toList ++ rest).length := by
    rw [List.length_append, Array.length_toList]
    exact Nat.lt_add_right _ hi
  rw [List.drop_eq_getElem_cons hlength]
  congr 1
  exact List.getElem_append_left hi

/-- From position `i` on, the search leaves out nothing that it could have met. -/
theorem mem_expand_of_mem_next {next : FederateId → List FederateId} {i : Nat} (h : s.Agrees)
    (hf : f ∈ (s.expand next i).order.toList.drop i) (hg : g ∈ next f)
    (hrange : g.index < s.met.size) : g ∈ (s.expand next i).order.toList := by
  fun_induction expand next s i with
  | case1 s i hi ih =>
    have hprefix := (prefix_foldl_meet s (next s.order[i])).trans (prefix_expand next _ (i + 1))
    rw [drop_eq_getElem_cons hprefix hi] at hf
    rcases List.mem_cons.1 hf with rfl | hf
    · exact (prefix_expand next _ (i + 1)).subset (mem_foldl_meet h hrange hg)
    · exact ih (h.foldl_meet _) hf (by rwa [size_met_foldl_meet])
  | case2 s i hi =>
    rw [List.drop_eq_nil_of_le (Nat.le_of_not_lt hi)] at hf
    exact absurd hf List.not_mem_nil

end Search

variable {n : Nat} {next : FederateId → List FederateId} {seeds : List FederateId}

theorem nodup_reach : (reach n next seeds).Nodup :=
  ((Search.agrees_start n).foldl_meet seeds).expand.nodup

theorem mem_reach {f : FederateId} (hf : f.index < n) (hmem : f ∈ seeds) :
    f ∈ reach n next seeds := by
  have hsize : (Search.start n).met.size = n := Roster.size_replicate n false
  exact (Search.prefix_expand next _ 0).subset
    (Search.mem_foldl_meet (Search.agrees_start n) (hsize.symm ▸ hf) hmem)

/-- What `next` gives for a federate that is met is met as well, as far as it is in range. -/
theorem mem_reach_of_mem_next {f g : FederateId} (hf : f ∈ reach n next seeds) (hg : g ∈ next f)
    (hrange : g.index < n) : g ∈ reach n next seeds := by
  have hsize : (Search.start n).met.size = n := Roster.size_replicate n false
  refine Search.mem_expand_of_mem_next ((Search.agrees_start n).foldl_meet seeds) hf hg ?_
  rwa [Search.size_met_foldl_meet, hsize]

/-- What holds of the seeds in range, and is passed on by `next`, holds of everything met. -/
theorem forall_mem_reach {P : FederateId → Prop} (hseeds : ∀ f ∈ seeds, f.index < n → P f)
    (hnext : ∀ f, P f → ∀ g ∈ next f, P g) : ∀ f ∈ reach n next seeds, P f := by
  refine Search.forall_mem_expand hnext fun f hf => ?_
  have hrange := ((Search.agrees_start n).foldl_meet seeds).index_lt_of_mem hf
  rw [Search.size_met_foldl_meet] at hrange
  rcases Search.mem_of_mem_foldl_meet hf with hf | hf
  · exact hseeds f hf (lt_of_lt_of_eq hrange (Roster.size_replicate n false))
  · exact absurd hf List.not_mem_nil

/-- A path leads from a seed to everything that is met. -/
theorem exists_seed_of_mem_reach {g : FederateId} (h : g ∈ reach n next seeds) :
    ∃ f ∈ seeds, Relation.ReflTransGen (fun u d => d ∈ next u) f g := by
  let Reached (g : FederateId) : Prop :=
    ∃ f ∈ seeds, Relation.ReflTransGen (fun u d => d ∈ next u) f g
  refine forall_mem_reach (P := Reached) (fun f hf _ => ⟨f, hf, .refl⟩) ?_ g h
  rintro u ⟨f, hf, hpath⟩ d hd
  exact ⟨f, hf, hpath.tail hd⟩

end FederatedTime.Graph
