import FederatedTime.Coordinator.Propagation
import FederatedTime.Proofs.Coordinator.Sweep

/-!
# A propagation is a sweep

A propagation settles federates one by one, some of them more than once; a sweep settles at once
those that a search meets. `propagate_eq_sweep` is that they come to the same registry and to the
same grants in the same order. The federates in the queue that have not had their turn are those
that the search has met and has not yet expanded (`Worklist.Tracks`), and a further turn changes
nothing, since nothing more is due to a federate that has been settled.
-/

namespace FederatedTime

namespace Worklist

open FederatedTime.Graph

variable {w : Worklist} {s : Search} {f : FederateId} {queued : Roster Bool}
variable {queue done : List FederateId}

@[simp] theorem size_queued_push (w : Worklist) (f : FederateId) :
    (w.push f).queued.size = w.queued.size := by
  unfold push
  split
  · exact Roster.size_set _ _ _
  · rfl

theorem push_of_not_mem (h : Flags w.queued w.queue) (hrange : f.index < w.queued.size)
    (hf : f ∉ w.queue) : w.push f = ⟨w.queued.set f true, w.queue ++ [f]⟩ :=
  if_pos (h.get?_eq_false_iff.2 ⟨hrange, hf⟩)

theorem push_of_mem (h : Flags w.queued w.queue) (hf : f ∈ w.queue) : w.push f = w :=
  if_neg fun hqueued => (h.get?_eq_false_iff.1 hqueued).2 hf

theorem push_of_size_le (hf : w.queued.size ≤ f.index) : w.push f = w :=
  if_neg fun hqueued => Nat.not_lt_of_le hf (Roster.index_lt_of_get? hqueued)

theorem flags_push (h : Flags w.queued w.queue) (f : FederateId) :
    Flags (w.push f).queued (w.push f).queue := by
  unfold push
  split
  · rename_i hf
    obtain ⟨hrange, hfresh⟩ := h.get?_eq_false_iff.1 hf
    exact h.append hrange hfresh
  · exact h

/-- A search has met the federates of `done` and, in the order of the queue, those that stand there
without having had their turn. -/
structure Tracks (w : Worklist) (s : Search) (done : List FederateId) : Prop where
  worklist : Flags w.queued w.queue
  search : s.Agrees
  size_eq : w.queued.size = s.met.size
  order_eq : s.order.toList = done ++ w.queue.filter (· ∉ done)

theorem tracks_empty (n : Nat) : (empty n).Tracks (.start n) [] where
  worklist := .replicate n
  search := Search.agrees_start n
  size_eq := rfl
  order_eq := rfl

theorem Tracks.mem_order_iff (h : w.Tracks s done) :
    f ∈ s.order.toList ↔ f ∈ done ∨ f ∈ w.queue := by
  rw [h.order_eq, List.mem_append, List.mem_filter]
  by_cases hf : f ∈ done <;> simp [hf]

theorem Tracks.push (h : w.Tracks s done) (f : FederateId) :
    (w.push f).Tracks (s.meet f) done := by
  refine ⟨flags_push h.worklist f, h.search.meet f, ?_, ?_⟩
  · rw [size_queued_push, Search.size_met_meet, h.size_eq]
  rcases Nat.lt_or_ge f.index w.queued.size with hrange | hrange
  · by_cases hqueue : f ∈ w.queue
    · rw [push_of_mem h.worklist hqueue, h.search.meet_of_mem (h.mem_order_iff.2 (Or.inr hqueue))]
      exact h.order_eq
    · rw [push_of_not_mem h.worklist hrange hqueue, List.filter_append]
      by_cases hdone : f ∈ done
      · rw [h.search.meet_of_mem (h.mem_order_iff.2 (Or.inl hdone)), h.order_eq]
        simp [hdone]
      · have hfresh : f ∉ s.order.toList := fun hf => (h.mem_order_iff.1 hf).elim hdone hqueue
        rw [h.search.meet_of_not_mem (h.size_eq ▸ hrange) hfresh, Array.toList_push, h.order_eq]
        simp [hdone]
  · rw [push_of_size_le hrange, Search.meet_of_size_le (h.size_eq ▸ hrange)]
    exact h.order_eq

theorem Tracks.foldl_push (h : w.Tracks s done) (fs : List FederateId) :
    (fs.foldl Worklist.push w).Tracks (fs.foldl Search.meet s) done := by
  induction fs generalizing w s with
  | nil => exact h
  | cons f fs ih => exact ih (h.push f)

/-- Taking a federate from the queue that has had its turn. -/
theorem Tracks.pop_of_mem (h : Tracks ⟨queued, f :: queue⟩ s done) (hf : f ∈ done) :
    Tracks ⟨queued.set f false, queue⟩ s done where
  worklist := h.worklist.tail
  search := h.search
  size_eq := (Roster.size_set _ _ _).trans h.size_eq
  order_eq := by
    rw [h.order_eq]
    simp [hf]

/-- Taking a federate from the queue that has its turn for the first time. -/
theorem Tracks.pop_of_not_mem (h : Tracks ⟨queued, f :: queue⟩ s done) (hf : f ∉ done) :
    Tracks ⟨queued.set f false, queue⟩ s (done ++ [f]) where
  worklist := h.worklist.tail
  search := h.search
  size_eq := (Roster.size_set _ _ _).trans h.size_eq
  order_eq := by
    have hqueue : f ∉ queue := (List.nodup_cons.1 h.worklist.nodup).1
    have hfilter : queue.filter (· ∉ done ++ [f]) = queue.filter (· ∉ done) :=
      List.filter_congr fun g hg => by
        have hgf : g ≠ f := fun heq => hqueue (heq ▸ hg)
        simp [hgf]
    rw [h.order_eq, hfilter]
    simp [hf]

theorem Tracks.nodup_done (h : w.Tracks s done) : done.Nodup := by
  have hnodup := h.search.nodup
  rw [h.order_eq] at hnodup
  exact hnodup.of_append_left

/-- The search is to expand next the first federate in the queue that has not had its turn. -/
theorem Tracks.getElem?_order (h : Tracks ⟨queued, f :: queue⟩ s done) (hf : f ∉ done) :
    s.order[done.length]? = some f := by
  rw [← Array.getElem?_toList, h.order_eq]
  simp [hf]

end Worklist

namespace FederateRecord

theorem refresh_of_not_connected {record : FederateRecord} (h : ¬ record.isConnected) :
    record.refresh = record := if_neg h

@[simp] theorem refresh_refresh (record : FederateRecord) :
    record.refresh.refresh = record.refresh := by
  by_cases h : record.isConnected
  · have heq : record.refresh = { record with state := _ } := if_pos h
    have hconnected : record.refresh.isConnected := by rwa [isConnected_refresh]
    rw [refresh, if_pos hconnected, heq]
    rfl
  · rw [refresh_of_not_connected h, refresh_of_not_connected h]

end FederateRecord

namespace Registry

open FederatedTime.Graph

variable {r r' : Registry} {stop : Option Tag} {f : FederateId} {tag : Tag} {w : Worklist}
variable {s : Search} {queued : Roster Bool} {queue done : List FederateId}

/-- Where the search of a sweep goes on from `f`. -/
def onward (r : Registry) (stop : Option Tag) (f : FederateId) : List FederateId :=
  if (r.raise? stop f).isSome then r.topology.downstream f else []

/-- What a sweep comes to whose search has expanded the first `i` federates of its order, with the
grants that come after theirs. -/
def outcome (r : Registry) (stop : Option Tag) (s : Search) (i : Nat) : Registry × List Grant :=
  let order := (s.expand (r.onward stop) i).order.toList
  (r.settled stop order, (order.drop i).filterMap (r.grant? stop))

theorem outcome_of_size_le {i : Nat} (h : s.order.size ≤ i) :
    r.outcome stop s i = (r.settled stop s.order.toList, []) := by
  have hexpand : s.expand (r.onward stop) i = s := by
    rw [Search.expand, dif_neg (Nat.not_lt_of_le h)]
  unfold outcome
  dsimp only
  rw [hexpand, List.drop_eq_nil_of_le h, List.filterMap_nil]

theorem outcome_of_getElem? {i : Nat} (h : s.order[i]? = some f) :
    r.outcome stop s i =
      ((r.outcome stop ((r.onward stop f).foldl .meet s) (i + 1)).1, (r.grant? stop f).toList ++
        (r.outcome stop ((r.onward stop f).foldl .meet s) (i + 1)).2) := by
  obtain ⟨hi, rfl⟩ := Array.getElem?_eq_some_iff.1 h
  have hprefix := Search.prefix_expand (r.onward stop) s i
  have hexpand : s.expand (r.onward stop) i =
      ((r.onward stop s.order[i]).foldl .meet s).expand (r.onward stop) (i + 1) := by
    rw [Search.expand, dif_pos hi]
  unfold outcome
  dsimp only
  rw [Search.drop_eq_getElem_cons hprefix hi, ← hexpand, List.filterMap_cons]
  cases r.grant? stop s.order[i] <;> rfl

/-! ## One turn -/

theorem settled_of_mem (h : done.Nodup) (hf : f ∈ done) :
    (r.settled stop done).modify f (settle none) = r.settled stop done := by
  refine modify_eq_self fun record hrecord => ?_
  rw [get?_settled h, if_pos hf] at hrecord
  obtain ⟨record, -, rfl⟩ := Option.map_eq_some_iff.1 hrecord
  exact FederateRecord.refresh_refresh _

theorem raise?_of_not_connected (h : ¬ r.isConnected f) : r.raise? stop f = none := by
  refine Option.eq_none_iff_forall_ne_some.2 fun tag htag => h ?_
  obtain ⟨record, hrecord, hconnected, -⟩ := raise?_eq_some_iff.1 htag
  rwa [isConnected_of_get? hrecord]

theorem settle_of_not_connected {record : FederateRecord} (h : ¬ r.isConnected f)
    (hrecord : r.get? f = some record) : settle none record = record := by
  rw [isConnected_of_get? hrecord] at h
  exact FederateRecord.refresh_of_not_connected h

theorem modify_of_not_connected (h : ¬ r.isConnected f) : r.modify f (settle none) = r :=
  modify_eq_self fun _ hrecord => settle_of_not_connected h hrecord

/-- A turn without a grant, be it the first of the federate or a further one. -/
theorem exists_tracks_of_raise?_eq_none (h : Worklist.Tracks ⟨queued, f :: queue⟩ s done)
    (hnone : (r.settled stop done).raise? stop f = none) :
    ∃ done', Worklist.Tracks ⟨queued.set f false, queue⟩ s done' ∧
      (r.settled stop done).modify f (settle none) = r.settled stop done' ∧
      r.outcome stop s done.length = r.outcome stop s done'.length := by
  by_cases hf : f ∈ done
  · exact ⟨done, h.pop_of_mem hf, settled_of_mem h.nodup_done hf, rfl⟩
  · rw [raise?_settled_of_not_mem h.nodup_done hf] at hnone
    refine ⟨done ++ [f], h.pop_of_not_mem hf, ?_, ?_⟩
    · rw [settled_append_singleton, hnone]
    · rw [outcome_of_getElem? (h.getElem?_order hf), onward, grant?, hnone,
        List.length_append]
      rfl

/-- A turn with a grant is the first one of the federate. -/
theorem tracks_of_raise?_eq_some (h : Worklist.Tracks ⟨queued, f :: queue⟩ s done)
    (htag : (r.settled stop done).raise? stop f = some tag) :
    (((r.settled stop done).topology.downstream f).foldl Worklist.push
        ⟨queued.set f false, queue⟩).Tracks ((r.onward stop f).foldl .meet s) (done ++ [f]) ∧
      (r.settled stop done).modify f (settle (some tag)) = r.settled stop (done ++ [f]) ∧
      r.grant? stop f = some ⟨f, tag⟩ ∧ s.order[done.length]? = some f := by
  have hf : f ∉ done := fun hf => by
    cases htag.symm.trans (raise?_settled_of_mem h.nodup_done hf)
  rw [raise?_settled_of_not_mem h.nodup_done hf] at htag
  refine ⟨?_, ?_, ?_, h.getElem?_order hf⟩
  · have honward : r.onward stop f = r.topology.downstream f := by
      rw [onward, htag]
      rfl
    rw [topology_settled, honward]
    exact (h.pop_of_not_mem hf).foldl_push _
  · rw [settled_append_singleton, htag]
  · rw [grant?, htag]
    rfl

/-- From any moment on, a propagation comes to what the sweep comes to whose search it tracks. -/
theorem propagateFrom_eq_outcome (h : w.Tracks s done) (hr : r' = r.settled stop done) :
    r'.propagateFrom stop w = r.outcome stop s done.length := by
  fun_induction propagateFrom stop r' w generalizing s done with
  | case1 r' queued =>
    have horder : s.order.toList = done := by simpa using h.order_eq
    rw [outcome_of_size_le (by rw [← horder, Array.length_toList]), horder, hr]
  | case2 r' queued f queue w hconnected tag htag r'' grants heq =>
    rename_i ih
    subst hr
    obtain ⟨htracks, hsettled, hgrant, hnext⟩ := tracks_of_raise?_eq_some h htag
    have houtcome := ih htracks hsettled
    rw [List.length_append, List.length_singleton] at houtcome
    rw [outcome_of_getElem? hnext, hgrant, ← houtcome, heq]
    rfl
  | case3 r' queued f queue w hconnected hnone =>
    rename_i ih
    subst hr
    obtain ⟨done', htracks, hsettled, houtcome⟩ := exists_tracks_of_raise?_eq_none h hnone
    rw [houtcome]
    exact ih htracks hsettled
  | case4 r' queued f queue w hconnected =>
    rename_i ih
    subst hr
    have hnone : (r.settled stop done).raise? stop f = none := raise?_of_not_connected hconnected
    obtain ⟨done', htracks, hsettled, houtcome⟩ := exists_tracks_of_raise?_eq_none h hnone
    rw [modify_of_not_connected hconnected] at hsettled
    rw [houtcome]
    exact ih htracks hsettled

/-- Granting one by one comes to the same as granting at once. -/
theorem propagate_eq_sweep (r : Registry) (stop : Option Tag) (seeds : List FederateId) :
    r.propagate stop seeds = r.sweep stop seeds := by
  have htracks := (Worklist.tracks_empty r.size).foldl_push seeds
  have hsettled : r = r.settled stop [] := rfl
  rw [propagate, propagateFrom_eq_outcome htracks hsettled, sweep_eq]
  rfl

end Registry

end FederatedTime
